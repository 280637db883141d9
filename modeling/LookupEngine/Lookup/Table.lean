import LookupEngine.Context
import LookupEngine.Csv
import LookupEngine.Lookup.Card
import LookupEngine.Machine.World
import LookupEngine.Options
import LookupEngine.Term
/-!
# Tables in files

The lookup `csvfile` gives one column of the first record whose first field is the key of the
term.  A key that is not found gives the default, or no value at all.
-/

namespace LookupEngine.Lookup.Table

structure Spec where
  key : String
  file : String
  column : Nat
  delimiter : Char
  default : Option String
deriving Repr, DecidableEq

namespace Spec

/-- The character that a text stands for as a delimiter. -/
def delimiter? (text : String) : Option Char :=
  if ["TAB", "tab", "\\t", "\t"].contains text then some '\t'
  else
    match text.toList with
    | [c] => if c.toNat < 0x80 then some c else none
    | _ => none

/-- The delimiter of a term or of the options; one that cannot be used means a comma. -/
def delimiterOf (options : Options) (term : Term) : Char :=
  (((term.get? "delimiter").or (options.text? "delimiter")).bind delimiter?).getD ','

/-- Reads a term, and takes what it leaves out from the options. -/
def parse (options : Options) (text : String) : Except Failure Spec :=
  let term := Term.parse text
  match term.positional with
  | none => .error (.invalidTerm text .keyMissing)
  | some key =>
    match (term.get? "file").or (options.text? "file") with
    | none => .error (.invalidTerm text .fileMissing)
    | some file =>
      .ok
        { key, file
          column := ((term.natural? "col").or (options.natural? "col")).getD 1
          delimiter := delimiterOf options term
          default := (term.get? "default").or ((options.find? "default").map Value.toText) }

def delimiterByte (spec : Spec) : UInt8 := UInt8.ofNat spec.delimiter.toNat

/-- What the bytes of a table hold for a term. -/
def search (spec : Spec) (bytes : Bytes) : Except Csv.Problem (Option String) :=
  Csv.search spec.delimiterByte spec.key spec.column bytes

end Spec

/-- What is found at a path. -/
def find (disk : Disk) (here : Location) (path : String) (spec : Spec) :
    Except Csv.Problem (Option String) :=
  match disk.readBytes here path with
  | .error fault => .error (.unreadable fault)
  | .ok bytes => spec.search bytes

def one (context : Context) (options : Options) (term : String) : Action World (List Value) := do
  let spec ← Action.ofExcept (Spec.parse options term)
  let world ← get
  let path := context.resolve world.environment spec.file
  match find world.disk world.here path spec with
  | .error problem => throw (.sourceUnavailable path (.table problem))
  | .ok found => pure ((found.or spec.default).toList.map .string)

def run (context : Context) (options : Options) (terms : List String) :
    Action World (List Value) :=
  Action.collect World.isCancelled (one context options) terms

def card : Card :=
  .builtin "csvfile" "Looks values up in the first column of a CSV file"
    ["alice file=users.csv col=2", "bob file=users.tsv delimiter=TAB"]
    [.needed "file" "CSV file to read" "path",
      .withDefault "col" "Zero-based column to return" "int" "1",
      .withDefault "delimiter" "Field delimiter" "string" ",",
      .plain "default" "Value when no row matches" "string"]

end LookupEngine.Lookup.Table
