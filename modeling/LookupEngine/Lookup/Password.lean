import LookupEngine.Context
import LookupEngine.Lookup.Card
import LookupEngine.Machine.World
import LookupEngine.Options
import LookupEngine.Term
/-!
# Stored passwords

The lookup `password` gives the password that is stored at a path, and makes and stores one
where there is none.  What a password is made of comes from the term, then from the options,
then from the settings.  A password that is stored is never written over.
-/

namespace LookupEngine.Lookup.Password

def lowercase : List Char := "abcdefghijklmnopqrstuvwxyz".toList

def uppercase : List Char := "ABCDEFGHIJKLMNOPQRSTUVWXYZ".toList

def decimals : List Char := "0123456789".toList

def hexadecimals : List Char := "0123456789abcdef".toList

/-- The ASCII characters that are neither letters, digits, blanks nor controls. -/
def punctuation : List Char :=
  "!\x22#$%&'()*+,-./:;<=>?@[\\]^_".toList ++ ['\x60', '\x7b', '|', '\x7d', '~']

/-- The characters that a name stands for. -/
def named? (name : String) : Option (List Char) :=
  match name with
  | "ascii_letters" => some (lowercase ++ uppercase)
  | "ascii_lowercase" => some lowercase
  | "ascii_uppercase" => some uppercase
  | "digits" => some decimals
  | "hexdigits" => some hexadecimals
  | "punctuation" => some punctuation
  | "alphanumeric" => some (lowercase ++ uppercase ++ decimals)
  | _ => none

/-- The characters of one part: those of a name in any case, else the part itself. -/
def expandPart (part : List Char) : List Char :=
  (named? (Text.lowerAscii (Text.trim (String.ofList part)))).getD part

/-- Keeps the first of equal characters that are not in `seen`. -/
def dedupe (seen : List Char) : List Char → List Char
  | [] => []
  | c :: rest => if seen.contains c then dedupe seen rest else c :: dedupe (c :: seen) rest

/-- The characters of the parts between commas, each of them once. -/
def alphabetOf (spec : List Char) : List Char :=
  dedupe [] (((Text.splitAny (· = ',') spec).filter (!·.isEmpty)).flatMap expandPart)

def alphabet (spec : String) : String := String.ofList (alphabetOf spec.toList)

/-- Draws characters of an alphabet, beginning with the random number `first`. -/
def draw (draws : Nat → Nat) (first length : Nat) (alphabet : List Char) : List Char :=
  match alphabet with
  | [] => []
  | c :: rest =>
    (List.range length).map fun i =>
      (c :: rest).getD (draws (first + i) % (c :: rest).length) c

/-- A password, unless there is nothing to draw from. -/
def generate? (draws : Nat → Nat) (first length : Nat) (alphabet : String) : Option String :=
  if alphabet.isEmpty then none
  else some (String.ofList (draw draws first length alphabet.toList))

/-- What a term asks for. -/
structure Spec where
  path : Option String
  length : Nat
  charset : String
deriving Repr, DecidableEq

namespace Spec

/-- The character sets that the options name. -/
def optionChars? (options : Options) : Option String :=
  match options.find? "chars" with
  | some (.array _) => (options.list? "chars").map (String.intercalate ",")
  | _ => options.text? "chars"

def lengthOf (settings : PasswordSettings) (options : Options) (term : Term) : Nat :=
  ((term.natural? "length").or (options.natural? "length")).getD settings.length

def charsOf (settings : PasswordSettings) (options : Options) (term : Term) : String :=
  ((term.get? "chars").or (optionChars? options)).getD settings.chars

/-- Reads a term. -/
def parse (settings : PasswordSettings) (options : Options) (text : String) :
    Except Failure Spec :=
  let term := Term.parse text
  let length := lengthOf settings options term
  if length = 0 then .error (.invalidTerm text .emptyPassword)
  else
    let charset := alphabet (charsOf settings options term)
    if charset.isEmpty then .error (.invalidTerm text .emptyAlphabet)
    else .ok ⟨term.positional, length, charset⟩

/-- The path that stands for storing nothing. -/
def nullDevice : String := "/dev/null"

/-- The path at which the password is stored, as the term says it. -/
def storage? (spec : Spec) : Option String := spec.path.filter (· ≠ nullDevice)

end Spec

/-- The modes of directories and files that hold passwords. -/
def directoryMode : Nat := 0o700
def fileMode : Nat := 0o600

/-- The password stored at a path, if anything is there. -/
def stored? (disk : Disk) (here : Location) (path : String) : Except Failure (Option String) :=
  match disk.readText here path with
  | .ok text => .ok (some (Text.trim text))
  | .error fault =>
    if fault = .missing ∨ disk.pathExists here path = false then .ok none
    else .error (.sourceUnavailable path (.fault fault))

/-- The directory that a path is in. -/
def directoryOf (path : String) : String :=
  match Path.parent? path with
  | some dir => if dir.isEmpty then "." else dir
  | none => "."

/-- Makes a password and advances in the random numbers. -/
def make (spec : Spec) : Action World String := do
  let world ← get
  set { world with drawn := world.drawn + spec.length }
  match generate? world.draws world.drawn spec.length spec.charset with
  | some password => pure password
  | none => throw (.invalidTerm (spec.path.getD "") .emptyAlphabet)

/-- Stores a password, and gives the one that is stored in the end: if something has come to
stand at the path, that is read instead. -/
def store (path password : String) : Action World String := do
  let world ← get
  let dir := directoryOf path
  match world.disk.makeDirectories world.here directoryMode dir with
  | (.error fault, disk) =>
    set { world with disk }
    throw (.notPersisted dir fault)
  | (.ok (), disk) =>
    match disk.publish world.here path (Utf8.encode (password ++ "\n")) fileMode with
    | .ok disk =>
      set { world with disk }
      pure password
    | .error fault =>
      set { world with disk }
      if fault = .alreadyExists then
        match stored? disk world.here path with
        | .ok (some existing) => pure existing
        | .ok none => throw (.notPersisted path .noEntity)
        | .error failure => throw failure
      else throw (.notPersisted path fault)

/-- The password that a term asks for. -/
def ofSpec (context : Context) (spec : Spec) : Action World String := do
  match spec.storage? with
  | none => make spec
  | some written =>
    let world ← get
    let path := context.resolve world.environment written
    match ← Action.ofExcept (stored? world.disk world.here path) with
    | some existing => pure existing
    | none => store path (← make spec)

def one (context : Context) (options : Options) (term : String) : Action World (List Value) := do
  let spec ← Action.ofExcept (Spec.parse context.settings.password options term)
  let password ← ofSpec context spec
  pure [.string password]

def run (context : Context) (options : Options) (terms : List String) :
    Action World (List Value) :=
  Action.collect World.isCancelled (one context options) terms

def card : Card :=
  .builtin "password" "Generates random passwords and stores them for reuse"
    ["credentials/db length=32", "/dev/null length=6 chars=digits",
      "~/.secrets/api chars=ascii_letters,digits,punctuation"]
    [.withDefault "length" "Password length" "int" "20",
      .withDefault "chars" "Character sets or literal characters" "list"
        "ascii_letters,digits,.:-_"]

end LookupEngine.Lookup.Password
