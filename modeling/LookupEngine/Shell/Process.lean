import LookupEngine.Glob
import LookupEngine.Lookup.Command
import LookupEngine.Shell.Arithmetic
import LookupEngine.Shell.Syntax
/-!
# Shell processes

A shell while it runs: the world it changes, its variables and what it has written.  Expanding
a word gives the fields that a command gets as its arguments.
-/

namespace LookupEngine.Shell

/-- The bytes of a text, each kept as a character. -/
def ofBytes (bytes : Bytes) : List Char := bytes.map fun b => Char.ofNat b.toNat

def toBytes (cs : List Char) : Bytes := cs.map fun c => UInt8.ofNat c.toNat

def ofText (text : String) : List Char := ofBytes (Utf8.encode text)

def toText (cs : List Char) : String := Utf8.decodeLossy (toBytes cs)

/-- Whether a text comes before another, or is the same. -/
def comesBefore : List Char → List Char → Bool
  | [], _ => true
  | _ :: _, [] => false
  | a :: as, b :: bs => a < b || (a = b && comesBefore as bs)

/-- How a process goes on. -/
inductive Flow where
  | onward
  | leaveLoop
  | nextRound
  | exit
  | killed
  | cancelled
deriving Repr, DecidableEq

structure Process where
  world : World
  /-- The variables of the shell itself. -/
  locals : Entries (List Char)
  parameters : List (List Char)
  input : List Char
  /-- What has been written, and whether to the stream of errors. -/
  written : List (Bool × List Char)
  status : Nat
  flow : Flow
  /-- The name under which the shell speaks. -/
  name : String

namespace Process

def say (process : Process) (toErrors : Bool) (cs : List Char) : Process :=
  if cs.isEmpty then process
  else { process with written := process.written ++ [(toErrors, cs)] }

def print (process : Process) (text : String) : Process := process.say false (ofText text)

/-- Reports a mistake. -/
def complain (process : Process) (text : String) : Process :=
  process.say true (ofText s!"{process.name}: 1: {text}\n")

def withStatus (process : Process) (status : Nat) : Process := { process with status }

/-- Whether the process takes further commands. -/
def goesOn (process : Process) : Bool := process.flow = .onward

/-- Ends the shell. -/
def leave (process : Process) (status : Nat) : Process := { process with status, flow := .exit }

def withDisk (process : Process) (disk : Disk) : Process :=
  { process with world := { process.world with disk } }

def withEnvironment (process : Process) (environment : Environment) : Process :=
  { process with world := { process.world with environment } }

/-- What has been written to one of the streams. -/
def stream (process : Process) (errors : Bool) : List Char :=
  process.written.flatMap fun (toErrors, cs) => if toErrors = errors then cs else []

/-- The text of the directory. -/
def directory (process : Process) : String :=
  "/" ++ String.intercalate "/" process.world.here

/-- The value of a variable. -/
def value? (process : Process) (name : List Char) : Option (List Char) :=
  match name with
  | ['?'] => some (Digits.write 10 process.status)
  | ['$'] => some ['4', '2']
  | ['#'] => some (Digits.write 10 process.parameters.length)
  | ['@'] => some (List.intercalate [' '] process.parameters)
  | ['*'] => some (List.intercalate [' '] process.parameters)
  | ['0'] => some (ofText process.name)
  | ['-'] => some []
  | name =>
    let key := toText name
    if name.all Digits.isDecimal && !name.isEmpty then
      process.parameters[Digits.value 10 name - 1]?
    else (process.locals.find? key).or ((process.world.environment.bytes? key).map ofBytes)

/-- Gives a variable a value, also in the environment if it is there. -/
def assign (process : Process) (name : List Char) (value : List Char) : Process :=
  let key := toText name
  let world := process.world
  if (world.environment.bytes? key).isSome then
    process.withEnvironment (world.environment.set key (toBytes value))
  else { process with locals := process.locals.insert key value }

end Process

/-- The characters of a field, and whether each is quoted. -/
abbrev Field := List (Bool × Char)

def Field.plain (field : Field) : List Char := field.map Prod.snd

/-- What runs a command and gives its output. -/
abbrev Substitution := List Char → Process → List Char × Process

/-- Removes line breaks at the end. -/
def dropBreaks (cs : List Char) : List Char := Text.dropEndWhile (· = '\n') cs

/-- What is expanded, and the process after it, or what is wrong. -/
abbrev Expansion (α : Type) := Except String (α × Process)

/-- The characters of a part, and whether they are quoted. -/
def expandPart (substitution : Substitution) (process : Process) (part : Part) :
    Expansion (Bool × List Char) :=
  match part with
  | .text quoted cs => .ok ((quoted, cs), process)
  | .length quoted name =>
    .ok ((quoted, Digits.write 10 ((process.value? name).getD []).length), process)
  | .variable quoted name orEmpty fallback =>
    let value := process.value? name
    let value := if orEmpty then value.filter (!·.isEmpty) else value
    .ok ((quoted, (value.or fallback).getD []), process)
  | .arithmetic quoted cs =>
    let values (name : List Char) := Arithmetic.ofText ((process.value? name).getD [])
    match Arithmetic.eval values cs with
    | .ok n => .ok ((quoted, Integer.writeChars n), process)
    | .error problem => .error (problem.message (toText cs))
  | .output quoted command =>
    let (cs, process) := substitution command process
    .ok ((quoted, dropBreaks cs), process)

/-- Whether a part stands for something that is cut at blanks. -/
def isExpansion : Part → Bool
  | .text _ _ => false
  | _ => true

def isFieldBlank (c : Char) : Bool := c = ' ' || c = '\t' || c = '\n'

/-- Adds expanded characters to the field that is being read.  `open_` tells whether there is
such a field. -/
def cutInto (done : List Field) (field : Field) (open_ : Bool) :
    List Char → List Field × Field × Bool
  | [] => (done, field, open_)
  | c :: rest =>
    if isFieldBlank c then
      if open_ then cutInto (done ++ [field]) [] false rest else cutInto done [] false rest
    else cutInto done (field ++ [(false, c)]) true rest

/-- The fields of a word. -/
def fieldsFrom (substitution : Substitution) :
    Word → List Field → Field → Bool → Process → Expansion (List Field)
  | [], done, field, open_, process => .ok (if open_ then done ++ [field] else done, process)
  | part :: rest, done, field, open_, process =>
    match expandPart substitution process part with
    | .error problem => .error problem
    | .ok ((quoted, cs), process) =>
      if isExpansion part && !quoted then
        let (done, field, open_) := cutInto done field open_ cs
        fieldsFrom substitution rest done field open_ process
      else fieldsFrom substitution rest done (field ++ cs.map fun c => (quoted, c)) true process

/-- The text of a word that is not cut into fields. -/
def textOf (substitution : Substitution) : Word → Process → Expansion (List Char)
  | [], process => .ok ([], process)
  | part :: rest, process =>
    match expandPart substitution process part with
    | .error problem => .error problem
    | .ok ((_, cs), process) =>
      (textOf substitution rest process).map fun (others, process) => (cs ++ others, process)

/-- A path that a pattern has found, starting at `.` only if the pattern does. -/
def showMatch (pattern path : List Char) : List Char :=
  let bare := if ['.', '/'].isPrefixOf path then path.drop 2 else path
  if ['.', '/'].isPrefixOf pattern then '.' :: '/' :: bare else bare

/-- The names that a field with wildcards stands for in order, or the field itself. -/
def matchNames (process : Process) (field : Field) : List (List Char) :=
  let wild := field.any fun (quoted, c) => !quoted && ['*', '?', '['].contains c
  if !wild then [field.plain]
  else
    let pattern := field.flatMap fun (quoted, c) =>
      if quoted && ['*', '?', '['].contains c then ['[', c, ']'] else [c]
    match Glob.paths ⟨process.world.disk, process.world.here⟩ (toText pattern) with
    | .error _ => [field.plain]
    | .ok found =>
      let lastName := (pattern.reverse.takeWhile (· ≠ '/')).reverse
      let shown := found.filter fun path =>
        lastName.head? = some '.' ||
          ((path.toList.reverse.takeWhile (· ≠ '/')).reverse.head? ≠ some '.')
      if shown.isEmpty then [field.plain]
      else (shown.map fun path => showMatch pattern (ofText path)).mergeSort comesBefore

/-- A tilde in front of a word stands for the home directory. -/
def expandTilde (process : Process) (word : Word) : Word :=
  match word with
  | .text false ['~'] :: rest =>
    let stands := match rest with
      | [] => true
      | .text false ['/'] :: _ => true
      | _ => false
    if stands then .text true ((process.value? "HOME".toList).getD ['~']) :: rest else word
  | word => word

/-- The arguments that words stand for. -/
def arguments (substitution : Substitution) :
    List Word → Process → Expansion (List (List Char))
  | [], process => .ok ([], process)
  | word :: rest, process =>
    match fieldsFrom substitution (expandTilde process word) [] [] false process with
    | .error problem => .error problem
    | .ok (fields, process) =>
      (arguments substitution rest process).map fun (others, process) =>
        (fields.flatMap (matchNames process) ++ others, process)

end LookupEngine.Shell
