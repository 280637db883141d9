import LookupEngine.Json.Reader
import LookupEngine.Machine.Environment
import LookupEngine.Options
/-!
# Invocations

What the arguments of the program say: a lookup, its terms, and parameters that may stand
anywhere among them.  A parameter's value is the rest of its argument or the next argument,
and is looked at only when the argument after it is read; so of two mistakes the one that is
seen first counts.  After `--` nothing is a parameter.
-/

namespace LookupEngine

/-- Why there is nothing to run. -/
inductive Invocation.Stop where
  | unknownArgument
  | missingArgument
  | invalidValue
  | repeatedArgument
  | unneededValue
  | help
  | version
deriving Repr, DecidableEq

/-- How the values are printed. -/
inductive Layout where
  | json
  | lines
deriving Repr, DecidableEq

structure Invocation where
  plugin : Option String
  terms : List String
  /-- Options and variables as `key=value`. -/
  options : List String
  vars : List String
  workDir : Option String
  config : Option String
  list : Bool
  layout : Layout
  verbosity : Nat
deriving Repr, DecidableEq

namespace Invocation

def empty : Invocation := ⟨none, [], [], [], none, none, false, .json, 0⟩

/-- Parameters that take a value. -/
inductive Param where
  | option
  | variable
  | workDir
  | config
  | output
deriving Repr, DecidableEq

/-- Parameters that stand alone. -/
inductive Switch where
  | list
  | verbose
  | help
  | version
deriving Repr, DecidableEq

def ofLetter? : Char → Option (Param ⊕ Switch)
  | 'o' => some (.inl .option)
  | 'e' => some (.inl .variable)
  | 'w' => some (.inl .workDir)
  | 'c' => some (.inl .config)
  | 'v' => some (.inr .verbose)
  | 'h' => some (.inr .help)
  | 'V' => some (.inr .version)
  | _ => none

def ofWord? : String → Option (Param ⊕ Switch)
  | "option" => some (.inl .option)
  | "extra-vars" => some (.inl .variable)
  | "work-dir" => some (.inl .workDir)
  | "config" => some (.inl .config)
  | "output" => some (.inl .output)
  | "list" => some (.inr .list)
  | "verbose" => some (.inr .verbose)
  | "help" => some (.inr .help)
  | "version" => some (.inr .version)
  | _ => none

/-- The highest level of verbosity. -/
def mostVerbose : Nat := 3

def layout? : String → Option Layout
  | "json" => some .json
  | "lines" => some .lines
  | _ => none

/-- What has been read so far. -/
structure Progress where
  invocation : Invocation
  /-- Whether the layout has been given. -/
  laidOut : Bool
  /-- A parameter with its value, once that is known. -/
  pending : Option (Param × Option String)

namespace Progress

def start : Progress := ⟨empty, false, none⟩

/-- Gives a path to a parameter that has none yet. -/
def path (before : Option String) (value : String) : Except Stop (Option String) :=
  if before.isSome then .error .repeatedArgument
  else if value.isEmpty then .error .invalidValue
  else .ok (some value)

/-- Gives a value to a parameter. -/
def assign (progress : Progress) (param : Param) (value : String) : Except Stop Progress :=
  let invocation := progress.invocation
  match param with
  | .option =>
    .ok { progress with invocation := { invocation with options := invocation.options ++ [value] } }
  | .variable =>
    .ok { progress with
      invocation := { invocation with vars := invocation.vars ++ [value] } }
  | .workDir => (path invocation.workDir value).map fun workDir =>
      { progress with invocation := { invocation with workDir } }
  | .config => (path invocation.config value).map fun config =>
      { progress with invocation := { invocation with config } }
  | .output =>
    if progress.laidOut then .error .repeatedArgument
    else
      match layout? value with
      | none => .error .invalidValue
      | some layout => .ok { progress with invocation := { invocation with layout }, laidOut := true }

/-- Deals with the parameter before. -/
def settle (progress : Progress) : Except Stop Progress :=
  match progress.pending with
  | none => .ok progress
  | some (_, none) => .error .invalidValue
  | some (param, some value) => assign { progress with pending := none } param value

/-- Takes a parameter that has its value in the same argument, or waits for one. -/
def take (progress : Progress) (param : Param) (value : Option String) : Except Stop Progress :=
  match progress.settle with
  | .error stop => .error stop
  | .ok progress =>
    match value with
    | none => .ok { progress with pending := some (param, none) }
    | some value => progress.assign param value

def switch (progress : Progress) (switch : Switch) : Except Stop Progress :=
  match progress.settle with
  | .error stop => .error stop
  | .ok progress =>
    let invocation := progress.invocation
    match switch with
    | .help => .error .help
    | .version => .error .version
    | .verbose =>
      .ok { progress with invocation :=
        { invocation with verbosity := min mostVerbose (invocation.verbosity + 1) } }
    | .list =>
      if invocation.list then .error .repeatedArgument
      else .ok { progress with invocation := { invocation with list := true } }

/-- Takes an argument that is no parameter. -/
def positional (progress : Progress) (value : String) : Except Stop Progress :=
  match progress.settle with
  | .error stop => .error stop
  | .ok progress =>
    let invocation := progress.invocation
    match invocation.plugin with
    | none => .ok { progress with invocation := { invocation with plugin := some value } }
    | some _ =>
      .ok { progress with invocation := { invocation with terms := invocation.terms ++ [value] } }

/-- Reads letters after a hyphen.  What follows the letter of a parameter, perhaps after an
equals sign, is its value. -/
def letters (progress : Progress) : List Char → Except Stop Progress
  | [] => .ok progress
  | c :: rest =>
    match ofLetter? c with
    | none => .error .unknownArgument
    | some (.inr switch) =>
      match progress.switch switch with
      | .error stop => .error stop
      | .ok progress => letters progress rest
    | some (.inl param) =>
      match rest with
      | [] => progress.take param none
      | '=' :: value => progress.take param (some (String.ofList value))
      | value => progress.take param (some (String.ofList value))

/-- Reads a word after two hyphens. -/
def word (progress : Progress) (cs : List Char) : Except Stop Progress :=
  let (name, value) := match Text.splitOnce '=' cs with
    | some (name, value) => (name, some (String.ofList value))
    | none => (cs, none)
  match ofWord? (String.ofList name) with
  | none => .error .unknownArgument
  | some (.inl param) => progress.take param value
  | some (.inr switch) => if value.isSome then .error .unneededValue else progress.switch switch

/-- Reads an argument that does not start with a hyphen. -/
def plain (progress : Progress) (value : String) : Except Stop Progress :=
  match progress.pending with
  | some (param, none) => .ok { progress with pending := some (param, some value) }
  | _ => progress.positional value

/-- Reads one argument before `--`. -/
def argument (progress : Progress) (text : String) : Except Stop Progress :=
  match text.toList with
  | '-' :: '-' :: cs => progress.word cs
  | '-' :: c :: cs => progress.letters (c :: cs)
  | _ => progress.plain text

def positionals (progress : Progress) : List String → Except Stop Progress
  | [] => .ok progress
  | value :: rest =>
    match progress.positional value with
    | .error stop => .error stop
    | .ok progress => positionals progress rest

def arguments (progress : Progress) : List String → Except Stop Progress
  | [] => .ok progress
  | text :: rest =>
    if text = "--" then progress.positionals rest
    else
      match progress.argument text with
      | .error stop => .error stop
      | .ok progress => arguments progress rest

end Progress

/-- The variables that stand in for parameters that are not given. -/
def workDirVariable : String := "RUSTIBLE_LOOKUP_WORK_DIR"
def configVariable : String := "RUSTIBLE_LOOKUP_CONFIG"

/-- The file that some bytes name.  Every name on a disk is text, so bytes that are none lead
nowhere, like the empty path. -/
def filePath (bytes : Bytes) : String := (Utf8.decode? bytes).getD ""

/-- The path of a variable, if no argument has given one.  `read` says which path its bytes are. -/
def orVariable (environment : Environment) (name : String) (read : Bytes → String)
    (given : Option String) : Except Stop (Option String) :=
  match given, environment.bytes? name with
  | some path, _ => .ok (some path)
  | none, none => .ok none
  | none, some bytes => if bytes.isEmpty then .error .invalidValue else .ok (some (read bytes))

/-- Fills in the environment and demands a lookup, unless they are only to be listed. -/
def complete (environment : Environment) (invocation : Invocation) : Except Stop Invocation :=
  -- The directory is put in front of the terms and shown with them, as the text of `home?` is.
  match orVariable environment workDirVariable Utf8.decodeLossy invocation.workDir with
  | .error stop => .error stop
  | .ok workDir =>
    match orVariable environment configVariable filePath invocation.config with
    | .error stop => .error stop
    | .ok config =>
      if invocation.plugin.isNone && !invocation.list then .error .missingArgument
      else .ok { invocation with workDir, config }

/-- Reads the arguments of the program. -/
def parse (environment : Environment) (arguments : List String) : Except Stop Invocation :=
  match Progress.start.arguments arguments with
  | .error stop => .error stop
  | .ok progress =>
    match progress.settle with
    | .error stop => .error stop
    | .ok progress => complete environment progress.invocation

/-- Why an argument is no `key=value`. -/
inductive PairProblem where
  | noEquals (raw : String)
  | emptyKey (raw : String)
deriving Repr, DecidableEq

def PairProblem.message : PairProblem → String
  | noEquals raw => s!"Expected key=value, got '{raw}'"
  | emptyKey raw => s!"Empty key in '{raw}'"

/-- Reads a key and a value.  A value that is no JSON text stands for itself. -/
def pair (raw : String) : Except PairProblem (String × Value) :=
  match Text.splitOnce '=' raw.toList with
  | none => .error (.noEquals raw)
  | some (key, value) =>
    if key.isEmpty then .error (.emptyKey raw)
    else
      let value := String.ofList value
      .ok (String.ofList key, (Json.parse? value).getD (.string value))

/-- Reads pairs; the last of several with one key counts. -/
def pairs (raws : List String) : Except PairProblem (Entries Value) :=
  (raws.mapM pair).map Entries.ofList

def decodedOptions (invocation : Invocation) : Except PairProblem Options :=
  pairs invocation.options

def decodedVariables (invocation : Invocation) : Except PairProblem (Entries Value) :=
  pairs invocation.vars

end Invocation

end LookupEngine
