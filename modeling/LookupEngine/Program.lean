import LookupEngine.Invocation
import LookupEngine.Lookup.Builtin
import LookupEngine.Settings.Load
/-!
# The program

One run of the program: it reads its arguments, loads the settings, runs one lookup and prints
the values.  A lookup that fails is reported with its causes.  Settings that cannot be loaded
are no reason to stop; the defaults take their place.
-/

namespace LookupEngine.Program

/-- What the caller of the program sees. -/
structure Report where
  exit : Nat
  stdout : String
  stderr : String
deriving Repr, DecidableEq

def failureExit : Nat := 1

/-- The exit of a program that cannot read its arguments. -/
def usageExit : Nat := 2

/-- The line that names the program. -/
def banner : String := s!"{programName} v{programVersion} by {programAuthors}\n"

def versionText : String := s!"{programName} {programVersion}\n"

/-- A text filled up with blanks on its right. -/
def padded (width : Nat) (text : String) : String :=
  text ++ String.ofList (List.replicate (width - text.length) ' ')

/-- The names of all lookups with what they do. -/
def listing (registry : Registry) : String :=
  String.join (registry.describe.map fun card => s!"{padded 12 card.name} {card.description}\n")

/-- The values as an array, or one on each line. -/
def shown (layout : Layout) (values : List Value) : String :=
  match layout with
  | .json => Json.printLayout (.array values) ++ "\n"
  | .lines => String.join (values.map fun v => v.toText ++ "\n")

/-- A text whose further lines are indented. -/
def indented (margin : String) (text : String) : String :=
  String.intercalate ("\n" ++ margin) ((Text.splitAny (· = '\n') text.toList).map String.ofList)

/-- The causes of a failure, numbered if there are several. -/
def causesText : List String → String
  | [] => ""
  | [cause] => "\n\nCaused by:\n    " ++ indented "    " cause
  | causes =>
    "\n\nCaused by:" ++ String.join (causes.zipIdx.map fun (cause, i) =>
      let number := Integer.write i
      "\n" ++ String.ofList (List.replicate (5 - number.length) ' ') ++ number ++ ": " ++
        indented "       " cause)

/-- A complaint with its causes. -/
def complaint (text : String) (causes : List String) : String :=
  "Error: " ++ text ++ causesText causes ++ "\n"

/-- What is printed when a lookup fails. -/
def failureText (plugin : String) (failure : Failure) : String :=
  complaint s!"Lookup '{plugin}' failed" (failure.message :: failure.causes)

/-- The settings that a lookup is run with. -/
def settings (world : World) (config : Option String) : Settings :=
  match Settings.load world.disk world.here world.environment config with
  | .ok settings => settings
  | .error _ => .default

/-- The request of an invocation.  Its variables are read before its options. -/
def request (invocation : Invocation) : Except Invocation.PairProblem Request :=
  match invocation.decodedVariables with
  | .error problem => .error problem
  | .ok vars =>
    match invocation.decodedOptions with
    | .error problem => .error problem
    | .ok options => .ok ⟨invocation.terms, vars, options⟩

/-- Runs the lookup of an invocation with some settings. -/
def runLookup (settings : Settings) (invocation : Invocation) (world : World) : Report × World :=
  let greeting := if invocation.verbosity ≥ 2 then banner else ""
  let context : Context := ⟨settings, invocation.workDir⟩
  let plugin := invocation.plugin.getD ""
  match request invocation with
  | .error problem =>
    (⟨failureExit, "", greeting ++ complaint problem.message []⟩, world)
  | .ok request =>
    match Registry.builtin.run plugin context request world with
    | (.ok values, world) => (⟨0, shown invocation.layout values, greeting⟩, world)
    | (.error failure, world) =>
      (⟨failureExit, "", greeting ++ failureText plugin failure⟩, world)

/-- What a stop while reading the arguments comes to. -/
def stopped : Invocation.Stop → Report
  | .version => ⟨0, versionText, ""⟩
  | .help => ⟨0, "", ""⟩
  | _ => ⟨usageExit, "", ""⟩

/-- Runs the program. -/
def run (arguments : List String) (world : World) : Report × World :=
  match Invocation.parse world.environment arguments with
  | .error stop => (stopped stop, world)
  | .ok invocation =>
    if invocation.list then
      let greeting := if invocation.verbosity ≥ 2 then banner else ""
      (⟨0, listing .builtin, greeting⟩, world)
    else runLookup (settings world invocation.config) invocation world

end LookupEngine.Program
