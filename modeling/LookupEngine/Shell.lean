import LookupEngine.Shell.Execution
/-!
# Shells

The runner of commands that hands each command to a program of the disk, which the settings
name.  Shells understand the command; of other programs the command is merely an argument.
-/

namespace LookupEngine.Shell

open Lookup.Command

/-- The directory in which a command is run. -/
def directoryFor (world : World) (path : Option String) : Except Fault Location :=
  match path with
  | none => .ok world.here
  | some path =>
    match world.disk.status world.here path with
    | .error fault => .error fault
    | .ok (location, .directory _) => .ok location
    | .ok _ => .error .notDirectory

/-- The program at which a name leads, seen from a directory. -/
def programFor (world : World) (here : Location) (name : String) : Except Fault String :=
  match search world.disk here world.environment name with
  | .found path .program => .ok path
  | .found _ _ => .error .wrongFormat
  | .forbidden _ => .error .denied
  | .failed fault => .error fault

/-- A process that has not done anything yet. -/
def start (world : World) (here : Location) (name : String) : Process where
  world := { world with here }
  locals := []
  parameters := []
  input := []
  written := []
  status := 0
  flow := .onward
  name := name

/-- What is left of a finished process.  The process had an environment and a directory of
its own. -/
def finish (world : World) (process : Process) : World :=
  { process.world with environment := world.environment, here := world.here }

/-- The exit of a process; one that was killed has none of its own. -/
def exitCode (process : Process) : Int := if process.flow = .killed then -1 else process.status

def output (process : Process) : Output :=
  ⟨exitCode process, toText (process.stream false), toText (process.stream true)⟩

/-- Whether a process never came to its end. -/
def isCutShort (process : Process) : Bool := process.flow = .cancelled

/-- Hands a command to the program of a name. -/
def call (world : World) (name : String) (directory : Option String) (command : String) :
    Except Fault Process :=
  if command.contains (Char.ofNat 0) || name.contains (Char.ofNat 0) ||
      (directory.getD "").contains (Char.ofNat 0) then .error .nulInArgument
  else
    match directoryFor world directory with
    | .error fault => .error fault
    | .ok here =>
      match programFor world here name with
      | .error fault => .error fault
      | .ok path =>
        .ok (launch mostSteps path [['-', 'c'], ofText command] (start world here name))

/-- Runs commands with the program of a name. -/
def runner (name : String) : Runner World := fun command directory => do
  let world ← get
  match call world name directory command with
  | .error fault => throw (.sourceUnavailable command (.fault fault))
  | .ok process =>
    set (finish world process)
    if isCutShort process then throw .cancelled
    pure (output process)

end LookupEngine.Shell
