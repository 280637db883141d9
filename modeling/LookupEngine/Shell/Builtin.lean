import LookupEngine.Shell.Condition
import LookupEngine.Shell.Format
/-!
# Builtins of a shell

The commands that a shell runs itself.
-/

namespace LookupEngine.Shell.Builtin

def words (cs : List (List Char)) : List Char := List.intercalate [' '] cs

def echo (arguments : List (List Char)) (process : Process) : Process :=
  let (arguments, ending) := match arguments with
    | ['-', 'n'] :: rest => (rest, [])
    | all => (all, ['\n'])
  let (text, goesOn) := Format.unescape (words arguments)
  (process.say false (if goesOn then text ++ ending else text)).withStatus 0

def printf (arguments : List (List Char)) (process : Process) : Process :=
  let arguments := if arguments.head? = some ['-', '-'] then arguments.tail else arguments
  match arguments with
  | [] => (process.complain "printf: usage: printf format [arg ...]").withStatus 2
  | format :: arguments =>
    let filled := Format.fill toText format arguments
    let process := process.say false filled.text
    let process := filled.complaints.foldl
      (fun process complaint => process.complain s!"printf: {complaint}") process
    process.withStatus (if filled.complaints.isEmpty then 0 else 1)

/-- The status that a number stands for. -/
def status? (cs : List Char) : Option Nat := (Digits.read? 10 cs).map (· % 256)

def exit (arguments : List (List Char)) (process : Process) : Process :=
  match arguments with
  | [] => process.leave process.status
  | code :: _ =>
    match status? code with
    | some status => process.leave status
    | none => (process.complain s!"exit: Illegal number: {toText code}").leave 2

def changeDirectory (arguments : List (List Char)) (process : Process) : Process :=
  let arguments := arguments.filter fun argument => argument ≠ ['-', 'P'] && argument ≠ ['-', 'L']
  let target := match arguments with
    | [] => (process.value? "HOME".toList).getD []
    | ['-'] :: _ => (process.value? "OLDPWD".toList).getD []
    | path :: _ => path
  let before := ofText process.directory
  match process.world.disk.status process.world.here (toText target) with
  | .ok (location, .directory _) =>
    let process := { process with world := { process.world with here := location } }
    let process := process.assign "OLDPWD".toList before
    let process := process.assign "PWD".toList (ofText process.directory)
    let shown := if arguments.head? = some ['-'] then target ++ ['\n'] else []
    (process.say false shown).withStatus 0
  | _ =>
    if target.isEmpty then process.withStatus 0
    else (process.complain s!"cd: can't cd to {toText target}").withStatus 2

/-- The name and the value of an argument that assigns. -/
def assignment (argument : List Char) : List Char × Option (List Char) :=
  match Text.splitOnce '=' argument with
  | some (name, value) => (name, some value)
  | none => (argument, none)

/-- Moves a variable into the environment. -/
def exportOne (process : Process) (argument : List Char) : Process :=
  let (name, value) := assignment argument
  match value.or (process.value? name) with
  | none => process
  | some value =>
    let process := { process with locals := process.locals.erase (toText name) }
    process.withEnvironment (process.world.environment.set (toText name) (toBytes value))

def forget (process : Process) (name : List Char) : Process :=
  let process := { process with locals := process.locals.erase (toText name) }
  process.withEnvironment (process.world.environment.unset (toText name))

def test (name : String) (arguments : List (List Char)) (process : Process) : Process :=
  match Condition.holds process arguments with
  | .ok true => process.withStatus 0
  | .ok false => process.withStatus 1
  | .error problem => (process.complain s!"{name}: {problem}").withStatus 2

def bracket (arguments : List (List Char)) (process : Process) : Process :=
  if arguments.getLast? = some [']'] then test "[" arguments.dropLast process
  else (process.complain "[: missing ]").withStatus 2

/-- The signal of an option; without one a process is asked to end. -/
def signal (arguments : List (List Char)) : List Char × List (List Char) :=
  match arguments with
  | ['-', 's'] :: name :: rest => (name, rest)
  | ('-' :: name) :: rest => (name, rest)
  | rest => (['1', '5'], rest)

/-- Signals may only reach the shell itself. -/
def kill (arguments : List (List Char)) (process : Process) : Process :=
  let (name, targets) := signal arguments
  if process.value? ['$'] = targets.head? && targets.length = 1 then
    if name = ['0'] then process.withStatus 0 else { process with flow := .killed }
  else (process.complain "kill: No such process").withStatus 1

/-- Reads one line into variables; the last takes what is left. -/
def readInto (names : List (List Char)) (line : List Char) (process : Process) : Process :=
  match names with
  | [] => process
  | [name] => process.assign name (Text.dropEndWhile isBlank (line.dropWhile isBlank))
  | name :: rest =>
    let line := line.dropWhile isBlank
    readInto rest (line.dropWhile fun c => !isBlank c)
      (process.assign name (line.takeWhile fun c => !isBlank c))

def read (arguments : List (List Char)) (process : Process) : Process :=
  let names := arguments.filter (· ≠ ['-', 'r'])
  match Text.splitOnce '\n' process.input with
  | some (line, rest) => (readInto names line { process with input := rest }).withStatus 0
  | none => (readInto names process.input { process with input := [] }).withStatus 1

/-- What a builtin does. -/
def run? (name : String) : Option (List (List Char) → Process → Process) :=
  match name with
  | ":" => some fun _ process => process.withStatus 0
  | "true" => some fun _ process => process.withStatus 0
  | "false" => some fun _ process => process.withStatus 1
  | "set" => some fun _ process => process.withStatus 0
  | "umask" => some fun _ process => process.withStatus 0
  | "wait" => some fun _ process => process.withStatus 0
  | "trap" => some fun _ process => process.withStatus 0
  | "echo" => some echo
  | "printf" => some printf
  | "exit" => some exit
  | "return" => some exit
  | "cd" => some changeDirectory
  | "pwd" => some fun _ process => (process.print (process.directory ++ "\n")).withStatus 0
  | "export" => some fun arguments process => (arguments.foldl exportOne process).withStatus 0
  | "unset" => some fun arguments process => (arguments.foldl forget process).withStatus 0
  | "test" => some (test "test")
  | "[" => some bracket
  | "kill" => some kill
  | "read" => some read
  | "break" => some fun _ process => { process with status := 0, flow := .leaveLoop }
  | "continue" => some fun _ process => { process with status := 0, flow := .nextRound }
  | _ => none

end LookupEngine.Shell.Builtin
