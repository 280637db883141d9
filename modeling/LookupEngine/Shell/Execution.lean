import LookupEngine.Shell.Builtin
import LookupEngine.Shell.Misreading
import LookupEngine.Shell.Utility
/-!
# Running shell commands

A command turns a process into a later one.  Parts that run in a shell of their own keep what
they write and what they do to the disk, and nothing else.  A shell takes a bounded number of
steps; only a command that never ends needs more.
-/

namespace LookupEngine.Shell

/-- Where a stream goes. -/
inductive Sink where
  | stream (errors : Bool)
  | file (path : String)
deriving Repr, DecidableEq

/-- Where the two streams of a command go. -/
structure Sinks where
  output : Sink
  errors : Sink
deriving Repr, DecidableEq

def Sinks.plain : Sinks := ⟨.stream false, .stream true⟩

def Sinks.get? (sinks : Sinks) : Nat → Option Sink
  | 1 => some sinks.output
  | 2 => some sinks.errors
  | _ => none

def Sinks.set (sinks : Sinks) (stream : Nat) (sink : Sink) : Sinks :=
  match stream with
  | 1 => { sinks with output := sink }
  | 2 => { sinks with errors := sink }
  | _ => sinks

/-- Writes to where a stream goes. -/
def Sink.write (sink : Sink) (cs : List Char) (process : Process) : Process :=
  match sink with
  | .stream errors => process.say errors cs
  | .file path =>
    let world := process.world
    let before := (world.disk.readBytes world.here path).toOption.getD []
    match world.disk.writeFile world.here path (before ++ toBytes cs) with
    | .ok disk => process.withDisk disk
    | .error _ => process

/-- Why a file cannot be written or read. -/
def openProblem (writes : Bool) (path : String) (fault : Fault) : String :=
  let reason := match fault with
    | .missing | .notDirectory => if writes then "Directory nonexistent" else "No such file"
    | fault => fault.description
  if writes then s!"cannot create {path}: {reason}" else s!"cannot open {path}: {reason}"

/-- The sink of a file, which is made if it is missing. -/
def openFile (append : Bool) (path : String) (process : Process) :
    Except String (Sink × Process) :=
  let world := process.world
  if path = "/dev/stdout" then .ok (.stream false, process)
  else if path = "/dev/stderr" then .ok (.stream true, process)
  else
    let content := if append then (world.disk.readBytes world.here path).toOption.getD [] else []
    match world.disk.writeFile world.here path content with
    | .ok disk => .ok (.file (Path.join process.directory path), process.withDisk disk)
    | .error fault => .error (openProblem true path fault)

/-- Opens what a redirection names. -/
def redirectOne (substitution : Substitution) (redirect : Redirect) (sinks : Sinks)
    (process : Process) : Except String (Sinks × Process) :=
  let write (append : Bool) (path : Word) : Except String (Sinks × Process) := do
    let (cs, process) ← textOf substitution (expandTilde process path) process
    let (sink, process) ← openFile append (toText cs) process
    .ok (sinks.set redirect.stream sink, process)
  match redirect.target with
  | .same stream =>
    match sinks.get? stream with
    | some sink => .ok (sinks.set redirect.stream sink, process)
    | none => .ok (sinks, process)
  | .write path => write false path
  | .append path => write true path
  | .read path => do
    let (cs, process) ← textOf substitution (expandTilde process path) process
    let path := toText cs
    match process.world.disk.readBytes process.world.here path with
    | .ok bytes => .ok (sinks, { process with input := ofBytes bytes })
    | .error .isDirectory => .ok (sinks, { process with input := [] })
    | .error fault => .error (openProblem false path fault)

def redirectAll (substitution : Substitution) :
    List Redirect → Sinks → Process → Except String (Sinks × Process)
  | [], sinks, process => .ok (sinks, process)
  | redirect :: rest, sinks, process => do
    let (sinks, process) ← redirectOne substitution redirect sinks process
    redirectAll substitution rest sinks process

/-- Runs something whose streams are redirected. -/
def redirected (substitution : Substitution) (redirects : List Redirect)
    (run : Process → Process) (process : Process) : Process :=
  if redirects.isEmpty then run process
  else
    match redirectAll substitution redirects .plain process with
    | .error problem => (process.complain problem).withStatus 2
    | .ok (sinks, opened) =>
      let after := run { opened with written := [] }
      let pieces := after.written
      let input := if redirects.any (·.stream = 0) then process.input else after.input
      pieces.foldl
        (fun process (errors, cs) => (if errors then sinks.errors else sinks.output).write cs process)
        { after with written := opened.written, input }

/-- Runs something in a shell of its own. -/
def isolated (run : Process → Process) (process : Process) : Process :=
  let after := run process
  { after with
    locals := process.locals
    world := { after.world with
      here := process.world.here
      environment := process.world.environment }
    flow := match after.flow with
      | .killed => .killed
      | .cancelled => .cancelled
      | _ => .onward }

/-- Runs something in a fresh shell. -/
def inAnotherShell (name : String) (parameters : List (List Char)) (run : Process → Process)
    (process : Process) : Process :=
  let after := isolated run { process with name, parameters, locals := [], status := 0 }
  { after with
    name := process.name
    parameters := process.parameters
    locals := process.locals }

/-- Gives values to variables in order. -/
def assignAll (substitution : Substitution) (give : Process → List Char → List Char → Process) :
    List (List Char × Word) → Process → Except String Process
  | [], process => .ok process
  | (name, word) :: rest, process => do
    let (value, process) ← textOf substitution (expandTilde process word) process
    assignAll substitution give rest (give process name value)

/-- Puts a variable into the environment. -/
def giveToEnvironment (process : Process) (name value : List Char) : Process :=
  process.withEnvironment (process.world.environment.set (toText name) (toBytes value))

/-- The directories in which programs are looked for. -/
def searchPath (environment : Environment) : List String :=
  match environment.bytes? "PATH" with
  | some bytes => (Text.splitAny (· = ':') (ofBytes bytes)).map toText
  | none => ["/usr/local/sbin", "/usr/local/bin", "/usr/sbin", "/usr/bin", "/sbin", "/bin"]

/-- What comes of looking for a program. -/
inductive Search where
  | found (path : String) (entry : Entry)
  | forbidden (path : String)
  | failed (fault : Fault)
deriving Repr, DecidableEq

/-- Whether what is at a path may be run. -/
def attempt (disk : Disk) (here : Location) (path : String) : Search :=
  match disk.status here path with
  | .error fault => .failed fault
  | .ok (_, .program) => .found path .program
  | .ok (_, .file content mode) =>
    if mode &&& 0o111 = 0 then .forbidden path else .found path (.file content mode)
  | .ok _ => .forbidden path

/-- Looks in one directory after the other; what may not be run is passed over, but not
forgotten. -/
def searchIn (disk : Disk) (here : Location) (name : String) (fallback : Search) :
    List String → Search
  | [] => fallback
  | dir :: rest =>
    match attempt disk here (Path.join (if dir.isEmpty then "." else dir) name) with
    | .found path entry => .found path entry
    | .forbidden path => searchIn disk here name (.forbidden path) rest
    | .failed _ => searchIn disk here name fallback rest

/-- Looks for a program.  A name with a slash is a path of its own. -/
def search (disk : Disk) (here : Location) (environment : Environment) (name : String) :
    Search :=
  if name.contains '/' then attempt disk here name
  else if name.isEmpty then .failed .missing
  else searchIn disk here name (.failed .missing) (searchPath environment)

/-- The names of the programs that are shells. -/
def isShell (name : String) : Bool := ["sh", "dash", "bash"].contains name

mutual

/-- Runs a command. -/
def execute : Nat → Command → Process → Process
  | 0, _, process => { process with flow := .exit, status := 2 }
  | steps + 1, command, process =>
    if !process.goesOn then process
    else
      match command with
      | .nothing => process
      | .simple assignments words redirects =>
        executeSimple steps assignments words redirects process
      | .compound body alone redirects =>
        redirected (substitute steps) redirects
          (fun process =>
            if alone then isolated (execute steps body) process else execute steps body process)
          process
      | .pipe left right =>
        let first := isolated (execute steps left) { process with written := [] }
        let later := isolated (execute steps right)
          { first with
            input := first.stream false
            written := process.written ++ first.written.filter Prod.fst }
        { later with input := process.input }
      | .both left right =>
        let process := execute steps left process
        if process.status = 0 then execute steps right process else process
      | .either left right =>
        let process := execute steps left process
        if process.status = 0 then process else execute steps right process
      | .sequence left right => execute steps right (execute steps left process)
      | .negation body =>
        let process := execute steps body process
        if process.goesOn then process.withStatus (if process.status = 0 then 1 else 0)
        else process
      | .condition test yes no =>
        let process := execute steps test process
        if !process.goesOn then process
        else if process.status = 0 then execute steps yes (process.withStatus 0)
        else execute steps no (process.withStatus 0)
      | .loop until_ test body => rounds steps until_ test body 0 process
      | .each name words body =>
        match arguments (substitute steps) words process with
        | .error problem => (process.complain problem).leave 2
        | .ok (values, process) => visits steps name values body (process.withStatus 0)

/-- Runs the rounds of a loop. -/
def rounds : Nat → Bool → Command → Command → Nat → Process → Process
  | 0, _, _, _, _, process => { process with flow := .exit, status := 2 }
  | steps + 1, until_, test, body, status, process =>
    let process := execute steps test process
    if !process.goesOn then process
    else if (process.status = 0) = until_ then process.withStatus status
    else
      let process := execute steps body process
      match process.flow with
      | .onward => rounds steps until_ test body process.status process
      | .nextRound => rounds steps until_ test body 0 { process with flow := .onward }
      | .leaveLoop => { process with flow := .onward }
      | _ => process

/-- Runs a body for each value of a variable. -/
def visits : Nat → List Char → List (List Char) → Command → Process → Process
  | 0, _, _, _, process => { process with flow := .exit, status := 2 }
  | _, _, [], _, process => process
  | steps + 1, name, value :: rest, body, process =>
    let process := execute steps body (process.assign name value)
    match process.flow with
    | .onward => visits steps name rest body process
    | .nextRound => visits steps name rest body { process with flow := .onward }
    | .leaveLoop => { process with flow := .onward }
    | _ => process

/-- Runs the command that words make.  Without words the assignments are for the shell, else
for the command alone. -/
def executeSimple : Nat → List (List Char × Word) → List Word → List Redirect → Process → Process
  | 0, _, _, _, process => { process with flow := .exit, status := 2 }
  | steps + 1, assignments, words, redirects, process =>
    let substitution := substitute steps
    match arguments substitution words process with
    | .error problem => (process.complain problem).leave 2
    | .ok ([], after) =>
      let substitutes := assignments.any fun (_, word) => word.any fun
        | .output .. => true
        | _ => false
      match assignAll substitution Process.assign assignments after with
      | .error problem => (process.complain problem).leave 2
      | .ok after =>
        let after := if substitutes || !words.isEmpty then after else after.withStatus 0
        redirected substitution redirects id after
    | .ok (name :: values, after) =>
      if !after.goesOn then after
      else
        match assignAll substitution giveToEnvironment assignments after with
        | .error problem => (process.complain problem).leave 2
        | .ok given =>
          let done := redirected substitution redirects
            (invoke steps (toText name) values) given
          if assignments.isEmpty then done else done.withEnvironment after.world.environment

/-- Runs a builtin, a shell or a program by its name. -/
def invoke : Nat → String → List (List Char) → Process → Process
  | 0, _, _, process => { process with flow := .exit, status := 2 }
  | steps + 1, name, values, process =>
    match name, values with
    | "eval", words => interpret steps (Builtin.words words) process
    | "exec", [] => process.withStatus 0
    | "exec", program :: values =>
      let process := invoke steps (toText program) values process
      if process.goesOn then process.leave process.status else process
    | "command", ['-', 'v'] :: program :: _ =>
      let world := process.world
      let program := toText program
      if (Builtin.run? program).isSome then (process.print (program ++ "\n")).withStatus 0
      else
        match search world.disk world.here world.environment program with
        | .found path _ => (process.print (path ++ "\n")).withStatus 0
        | _ => process.withStatus 127
    | "command", program :: values => invoke steps (toText program) values process
    | name, values =>
      match Builtin.run? name with
      | some builtin => builtin values process
      | none => launch steps name values process

/-- Runs a program of the disk. -/
def launch : Nat → String → List (List Char) → Process → Process
  | 0, _, _, process => { process with flow := .exit, status := 2 }
  | steps + 1, name, values, process =>
    let world := process.world
    match search world.disk world.here world.environment name with
    | .failed _ => (process.complain s!"{name}: not found").withStatus 127
    | .forbidden _ => (process.complain s!"{name}: Permission denied").withStatus 126
    | .found _ (.file content _) =>
      inAnotherShell name values (interpret steps (ofBytes content)) process
    | .found path _ =>
      let plain := (Path.fileName? path).getD path
      if isShell plain then
        match values with
        | ['-', 'c'] :: command :: others =>
          inAnotherShell ((others.head?.map toText).getD name) others.tail
            (interpret steps command) process
        | _ => inAnotherShell name [] (interpret steps process.input) process
      else
        match plain, values with
        | "echo", values => Builtin.echo values process
        | "printf", values => Builtin.printf values process
        | "pwd", values => (Builtin.run? "pwd").elim process fun run => run values process
        | "test", values => Builtin.test "test" values process
        | "env", values => withVariables steps values process
        | plain, values =>
          match Utility.run? plain with
          | some utility => utility values process
          | none => (process.complain s!"{name}: not found").withStatus 127

/-- Runs a program with some variables more, or shows them all. -/
def withVariables : Nat → List (List Char) → Process → Process
  | 0, _, process => { process with flow := .exit, status := 2 }
  | _, [], process => Utility.printVariables [] process
  | steps + 1, value :: rest, process =>
    match Builtin.assignment value with
    | (name, some value) =>
      let after := withVariables steps rest (giveToEnvironment process name value)
      after.withEnvironment process.world.environment
    | (name, none) => launch steps (toText name) rest process

/-- Reads commands and runs them. -/
def interpret : Nat → List Char → Process → Process
  | 0, _, process => { process with flow := .exit, status := 2 }
  | steps + 1, cs, process =>
    match parse? cs with
    | none => (process.complain (Misreading.of cs).message).leave 2
    | some command => execute steps command process

/-- What commands write to their output, run in a shell of their own. -/
def substitute : Nat → Substitution
  | 0, _, process => ([], { process with flow := .exit, status := 2 })
  | steps + 1, cs, process =>
    let after := isolated (interpret steps cs) { process with written := [], status := 0 }
    (after.stream false,
      { after with
        input := process.input
        written := process.written ++ after.written.filter Prod.fst })

end

/-- The most steps that a shell takes. -/
def mostSteps : Nat := 1000000

end LookupEngine.Shell
