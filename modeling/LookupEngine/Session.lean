import LookupEngine.Lookup.Sample
import LookupEngine.Program
/-!
# Sessions

A caller that goes on for a while: it registers and runs lookups, keeps instances, cancels,
changes its settings and the machine around it.  Every step turns a session into another one
and gives an answer, so what a caller sees is a function of its steps.
-/

namespace LookupEngine

structure Session where
  registry : Registry
  context : Context
  world : World
  /-- The instances that the caller has kept, under labels of its own. -/
  instances : Entries Instance

namespace Session

/-- What is put at a path. -/
inductive Content where
  | file (bytes : Bytes)
  | directory
  | link (target : String)
deriving Repr, DecidableEq

inductive Step where
  | run (name : String) (request : Request) (cancelAfter : Option Nat)
  | lookup (name : String) (terms : List String)
  | register (name : String) (plugin : Plugin)
  | tryRegister (name : String) (plugin : Plugin)
  | unregister (name : String)
  | contains (name : String)
  | size
  | list
  | describe
  | debug
  | get (name : String)
  | keep (name label : String)
  | runKept (label : String) (request : Request)
  | cancel
  | renew
  | setWorkDir (path : Option String)
  | setSettings (settings : Settings)
  | settingsFromFile (path : String)
  | loadSettings (path : Option String)
  | overrideSettings
  | resolve (path : String)
  | setVariable (name : String) (value : Option Bytes)
  | put (path : String) (content : Content)
  | remove (path : String)
  | read (path : String)
  | mode (path : String)
  | names (path : String)
  | received
  | program (arguments : List String)

inductive Answer where
  | done (result : Except Failure Unit)
  | values (result : Except Failure (List Value))
  | flag (b : Bool)
  | size (n : Nat)
  | texts (texts : List String)
  | text (text : String)
  | cards (cards : List Card)
  | card (result : Except Failure Card)
  | unknownLabel
  | path (path : Option String)
  | settings (result : Except LoadProblem (Settings × Option String))
  | resolved (expanded resolved : String)
  | content (bytes : Option Bytes)
  | mode (bits : Option Nat)
  | names (names : Option (List String))
  | received (requests : List Http.Received)
  | report (report : Program.Report)

/-- The answer that a step has no other answer than. -/
def Answer.ok : Answer := .done (.ok ())

/-- Makes the directories that a path is in, as far as they are missing. -/
def makeParents (disk : Disk) (here : Location) (path : String) : Disk :=
  match Path.parent? path with
  | none => disk
  | some dir => (disk.makeDirectories here Disk.plainDirectory dir).2

/-- Puts something at a path. -/
def putContent (disk : Disk) (here : Location) (path : String) (content : Content) : Disk :=
  let disk := makeParents disk here path
  match content with
  | .file bytes => (disk.writeFile here path bytes).toOption.getD disk
  | .directory => (disk.makeDirectories here Disk.plainDirectory path).2
  | .link target =>
    (((disk.remove here path).toOption.getD disk).makeLink here path target).toOption.getD disk

/-- Applies a change of the settings that may fail. -/
def adopt (session : Session) (result : Except LoadProblem Settings) : Answer × Session :=
  match result with
  | .error problem => (.settings (.error problem), session)
  | .ok settings =>
    (.settings (.ok (settings, settings.home? session.world.environment)),
      { session with context := { session.context with settings } })

/-- Runs a lookup through the registry. -/
def runLookup (session : Session) (name : String) (request : Request) (world : World) :
    Answer × Session :=
  let (result, world) := session.registry.run name session.context request world
  (.values result, { session with world })

/-- Runs an instance that the caller has kept. -/
def runInstance (session : Session) (label : String) (request : Request) : Answer × Session :=
  match session.instances.find? label with
  | none => (.unknownLabel, session)
  | some inst =>
    let (result, inst, world) := inst.run session.context request session.world
    (.values result, { session with world, instances := session.instances.insert label inst })

/-- Runs the program as a process of its own, which nobody cancels. -/
def runProgram (session : Session) (arguments : List String) : Answer × Session :=
  let (report, world) := Program.run arguments session.world.renewPatience
  (.report report, { session with world := { world with cancelledAt := session.world.cancelledAt } })

/-- The steps that concern the registry. -/
def registryStep (session : Session) : Step → Answer × Session
  | .register name plugin =>
    (.ok, { session with registry := session.registry.register name plugin })
  | .tryRegister name plugin =>
    match session.registry.tryRegister name plugin with
    | .error failure => (.done (.error failure), session)
    | .ok registry => (.ok, { session with registry })
  | .unregister name =>
    let (found, registry) := session.registry.unregister name
    (.flag found, { session with registry })
  | .contains name => (.flag (session.registry.contains name), session)
  | .size => (.size session.registry.size, session)
  | .list => (.texts session.registry.list, session)
  | .describe => (.cards session.registry.describe, session)
  | .debug => (.text session.registry.debugText, session)
  | .get name => (.card ((session.registry.get name).map fun inst => inst.plugin.card), session)
  | .keep name label =>
    match session.registry.get name with
    | .error failure => (.done (.error failure), session)
    | .ok inst => (.ok, { session with instances := session.instances.insert label inst })
  | _ => (.ok, session)

/-- The steps that concern the machine. -/
def machineStep (session : Session) (step : Step) : Answer × Session :=
  let world := session.world
  let withWorld (world : World) : Session := { session with world }
  match step with
  | .setVariable name value =>
    let environment := match value with
      | some bytes => world.environment.set name bytes
      | none => world.environment.unset name
    (.ok, withWorld { world with environment })
  | .put path content =>
    (.ok, withWorld { world with disk := putContent world.disk world.here path content })
  | .remove path =>
    match world.disk.remove world.here path with
    | .ok disk => (.flag true, withWorld { world with disk })
    | .error _ => (.flag false, session)
  | .read path => (.content (world.disk.readBytes world.here path).toOption, session)
  | .mode path => (.mode (world.disk.mode? world.here path), session)
  | .names path => (.names (world.disk.list world.here path).toOption, session)
  | .received =>
    (.received world.network.received,
      withWorld { world with network := { world.network with received := [] } })
  | .program arguments => runProgram session arguments
  | _ => (.ok, session)

/-- Takes one step. -/
def step (session : Session) (step : Step) : Answer × Session :=
  let context := session.context
  let world := session.world
  match step with
  | .run name request cancelAfter =>
    runLookup session name request
      ((cancelAfter.map fun delay => world.cancelAt (world.clock + delay)).getD world)
  | .lookup name terms => runLookup session name (Request.ofTerms terms) world
  | .runKept label request => runInstance session label request
  | .cancel => (.flag true, { session with world := world.cancel })
  | .renew => (.flag false, { session with world := world.renewPatience })
  | .setWorkDir path => (.path path, { session with context := { context with workDir := path } })
  | .setSettings settings => adopt session (.ok settings)
  | .settingsFromFile path => adopt session (Settings.fromFile world.disk world.here path)
  | .loadSettings path =>
    adopt session (Settings.load world.disk world.here world.environment path)
  | .overrideSettings => adopt session (.ok (context.settings.override world.environment))
  | .resolve path =>
    (.resolved (context.expandHome world.environment path)
      (context.resolve world.environment path), session)
  | .register .. | .tryRegister .. | .unregister .. | .contains .. | .size | .list | .describe
  | .debug | .get .. | .keep .. => registryStep session step
  | _ => machineStep session step

/-- Takes steps in order and gives all answers. -/
def run (session : Session) : List Step → List Answer × Session
  | [] => ([], session)
  | first :: rest =>
    let (answer, session) := session.step first
    let (answers, session) := session.run rest
    (answer :: answers, session)

end Session

end LookupEngine
