import LookupEngine.Lookup.Builtin
/-!
# Sample lookups

Lookups from outside of the program, as a registry may hold them too: one that turns terms
around, one that reads the variables of a request, and one that counts its own runs.  A pipe
can also have a runner that knows its commands by heart.
-/

namespace LookupEngine.Lookup.Sample

def card (name description : String) : Card := ⟨name, description, "0.3.0", ["amy", "zed"], [], []⟩

/-- Refuses one option. -/
def validate (options : Options) : Except Failure Unit :=
  if options.contains "forbidden" then .error (.invalidOption "forbidden" .notAllowed) else .ok ()

def reverseTerm (term : String) : Action World (List Value) :=
  pure [.string (String.ofList term.toList.reverse)]

/-- Each term reversed. -/
def reverse : Plugin :=
  .forgetful (card "reverse" "Reverses terms") validate fun _ request =>
    Action.collect World.isCancelled reverseTerm request.terms

/-- The variable that each term names, or null. -/
def var : Plugin :=
  .forgetful (card "var" "Reads variables") validate fun _ request =>
    pure (request.terms.map fun term => (request.vars.find? term).getD .null)

/-- How often an instance has run. -/
def timesOf : Value → Int
  | .number (.integer n) => n
  | _ => 0

/-- The number of the run. -/
def counting : Plugin where
  card := card "counting" "Counts runs"
  initial := .nat 0
  validate := validate
  run _ _ memory world :=
    let times := Value.int (timesOf memory + 1)
    ⟨.ok [times], times, world⟩

/-- How a command known by heart behaves. -/
structure Script where
  code : Int
  /-- Every percent sign stands for the command and its directory. -/
  stdout : String
  stderr : String
  /-- The caller loses patience. -/
  cancels : Bool
deriving Repr, DecidableEq

namespace Script

/-- What a command does that nobody has described. -/
def default : Script := ⟨0, "%", "", false⟩

def fill (command : String) (directory : Option String) (text : String) : String :=
  let mark := command.toList ++ '@' :: (directory.getD "-").toList
  String.ofList (text.toList.flatMap fun c => if c = '%' then mark else [c])

/-- Behaves as the script of a command says. -/
def runner (scripts : Entries Script) : Command.Runner World := fun command directory => do
  let script := (scripts.find? command).getD default
  if script.cancels then modify World.cancel
  pure ⟨script.code, fill command directory script.stdout, script.stderr⟩

end Script

/-- A pipe with scripts. -/
def scripted (scripts : Entries Script) : Plugin := pipeWith fun _ => Script.runner scripts

end LookupEngine.Lookup.Sample
