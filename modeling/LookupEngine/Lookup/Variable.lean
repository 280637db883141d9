import LookupEngine.Lookup.Card
import LookupEngine.Machine.World
import LookupEngine.Options
/-!
# Environment variables

The lookup `env` gives the value of each variable, or a default for one that is empty or not
set.  Bytes that are no text are replaced, so it never fails by itself.
-/

namespace LookupEngine.Lookup.Variable

/-- The text of the option `default`, if it is given. -/
def default? (options : Options) : Option String := (options.find? "default").map Value.toText

/-- Whether a variable can have this name. -/
def isName (name : String) : Bool :=
  !name.isEmpty && name.toList.all fun c => c ≠ '=' && c ≠ Char.ofNat 0

/-- The value of a variable that is not empty. -/
def value? (environment : Environment) (name : String) : Option String :=
  if isName name then
    match environment.bytes? name with
    | some (b :: rest) => some (Utf8.decodeLossy (b :: rest))
    | _ => none
  else none

def one (otherwise : String) (term : String) : Action World (List Value) := do
  let world ← get
  pure [.string ((value? world.environment term).getD otherwise)]

def run (options : Options) (terms : List String) : Action World (List Value) :=
  Action.collect World.isCancelled (one ((default? options).getD "")) terms

def card : Card :=
  .builtin "env" "Reads environment variables" ["HOME", "MY_VAR default=fallback"]
    [.plain "default" "Value used when the variable is unset or empty" "any"]

end LookupEngine.Lookup.Variable
