import LookupEngine.Settings
/-!
# Cards

What a lookup says of itself: its name and origin, how it is used and which options it takes.
-/

namespace LookupEngine

structure OptionCard where
  name : String
  description : String
  type : String
  default : Option String
  required : Bool
deriving Repr, DecidableEq

structure Card where
  name : String
  description : String
  version : String
  /-- In order, none twice. -/
  authors : List String
  examples : List String
  options : List OptionCard
deriving Repr, DecidableEq

namespace OptionCard

/-- An option that may be left out. -/
def plain (name description type : String) : OptionCard :=
  ⟨name, description, type, none, false⟩

def withDefault (name description type default : String) : OptionCard :=
  ⟨name, description, type, some default, false⟩

def needed (name description type : String) : OptionCard := ⟨name, description, type, none, true⟩

end OptionCard

namespace Card

/-- The card of a lookup that comes with the program. -/
def builtin (name description : String) (examples : List String) (options : List OptionCard) :
    Card :=
  ⟨name, description, programVersion, [programAuthors], examples, options⟩

/-- The type that every card shows. -/
def pluginType : String := "lookup"

end Card

end LookupEngine
