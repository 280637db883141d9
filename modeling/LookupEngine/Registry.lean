import LookupEngine.Plugin
/-!
# Registries

A registry is a finite map from names to factories, and what a factory is matters only where an
instance is built.  A factory may keep something back from one instance to the next, so building
is an action on a state; a plugin is the factory that always builds the same instance.  The name
under which a factory is registered need not be the name of what it builds, and every run through
the registry is the first run of a fresh instance.
-/

namespace LookupEngine

structure Registry (Factory : Type := Plugin) where
  factories : Entries Factory

namespace Registry

section

variable {Factory State : Type}

def empty : Registry Factory := ⟨[]⟩

/-- Installs a factory under a name, in place of the one that was there. -/
def register (registry : Registry Factory) (name : String) (factory : Factory) :
    Registry Factory :=
  ⟨registry.factories.insert name factory⟩

/-- Installs a factory under a name that is free. -/
def tryRegister (registry : Registry Factory) (name : String) (factory : Factory) :
    Except Failure (Registry Factory) :=
  if registry.factories.contains name then .error (.alreadyRegistered name)
  else .ok (registry.register name factory)

/-- Removes a name, and tells whether it was there. -/
def unregister (registry : Registry Factory) (name : String) : Bool × Registry Factory :=
  (registry.factories.contains name, ⟨registry.factories.erase name⟩)

def factory? (registry : Registry Factory) (name : String) : Except Failure Factory :=
  match registry.factories.find? name with
  | some factory => .ok factory
  | none => .error (.unknownLookup name)

/-- The instance that the factory under a name builds next. -/
def getWith (build : Factory → StateM State Instance) (registry : Registry Factory)
    (name : String) : StateM State (Except Failure Instance) :=
  match registry.factory? name with
  | .error failure => pure (.error failure)
  | .ok factory => do return .ok (← build factory)

def contains (registry : Registry Factory) (name : String) : Bool :=
  registry.factories.contains name

/-- The registered names in order. -/
def list (registry : Registry Factory) : List String := registry.factories.keys

/-- The card of what has been built, if anything has. -/
def cardOf? : Except Failure Instance → Option Card
  | .ok inst => some inst.plugin.card
  | .error _ => none

/-- The cards of instances built one after the other, in the order of the names. -/
def describeWith (build : Factory → StateM State Instance) (registry : Registry Factory) :
    StateM State (List Card) := do
  let built ← registry.list.mapM (registry.getWith build)
  return built.filterMap cardOf?

def size (registry : Registry Factory) : Nat := registry.factories.length

def isEmpty (registry : Registry Factory) : Bool := registry.factories.isEmpty

end

def plugin? (registry : Registry) (name : String) : Except Failure Plugin :=
  registry.factory? name

/-- A plugin as a factory. -/
def buildFresh (plugin : Plugin) : StateM Unit Instance := pure plugin.fresh

/-- A fresh instance of the plugin under a name. -/
def get (registry : Registry) (name : String) : Except Failure Instance :=
  ((registry.getWith buildFresh name).run ()).1

/-- The cards of all plugins, in the order of the names they are registered under. -/
def describe (registry : Registry) : List Card := ((registry.describeWith buildFresh).run ()).1

/-- Checks the options of a request and runs a fresh instance. -/
def run (registry : Registry) (name : String) (context : Context) (request : Request)
    (world : World) : Except Failure (List Value) × World :=
  match registry.get name with
  | .error failure => (.error failure, world)
  | .ok inst =>
    match inst.plugin.validate request.options with
    | .error failure => (.error failure, world)
    | .ok () =>
      let (result, _, world) := inst.run context request world
      (result, world)

/-- Runs a lookup with terms alone. -/
def lookup (registry : Registry) (name : String) (context : Context) (terms : List String)
    (world : World) : Except Failure (List Value) × World :=
  registry.run name context (Request.ofTerms terms) world

/-- Characters that are not shown as they are: controls and formats, blanks other than the
space, marks that belong to the character before them, and what stands for nothing. -/
def isHidden (n : Nat) : Bool :=
  n < 0x20 || n ≥ 0xE0000 ||
    [(0x7F, 0xA0), (0xAD, 0xAD), (0x300, 0x36F), (0x483, 0x489), (0x591, 0x5BD), (0x600, 0x605),
      (0x61C, 0x61C), (0x1680, 0x1680), (0x180B, 0x180F), (0x1AB0, 0x1ACE), (0x1DC0, 0x1DFF),
      (0x2000, 0x200F), (0x2028, 0x202F), (0x205F, 0x206F), (0x20D0, 0x20F0), (0x3000, 0x3000),
      (0x302A, 0x302F), (0x3099, 0x309A), (0xD800, 0xF8FF), (0xFE00, 0xFE0F), (0xFE20, 0xFE2F),
      (0xFEFF, 0xFEFF), (0xFFF0, 0xFFFB), (0xFFFE, 0xFFFF)].any fun (first, last) =>
      first ≤ n && n ≤ last

/-- A character as it is shown inside of quotes. -/
def shownChar (c : Char) : List Char :=
  if c = '\x22' then ['\\', '\x22']
  else if c = '\\' then ['\\', '\\']
  else if c = '\n' then ['\\', 'n']
  else if c = '\r' then ['\\', 'r']
  else if c = '\t' then ['\\', 't']
  else if c.toNat = 0 then ['\\', '0']
  else if isHidden c.toNat then
    ['\\', 'u', '\x7b'] ++ Digits.write 16 c.toNat ++ ['\x7d']
  else [c]

/-- A name in quotes. -/
def shownName (name : String) : String :=
  "\x22" ++ String.ofList (name.toList.flatMap shownChar) ++ "\x22"

/-- What a developer is shown of a registry. -/
def debugText (registry : Registry) : String :=
  "LookupRegistry \x7b plugins: [" ++ String.intercalate ", " (registry.list.map shownName) ++
    "] \x7d"

end Registry

end LookupEngine
