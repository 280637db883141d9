import LookupEngine.Context
import LookupEngine.Lookup.Card
import LookupEngine.Machine.World
import LookupEngine.Request
/-!
# Plugins

A plugin is a lookup as callers see it: a card, a check of its options, and a run.  A plugin
may remember something from run to run.  What it remembers is a value, and every fresh
instance starts with the same one, so plugins are plain data and instances share nothing.
-/

namespace LookupEngine

/-- What a run comes to: its result, what is remembered for the next one, and the world. -/
structure Outcome where
  result : Except Failure (List Value)
  memory : Value
  world : World

structure Plugin where
  card : Card
  /-- What a fresh instance remembers. -/
  initial : Value
  validate : Options → Except Failure Unit
  run : Context → Request → Value → World → Outcome

/-- A plugin that has been obtained, with what it remembers. -/
structure Instance where
  plugin : Plugin
  memory : Value

namespace Plugin

/-- Every option is fine. -/
def acceptAll (_ : Options) : Except Failure Unit := .ok ()

/-- A plugin that remembers nothing. -/
def forgetful (card : Card) (validate : Options → Except Failure Unit)
    (run : Context → Request → Action World (List Value)) : Plugin where
  card
  initial := .null
  validate
  run context request memory world :=
    let (result, world) := (run context request).perform world
    ⟨result, memory, world⟩

/-- A fresh instance. -/
def fresh (plugin : Plugin) : Instance := ⟨plugin, plugin.initial⟩

end Plugin

namespace Instance

/-- Runs an instance, without a check of the options. -/
def run (inst : Instance) (context : Context) (request : Request) (world : World) :
    Except Failure (List Value) × Instance × World :=
  let outcome := inst.plugin.run context request inst.memory world
  (outcome.result, { inst with memory := outcome.memory }, outcome.world)

end Instance

end LookupEngine
