import LookupEngine.Failure
import LookupEngine.Machine.Disk
import LookupEngine.Machine.Environment
/-!
# Worlds and actions

All that a lookup can see or change, as one value: the disk, the environment, the network, a
stream of random numbers, and a clock with the moment at which the caller loses patience.
An action turns such a state into another one and a result or a failure.  It is written for
any state, so that a lookup can also be run over the state of a machine of its own.
-/

namespace LookupEngine

structure World where
  disk : Disk
  /-- The directory of the process. -/
  here : Location
  environment : Environment
  network : Http.Network
  /-- The random numbers of the system, and how many have been used. -/
  draws : Nat → Nat
  drawn : Nat
  /-- Milliseconds since the start. -/
  clock : Nat
  /-- When the lookups in progress are cancelled. -/
  cancelledAt : Option Nat

namespace World

/-- A world without a network and without chance, in which nobody cancels. -/
def still (disk : Disk) (environment : Environment) : World where
  disk
  here := []
  environment
  network := .none
  draws _ := 0
  drawn := 0
  clock := 0
  cancelledAt := none

/-- Whether the caller has cancelled. -/
def isCancelled (world : World) : Bool :=
  match world.cancelledAt with
  | some moment => moment ≤ world.clock
  | none => false

/-- Cancels at a moment, unless that happens before. -/
def cancelAt (world : World) (moment : Nat) : World :=
  { world with cancelledAt := some ((world.cancelledAt.map (min moment)).getD moment) }

def cancel (world : World) : World := world.cancelAt world.clock

/-- Lets the caller wait again. -/
def renewPatience (world : World) : World := { world with cancelledAt := none }

/-- How much time is left before the caller cancels. -/
def patience (world : World) : Option Nat := world.cancelledAt.map (· - world.clock)

end World

/-- What changes a state and gives a result or fails. -/
abbrev Action (State α : Type) := ExceptT Failure (StateM State) α

namespace Action

variable {State α : Type}

/-- The result of an action that starts in `state`, and the state that it leaves. -/
def perform (action : Action State α) (state : State) : Except Failure α × State :=
  action.run.run state

/-- Fails if the caller has cancelled. -/
def check (isCancelled : State → Bool) : Action State Unit := do
  if isCancelled (← get) then throw .cancelled

/-- Gives a result that is already there. -/
def ofExcept (result : Except Failure α) : Action State α :=
  match result with
  | .ok value => pure value
  | .error failure => throw failure

/-- Runs `one` for each term in order and joins what it gives, until the first failure or
until the caller cancels. -/
def collect (isCancelled : State → Bool) (one : String → Action State (List α)) :
    List String → Action State (List α)
  | [] => pure []
  | term :: rest => do
    check isCancelled
    let values ← one term
    let others ← collect isCancelled one rest
    pure (values ++ others)

end Action

end LookupEngine
