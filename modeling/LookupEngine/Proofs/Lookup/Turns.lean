import LookupEngine.Lookup.Builtin
import LookupEngine.Proofs.Machine.Action
/-!
# Lookups that take their terms in turn

Most lookups treat their terms one by one, each in the state that the terms before it have left.
Such a lookup splits wherever its terms do, and this alone settles what it gives: the values of
each term alone, in the order of the terms, up to the first term that fails alone.  What comes
after that term has no part in it.
-/

namespace LookupEngine

namespace Action

variable {State α : Type}

/-- A lookup of two lists of terms is one of the first and, if that succeeds, one of the second in
the state that is left. -/
structure Splits (run : List String → Action State (List α)) : Prop where
  nil : ∀ state, (run []).perform state = (.ok [], state)
  append : ∀ front back state,
    (run (front ++ back)).perform state =
      joined ((run front).perform state) (run back).perform

/-- The values of each term, looked up alone in the state that the terms before it leave. -/
inductive Turns (run : List String → Action State (List α)) :
    State → List String → List (List α) → State → Prop
  | nil (state : State) : Turns run state [] [] state
  | cons {state between after : State} {term : String} {rest : List String} {values : List α}
      {others : List (List α)} (hterm : (run [term]).perform state = (.ok values, between))
      (hrest : Turns run between rest others after) :
      Turns run state (term :: rest) (values :: others) after

/-- A lookup that splits, with what comes of it: it succeeds with the values of all terms in
order, and it fails as the first term that fails alone, whatever follows that term. -/
structure TakesTurns (run : List String → Action State (List α)) : Prop extends Splits run where
  ok_iff : ∀ terms state values after,
    (run terms).perform state = (.ok values, after) ↔
      ∃ parts, Turns run state terms parts after ∧ values = parts.flatten
  error_iff : ∀ terms state failure after,
    (run terms).perform state = (.error failure, after) ↔
      ∃ earlier term later parts between, terms = earlier ++ term :: later ∧
        Turns run state earlier parts between ∧
        (run [term]).perform between = (.error failure, after)

theorem joined_eq_ok_iff {first : Except Failure (List α) × State}
    {second : State → Except Failure (List α) × State} {values : List α} {after : State} :
    joined first second = (.ok values, after) ↔
      ∃ front between back, first = (.ok front, between) ∧ second between = (.ok back, after) ∧
        values = front ++ back := by
  constructor
  · intro h
    rcases first with ⟨failure | front, between⟩
    · cases h
    rcases hsecond : second between with ⟨failure | back, last⟩
    · simp only [joined, hsecond] at h
      cases h
    · simp only [joined, hsecond] at h
      cases h
      exact ⟨front, between, back, rfl, hsecond, rfl⟩
  · rintro ⟨front, between, back, rfl, hsecond, rfl⟩
    simp only [joined, hsecond]

theorem joined_eq_error_iff {first : Except Failure (List α) × State}
    {second : State → Except Failure (List α) × State} {failure : Failure} {after : State} :
    joined first second = (.error failure, after) ↔
      first = (.error failure, after) ∨
        ∃ front between, first = (.ok front, between) ∧
          second between = (.error failure, after) := by
  constructor
  · intro h
    rcases first with ⟨problem | front, between⟩
    · exact .inl h
    rcases hsecond : second between with ⟨problem | back, last⟩
    · simp only [joined, hsecond] at h
      exact .inr ⟨front, between, rfl, hsecond.trans h⟩
    · simp only [joined, hsecond] at h
      cases h
  · rintro (rfl | ⟨front, between, rfl, hsecond⟩)
    · rfl
    · simp only [joined, hsecond]

namespace Splits

variable {run : List String → Action State (List α)} (hsplits : Splits run)

include hsplits

theorem cons (term : String) (rest : List String) (state : State) :
    (run (term :: rest)).perform state =
      joined ((run [term]).perform state) (run rest).perform :=
  hsplits.append [term] rest state

/-- A success is the successes of all terms in turn. -/
theorem ok_iff (terms : List String) (state : State) (values : List α) (after : State) :
    (run terms).perform state = (.ok values, after) ↔
      ∃ parts, Turns run state terms parts after ∧ values = parts.flatten := by
  induction terms generalizing state values with
  | nil =>
    rw [hsplits.nil]
    constructor
    · rintro ⟨⟩
      exact ⟨[], .nil _, rfl⟩
    · rintro ⟨parts, hturns, rfl⟩
      cases hturns
      rfl
  | cons term rest ih =>
    rw [hsplits.cons, joined_eq_ok_iff]
    constructor
    · rintro ⟨front, between, back, hterm, hrest, rfl⟩
      obtain ⟨parts, hturns, rfl⟩ := (ih between back).1 hrest
      exact ⟨front :: parts, .cons hterm hturns, rfl⟩
    · rintro ⟨parts, hturns, rfl⟩
      cases hturns with
      | cons hterm hrest => exact ⟨_, _, _, hterm, (ih _ _).2 ⟨_, hrest, rfl⟩, rfl⟩

/-- A failure is the one of the first term that fails in its turn. -/
theorem error_iff (terms : List String) (state : State) (failure : Failure) (after : State) :
    (run terms).perform state = (.error failure, after) ↔
      ∃ earlier term later parts between, terms = earlier ++ term :: later ∧
        Turns run state earlier parts between ∧
        (run [term]).perform between = (.error failure, after) := by
  induction terms generalizing state with
  | nil =>
    rw [hsplits.nil]
    constructor
    · rintro ⟨⟩
    · rintro ⟨earlier, term, later, _, _, hterms, -⟩
      cases earlier <;> cases hterms
  | cons first rest ih =>
    rw [hsplits.cons, joined_eq_error_iff]
    constructor
    · rintro (hfirst | ⟨front, between, hfirst, hrest⟩)
      · exact ⟨[], first, rest, [], state, rfl, .nil state, hfirst⟩
      · obtain ⟨earlier, term, later, parts, last, rfl, hturns, hterm⟩ := (ih between).1 hrest
        exact ⟨first :: earlier, term, later, front :: parts, last, rfl, .cons hfirst hturns,
          hterm⟩
    · rintro ⟨earlier, term, later, parts, last, hterms, hturns, hterm⟩
      cases hturns with
      | nil =>
        obtain ⟨rfl, -⟩ := List.cons.inj hterms
        exact .inl hterm
      | cons hfirst hrest =>
        obtain ⟨rfl, rfl⟩ := List.cons.inj hterms
        exact .inr ⟨_, _, hfirst, (ih _).2 ⟨_, term, later, _, last, rfl, hrest, hterm⟩⟩

theorem takesTurns : TakesTurns run where
  toSplits := hsplits
  ok_iff := hsplits.ok_iff
  error_iff := hsplits.error_iff

end Splits

theorem splits_collect (isCancelled : State → Bool) (one : String → Action State (List α)) :
    Splits (collect isCancelled one) where
  nil := perform_collect_nil isCancelled one
  append := perform_collect_append isCancelled one

end Action

open LookupEngine.Action

/-- The first run of a fresh instance. -/
def Plugin.action (plugin : Plugin) (context : Context) (request : Request) :
    Action World (List Value) := fun world =>
  let outcome := plugin.run context request plugin.initial world
  (outcome.result, outcome.world)

theorem Plugin.action_forgetful (card : Card) (validate : Options → Except Failure Unit)
    (run : Context → Request → Action World (List Value)) (context : Context) (request : Request) :
    (forgetful card validate run).action context request = run context request := rfl

namespace Lookup

namespace Command

/-- A runner that leaves the variables of the process alone, as it does where every command is a
process of its own. -/
def KeepsEnvironment (runner : Runner World) : Prop :=
  ∀ command directory world,
    ((runner command directory).perform world).2.environment = world.environment

theorem keepsEnvironment_shell (name : String) : KeepsEnvironment (Shell.runner name) := by
  intro command directory world
  rw [Shell.runner, perform_bind_of_ok _ (perform_get world)]
  cases Shell.call world name directory command with
  | error fault => rfl
  | ok process =>
    dsimp only
    rw [perform_bind_of_ok _ (perform_set (Shell.finish world process) world)]
    cases Shell.isCutShort process <;> rfl

/-- Only the runner changes the state. -/
theorem snd_perform_one {State : Type} (runner : Runner State) (manner : Manner)
    (command : String) (state : State) :
    ((one runner manner command).perform state).2 =
      ((runner command manner.directory).perform state).2 := by
  rw [one, perform_bind]
  rcases (runner command manner.directory).perform state with ⟨failure | output, after⟩
  · rfl
  · dsimp only
    split <;> rfl

theorem environment_perform_run {runner : Runner World} (hrunner : KeepsEnvironment runner)
    (isCancelled : World → Bool) (manner : Manner) (commands : List String) (world : World) :
    ((run isCancelled runner manner commands).perform world).2.environment =
      world.environment := by
  refine @collect_preserves World Value isCancelled (one runner manner)
    (fun before after => after.environment = before.environment)
    (fun _ => rfl) (fun _ _ _ hfirst hsecond => hsecond.trans hfirst) commands ?_ world
  intro command _ state
  rw [snd_perform_one]
  exact hrunner command manner.directory state

end Command

/-- A pipe reads its options once, with the variables that the process has then. -/
theorem perform_pipe (runner : Settings → Command.Runner World) (context : Context)
    (request : Request) (world : World) :
    ((pipeWith runner).action context request).perform world =
      (Command.run World.isCancelled (runner context.settings)
        (Command.manner context world.environment request.options) request.terms).perform
          world := by
  rw [pipeWith, Plugin.action_forgetful, perform_bind_of_ok _ (perform_get world)]

theorem splits_pipe {runner : Settings → Command.Runner World}
    (hrunner : ∀ settings, Command.KeepsEnvironment (runner settings)) (context : Context)
    (request : Request) :
    Splits fun terms => (pipeWith runner).action context { request with terms } where
  nil world := perform_pipe runner context { request with terms := [] } world
  append front back world := by
    have hkeeps := Command.environment_perform_run (hrunner context.settings) World.isCancelled
      (Command.manner context world.environment request.options) front world
    rw [perform_pipe, perform_pipe, Command.run, perform_collect_append, ← Command.run,
      ← Command.run]
    dsimp only at hkeeps ⊢
    rcases hfront : (Command.run World.isCancelled (runner context.settings)
      (Command.manner context world.environment request.options) front).perform world with
      ⟨failure | values, between⟩
    · simp only [joined]
    · rw [hfront] at hkeeps
      dsimp only at hkeeps
      simp only [joined, perform_pipe, hkeeps]

/-- The lookups that treat their terms one by one. -/
def inTurn : List Plugin := [file, env, lines, fileGlob, csvFile, password, pipe]

/-- Each of these lookups takes its terms in turn, whatever else it is asked for, and so does a
pipe with any runner of commands, whatever the state is that the runner works on. -/
theorem lookups_take_turns :
    (∀ plugin ∈ inTurn, ∀ (context : Context) (request : Request),
      TakesTurns fun terms => plugin.action context { request with terms }) ∧
      ∀ (State : Type) (isCancelled : State → Bool) (runner : Command.Runner State)
        (context : Context) (environment : Environment) (options : Options),
        TakesTurns (Command.run isCancelled runner
          (Command.manner context environment options)) := by
  constructor
  · intro plugin hplugin context request
    apply Splits.takesTurns
    simp only [inTurn, List.mem_cons, List.not_mem_nil, or_false] at hplugin
    rcases hplugin with rfl | rfl | rfl | rfl | rfl | rfl | rfl
    · exact splits_collect World.isCancelled (File.one context (File.manner request.options))
    · exact splits_collect World.isCancelled
        (Variable.one ((Variable.default? request.options).getD ""))
    · exact splits_collect World.isCancelled
        (Lines.one context (request.options.flagOr "strip" false))
    · exact splits_collect World.isCancelled (FileGlob.one context)
    · exact splits_collect World.isCancelled (Table.one context request.options)
    · exact splits_collect World.isCancelled (Password.one context request.options)
    · exact splits_pipe (fun settings => Command.keepsEnvironment_shell _) context request
  · intro State isCancelled runner context environment options
    exact (splits_collect isCancelled _).takesTurns

end Lookup

end LookupEngine
