import LookupEngine.Proofs.Lookup.Turns
import LookupEngine.Proofs.Password.Storage
import LookupEngine.Proofs.Session.Instances
import LookupEngine.Proofs.Shell.Execution
/-!
# Time in lookups

No lookup that comes with the program turns back the time, and so the program does not.  Most
lookups only read; those that wait for a command or for the network let time pass.
-/

namespace LookupEngine

namespace Action

variable {α β : Type}

/-- An action that changes nothing. -/
def OnlyReads {State : Type} (action : Action State α) : Prop :=
  ∀ state, (action.perform state).2 = state

namespace OnlyReads

variable {State : Type}

theorem pure (value : α) : OnlyReads (pure value : Action State α) := fun _ => rfl

theorem throw (failure : Failure) : OnlyReads (throw failure : Action State α) := fun _ => rfl

theorem get : OnlyReads (get : Action State State) := fun _ => rfl

theorem ofExcept (result : Except Failure α) : OnlyReads (ofExcept result : Action State α) :=
  fun state => congrArg Prod.snd (perform_ofExcept result state)

theorem check (isCancelled : State → Bool) : OnlyReads (check isCancelled) := by
  intro state
  rw [perform_check]
  split <;> rfl

theorem bind {first : Action State α} {next : α → Action State β} (hfirst : OnlyReads first)
    (hnext : ∀ value, OnlyReads (next value)) : OnlyReads (first >>= next) := by
  intro state
  have hbetween := hfirst state
  rw [perform_bind]
  rcases hperform : first.perform state with ⟨failure | value, between⟩ <;>
    rw [hperform] at hbetween <;> dsimp only at hbetween ⊢
  · exact hbetween
  · rw [hnext value between, hbetween]

theorem collect {one : String → Action State (List α)} (h : ∀ term, OnlyReads (one term))
    (isCancelled : State → Bool) (terms : List String) :
    OnlyReads (collect isCancelled one terms) :=
  @collect_preserves State α isCancelled one (fun before after => after = before)
    (fun _ => rfl) (fun _ _ _ hfirst hsecond => hsecond.trans hfirst) terms (fun term _ => h term)

end OnlyReads

/-- An action that does not turn back the time. -/
def KeepsTime (action : Action World α) : Prop :=
  ∀ world, world.clock ≤ (action.perform world).2.clock

theorem OnlyReads.keepsTime {action : Action World α} (h : OnlyReads action) :
    KeepsTime action :=
  fun world => le_of_eq (congrArg World.clock (h world)).symm

namespace KeepsTime

theorem bind {first : Action World α} {next : α → Action World β} (hfirst : KeepsTime first)
    (hnext : ∀ value, KeepsTime (next value)) : KeepsTime (first >>= next) := by
  intro world
  have hbetween := hfirst world
  rw [perform_bind]
  rcases hperform : first.perform world with ⟨failure | value, between⟩ <;>
    rw [hperform] at hbetween
  · exact hbetween
  · exact hbetween.trans (hnext value between)

theorem collect {one : String → Action World (List α)} (h : ∀ term, KeepsTime (one term))
    (isCancelled : World → Bool) (terms : List String) :
    KeepsTime (collect isCancelled one terms) :=
  @collect_preserves World α isCancelled one (fun before after => before.clock ≤ after.clock)
    (fun _ => le_rfl) (fun _ _ _ => le_trans) terms (fun term _ => h term)

end KeepsTime

end Action

open LookupEngine.Action

namespace Lookup

theorem File.onlyReads_one (context : Context) (manner : Manner) (term : String) :
    OnlyReads (one context manner term) := by
  refine .bind .get fun world => ?_
  dsimp only
  split
  · exact .pure _
  · split
    · exact .throw _
    · exact .pure _

theorem Lines.onlyReads_one (context : Context) (strip : Bool) (term : String) :
    OnlyReads (one context strip term) := by
  refine .bind .get fun world => ?_
  dsimp only
  split
  · exact .pure _
  · exact .throw _

theorem Variable.onlyReads_one (otherwise term : String) : OnlyReads (one otherwise term) :=
  .bind .get fun _ => .pure _

theorem FileGlob.onlyReads_one (context : Context) (term : String) :
    OnlyReads (one context term) := by
  refine .bind .get fun world => ?_
  split
  · exact .pure _
  · exact .throw _

theorem Table.onlyReads_one (context : Context) (options : Options) (term : String) :
    OnlyReads (one context options term) := by
  refine .bind (.ofExcept _) fun spec => .bind .get fun world => ?_
  dsimp only
  split
  · exact .throw _
  · exact .pure _

theorem Progression.onlyReads_expandAll (total : Nat) (terms : List String) :
    OnlyReads (expandAll total terms) := by
  induction terms generalizing total with
  | nil => exact .pure _
  | cons term rest ih =>
    exact .bind (.check _) fun _ => .bind (.ofExcept _) fun found => .bind (ih found.2) fun _ =>
      .pure _

theorem FirstFound.onlyReads_search (context : Context) (paths candidates : List String) :
    OnlyReads (search context paths candidates) := by
  induction candidates with
  | nil => exact .pure _
  | cons candidate rest ih =>
    refine .bind (.check _) fun _ => .bind .get fun world => ?_
    split
    · exact .pure _
    · exact ih

theorem FirstFound.onlyReads_run (context : Context) (options : Options) (terms : List String) :
    OnlyReads (run context options terms) := by
  refine .bind (onlyReads_search context _ _) fun found => ?_
  cases found with
  | some path => exact .pure _
  | none =>
    dsimp only
    split
    · exact .pure _
    · exact .throw _

theorem Password.keepsTime_one (context : Context) (options : Options) (term : String) :
    KeepsTime (one context options term) := by
  intro world
  have hleaves : Leaves context options [term] world
      ((one context options term).perform world).2 :=
    leaves_one (List.mem_singleton_self term) world
  exact le_of_eq (congrArg World.clock hleaves.others).symm

/-- The clock goes on while a text is fetched. -/
theorem Fetch.keepsTime_fetch (client : Http.Client) (manner : Manner) (url : Url) :
    KeepsTime (fetch client manner url) := by
  intro world
  rw [fetch, perform_bind_of_ok _ (perform_get world)]
  dsimp only
  rw [perform_bind_of_ok _ (perform_set _ world)]
  split <;> exact Nat.le_add_right _ _

theorem Fetch.keepsTime_one (client : Http.Client) (manner : Manner) (term : String) :
    KeepsTime (one client manner term) :=
  .bind (OnlyReads.ofExcept _).keepsTime fun url =>
    .bind (keepsTime_fetch client manner url) fun _ => (OnlyReads.pure _).keepsTime

theorem Command.keepsTime_one {runner : Runner World}
    (hrunner : ∀ command directory, KeepsTime (runner command directory)) (manner : Manner)
    (command : String) : KeepsTime (one runner manner command) := by
  intro world
  rw [snd_perform_one]
  exact hrunner command manner.directory world

/-- No lookup that comes with the program turns back the time. -/
theorem keepsTime_action {plugin : Plugin} (h : plugin ∈ builtins) (context : Context)
    (request : Request) : KeepsTime (plugin.action context request) := by
  simp only [builtins, List.mem_cons, List.not_mem_nil, or_false] at h
  rcases h with rfl | rfl | rfl | rfl | rfl | rfl | rfl | rfl | rfl | rfl
  · exact (OnlyReads.collect (File.onlyReads_one context _) _ _).keepsTime
  · exact (OnlyReads.collect (Variable.onlyReads_one _) _ _).keepsTime
  · refine .bind OnlyReads.get.keepsTime fun world => .collect (Command.keepsTime_one ?_ _) _ _
    exact fun command directory => Shell.clock_le_runner _ command directory
  · exact (OnlyReads.collect (FileGlob.onlyReads_one context) _ _).keepsTime
  · exact (FirstFound.onlyReads_run context _ _).keepsTime
  · exact (OnlyReads.collect (Lines.onlyReads_one context _) _ _).keepsTime
  · exact .bind (OnlyReads.ofExcept _).keepsTime fun client =>
      .collect (Fetch.keepsTime_one client _) _ _
  · exact .collect (Password.keepsTime_one context _) _ _
  · exact (Progression.onlyReads_expandAll 0 _).keepsTime
  · exact (OnlyReads.collect (Table.onlyReads_one context _) _ _).keepsTime

end Lookup

/-- A run through the registry leaves the world as a plugin that stands there leaves it, or as it
was. -/
theorem Registry.snd_run (registry : Registry) (name : String) (context : Context)
    (request : Request) (world : World) :
    (registry.run name context request world).2 = world ∨
      ∃ plugin, registry.held? name = some plugin ∧
        (registry.run name context request world).2 =
          ((plugin.action context request).perform world).2 := by
  cases hheld : registry.held? name with
  | none =>
    refine .inl ?_
    rw [run, get, run_getWith_of_free buildFresh hheld]
  | some plugin =>
    rw [Session.run_of_held? hheld]
    cases plugin.validate request.options with
    | error failure => exact .inl rfl
    | ok valid => exact .inr ⟨plugin, rfl, rfl⟩

theorem Registry.mem_builtins_of_held? {name : String} {plugin : Plugin}
    (h : builtin.held? name = some plugin) : plugin ∈ Lookup.builtins := by
  have hheld : (Lookup.builtins.find? fun plugin => plugin.card.name = name).map id =
      some plugin := (congrFun (origin_spec (.builtins id)).2 name).symm.trans h
  rw [Option.map_id, id] at hheld
  exact List.mem_of_find?_eq_some hheld

theorem Registry.snd_mem_builtins {entry : String × Plugin} (h : entry ∈ builtin.factories) :
    entry.2 ∈ Lookup.builtins :=
  mem_builtins_of_held? ((origin_spec (.builtins id)).1.find?_of_mem h)

namespace Program

theorem clock_le_runLookup (settings : Settings) (invocation : Invocation) (world : World) :
    world.clock ≤ (runLookup settings invocation world).2.clock := by
  unfold runLookup
  extract_lets greeting context plugin
  split
  · exact le_rfl
  next request _ =>
  have hclock : world.clock ≤ (Registry.builtin.run plugin context request world).2.clock := by
    rcases Registry.builtin.snd_run plugin context request world with hsame | ⟨held, hheld, hrun⟩
    · rw [hsame]
    · rw [hrun]
      exact Lookup.keepsTime_action (Registry.mem_builtins_of_held? hheld) context request world
  split
  · next hrun => rwa [hrun] at hclock
  · next hrun => rwa [hrun] at hclock

/-- The program does not turn back the time. -/
theorem clock_le_run (arguments : List String) (world : World) :
    world.clock ≤ (run arguments world).2.clock := by
  rw [run]
  split
  · exact le_rfl
  · dsimp only
    split
    · exact le_rfl
    · exact clock_le_runLookup _ _ world

end Program

end LookupEngine
