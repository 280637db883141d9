import LookupEngine.Proofs.Lookup.Cancellation
import LookupEngine.Proofs.Lookup.Time
/-!
# Cancelled sessions

A cancellation lasts until the caller renews its patience.  No other step takes it back: time only
goes on, and a lookup from elsewhere can cancel but not renew.  As long as it lasts, every run of a
lookup of the program that is asked for anything is refused, and the session is left as it was.
-/

namespace LookupEngine.Session

namespace Step

/-- A step after which a cancelled session is still cancelled: the caller does not renew its
patience, and registers no plugin that would. -/
def StaysCancelled : Step → Prop
  | .renew => False
  | .register _ plugin => plugin.StaysCancelled
  | .tryRegister _ plugin => plugin.StaysCancelled
  | _ => True

/-- The lookup that a step runs through the registry. -/
def call? : Step → Option (String × Request)
  | .run name request _ => some (name, request)
  | .lookup name terms => some (name, Request.ofTerms terms)
  | _ => none

end Step

/-- A session whose caller has cancelled, and in which nothing is held that could take this
back. -/
structure StaysCancelled (session : Session) : Prop where
  world : session.world.isCancelled = true
  factories : ∀ entry ∈ session.registry.factories, entry.2.StaysCancelled
  instances : ∀ entry ∈ session.instances, entry.2.plugin.StaysCancelled

namespace StaysCancelled

variable {session : Session} (h : session.StaysCancelled)

include h

theorem of_held? {name : String} {plugin : Plugin}
    (hheld : session.registry.held? name = some plugin) : plugin.StaysCancelled :=
  h.factories _ (Entries.mem_of_find? hheld)

/-- A session that holds the same, in a world that is cancelled. -/
theorem of_frame {after : Session} (hworld : after.world.isCancelled = true)
    (hframe : after.registry = session.registry ∧ after.instances = session.instances) :
    after.StaysCancelled where
  world := hworld
  factories := hframe.1 ▸ h.factories
  instances := hframe.2 ▸ h.instances

theorem insert_instance (label : String) {inst : Instance}
    (hplugin : inst.plugin.StaysCancelled) {world : World} (hworld : world.isCancelled = true) :
    StaysCancelled
      { session with world, instances := session.instances.insert label inst } where
  world := hworld
  factories := h.factories
  instances := by
    intro entry hentry
    rcases Entries.mem_insert hentry with rfl | hold
    · exact hplugin
    · exact h.instances entry hold

theorem register (name : String) {plugin : Plugin} (hplugin : plugin.StaysCancelled) :
    StaysCancelled { session with registry := session.registry.register name plugin } where
  world := h.world
  factories := by
    intro entry hentry
    rcases Entries.mem_insert hentry with rfl | hold
    · exact hplugin
    · exact h.factories entry hold
  instances := h.instances

theorem unregister (name : String) :
    StaysCancelled { session with registry := (session.registry.unregister name).2 } where
  world := h.world
  factories _ hentry := h.factories _ ((Entries.erase_sublist name _).subset hentry)
  instances := h.instances

theorem runLookup (name : String) (request : Request) :
    (session.runLookup name request session.world).2.StaysCancelled := by
  refine h.of_frame ?_ ⟨rfl, rfl⟩
  show (session.registry.run name session.context request session.world).2.isCancelled = true
  rcases session.registry.snd_run name session.context request session.world with
    hsame | ⟨plugin, hheld, hrun⟩
  · rw [hsame]
    exact h.world
  · rw [hrun]
    exact h.of_held? hheld session.context request plugin.initial session.world h.world

theorem runInstance (label : String) (request : Request) :
    (session.runInstance label request).2.StaysCancelled := by
  rw [Session.runInstance]
  split
  · exact h
  · next inst hinst =>
    have hplugin := h.instances _ (Entries.mem_of_find? hinst)
    have hworld := hplugin session.context request inst.memory session.world h.world
    exact insert_instance h label
      (show (inst.run session.context request session.world).2.1.plugin.StaysCancelled from hplugin)
      hworld

theorem keep (name label : String) : (session.step (.keep name label)).2.StaysCancelled := by
  cases hheld : session.registry.held? name with
  | none =>
    have hget : session.registry.get name = .error (.unknownLookup name) := by
      rw [Registry.get, Registry.run_getWith_of_free Registry.buildFresh hheld]
    show (session.registryStep (.keep name label)).2.StaysCancelled
    rw [registryStep, hget]
    exact h
  | some plugin =>
    rw [step_keep hheld]
    exact h.insert_instance label (h.of_held? hheld) h.world

theorem adopt (result : Except LoadProblem Settings) :
    (session.adopt result).2.StaysCancelled := by
  cases result <;> exact h.of_frame h.world ⟨rfl, rfl⟩

/-- A delay is of no use to a caller that has cancelled. -/
theorem world_delayed (cancelAfter : Option Nat) :
    ((cancelAfter.map fun delay => session.world.cancelAt (session.world.clock + delay)).getD
      session.world) = session.world := by
  cases cancelAfter with
  | none => rfl
  | some delay => exact World.cancelAt_of_isCancelled h.world delay

theorem step_of_call? {step : Step} {name : String} {request : Request}
    (hcall : step.call? = some (name, request)) :
    session.step step = session.runLookup name request session.world := by
  cases step with
  | run name request cancelAfter =>
    cases hcall
    rw [Session.step, h.world_delayed]
  | lookup name terms =>
    cases hcall
    rfl
  | _ => cases hcall

/-- What one step preserves. -/
theorem step {step : Step} (hstep : step.StaysCancelled) :
    (session.step step).2.StaysCancelled := by
  cases step with
  | renew => exact hstep.elim
  | run name request cancelAfter =>
    rw [h.step_of_call? rfl]
    exact h.runLookup name request
  | lookup name terms => exact h.runLookup name _
  | register name plugin => exact h.register name hstep
  | tryRegister name plugin =>
    rw [tryRegister_step, Registry.apply, Registry.tryRegister]
    by_cases htaken : session.registry.factories.contains name = true
    · rw [if_pos htaken]
      exact h
    · rw [if_neg htaken]
      exact h.register name hstep
  | unregister name => exact h.unregister name
  | keep name label => exact h.keep name label
  | runKept label request => exact h.runInstance label request
  | cancel => exact h.of_frame (World.isCancelled_cancel _) ⟨rfl, rfl⟩
  | program arguments =>
    have hclock := Program.clock_le_run arguments session.world.renewPatience
    exact h.of_frame (World.isCancelled_of_later h.world hclock rfl) ⟨rfl, rfl⟩
  | settingsFromFile | loadSettings => exact h.adopt _
  | remove path =>
    show (session.machineStep (.remove path)).2.StaysCancelled
    rw [machineStep]
    split <;> exact h.of_frame h.world ⟨rfl, rfl⟩
  | setVariable | put | received | setWorkDir | setSettings | overrideSettings =>
    exact h.of_frame h.world ⟨rfl, rfl⟩
  | contains | size | list | describe | debug | get | resolve | read | mode | names => exact h

/-- What a whole run preserves. -/
theorem run {steps : List Step} (hsteps : ∀ step ∈ steps, step.StaysCancelled) :
    (session.run steps).2.StaysCancelled := by
  induction steps generalizing session with
  | nil => exact h
  | cons step rest ih =>
    obtain ⟨hstep, hrest⟩ := List.forall_mem_cons.1 hsteps
    rw [run_cons]
    exact ih (h.step hstep) hrest

end StaysCancelled

/-- A session that holds the lookups of the program and nothing else, once its caller cancels. -/
theorem staysCancelled_cancel {session : Session} (hregistry : session.registry = .builtin)
    (hinstances : session.instances = []) : (session.step .cancel).2.StaysCancelled where
  world := World.isCancelled_cancel session.world
  factories entry hentry := by
    have hmem : entry ∈ Registry.builtin.factories := hregistry ▸ hentry
    exact Lookup.staysCancelled_of_mem (Registry.snd_mem_builtins hmem)
  instances entry hentry := by
    have hmem : entry ∈ session.instances := hentry
    rw [hinstances] at hmem
    cases hmem

/-- From the moment at which the caller has cancelled until it renews its patience, whatever else
happens, a run of a lookup of the program that is asked for anything fails.  It fails as
cancelled, or because `url` finds that it could not fetch anything; the session, with its disk and
its network, is what it was before, and a pipe has not handed any command to its runner. -/
theorem refuses_until_renewed {session : Session} (hsession : session.StaysCancelled)
    {steps : List Step} (hsteps : ∀ step ∈ steps, step.StaysCancelled) {step : Step}
    {name : String} {request : Request} (hcall : step.call? = some (name, request))
    {plugin : Plugin} (hheld : (session.run steps).2.registry.held? name = some plugin)
    (hasks : Lookup.Asks request plugin) :
    (∃ failure, Lookup.Refuses (session.run steps).2.context request plugin failure ∧
        (session.run steps).2.step step = (.values (.error failure), (session.run steps).2)) ∧
      ∀ runner, plugin = Lookup.pipeWith runner →
        Lookup.Command.handed World.isCancelled (runner (session.run steps).2.context.settings)
          (Lookup.Command.manner (session.run steps).2.context
            (session.run steps).2.world.environment request.options)
          request.terms (session.run steps).2.world = [] := by
  have hreached := hsession.run hsteps
  generalize (session.run steps).2 = reached at hreached hheld ⊢
  obtain ⟨failure, hrefuses, hrun⟩ :=
    Lookup.refuses_of_run hheld hasks hreached.world reached.context
  refine ⟨⟨failure, hrefuses, ?_⟩, fun runner _ => ?_⟩
  · rw [hreached.step_of_call? hcall, runLookup, hrun]
  · exact Lookup.Command.handed_of_cancelled hreached.world _ _ _

/-- A session with the lookups of the program and one file, whose caller cancels at once. -/
def cancelledSession : Session :=
  (step ⟨.builtin, ⟨.default, none⟩, .still .empty ⟨[], none⟩, []⟩ .cancel).2

/-- Things that a caller may do without renewing its patience. -/
def idleSteps : List Step :=
  [.put "vars.yml" (.file [0x78]), .register "turned" Lookup.Sample.reverse,
    .keep "turned" "mine", .runKept "mine" (Request.ofTerms ["abc"]), .cancel,
    .program ["password", "pw"], .unregister "env"]

/-- A request without terms, but with a candidate. -/
def candidate : Request := ⟨[], [], [("files", .array [.string "vars.yml"])]⟩

/-- A file that is there is not found. -/
theorem refuses_until_renewed_first_found :
    cancelledSession.StaysCancelled ∧ (∀ step ∈ idleSteps, step.StaysCancelled) ∧
      (cancelledSession.run idleSteps).2.registry.held? "first_found" = some Lookup.firstFound ∧
      Lookup.Asks candidate Lookup.firstFound ∧
      ∃ failure, (cancelledSession.run idleSteps).2.step (.run "first_found" candidate (some 5)) =
        (.values (.error failure), (cancelledSession.run idleSteps).2) := by
  have hsession : cancelledSession.StaysCancelled := staysCancelled_cancel rfl rfl
  have hsteps : ∀ step ∈ idleSteps, step.StaysCancelled := by
    simp [idleSteps, Step.StaysCancelled, Lookup.Sample.staysCancelled_reverse]
  have hheld : (cancelledSession.run idleSteps).2.registry.held? "first_found" =
      some Lookup.firstFound := by
    obtain ⟨hsorted, hbuiltin⟩ :=
      Registry.origin_spec (Registry.Origin.builtins (id : Plugin → Plugin))
    rw [registry_run]
    refine (congrFun (Registry.after_spec hsorted _).2 "first_found").trans ?_
    rw [hbuiltin]
    rfl
  have hasks : Lookup.Asks candidate Lookup.firstFound := .files (by decide)
  have hcall : (Step.run "first_found" candidate (some 5)).call? =
      some ("first_found", candidate) := rfl
  obtain ⟨⟨failure, -, hanswer⟩, -⟩ := refuses_until_renewed hsession hsteps hcall hheld hasks
  exact ⟨hsession, hsteps, hheld, hasks, failure, hanswer⟩

end LookupEngine.Session
