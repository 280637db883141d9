import LookupEngine.Proofs.Registry.Map
import LookupEngine.Session
/-!
# Instances share nothing

What an instance answers is a matter of the plugin that it is an instance of and of the calls it
has had, each with the world it was made in.  Nothing else that happens between two calls has a
part in it, so two histories that call two instances of one plugin alike get the same answers.
-/

namespace LookupEngine

/-- What an instance is run with. -/
structure Call where
  context : Context
  request : Request
  world : World

/-- Calls that ask for the same in worlds that are alike. -/
structure Call.Matches (Alike : World → World → Prop) (one other : Call) : Prop where
  context : one.context = other.context
  request : one.request = other.request
  world : Alike one.world other.world

/-- A plugin that does the same in worlds that are alike. -/
def Plugin.LooksOnlyAt (plugin : Plugin) (Alike : World → World → Prop) : Prop :=
  ∀ context request memory one other, Alike one other →
    (plugin.run context request memory one).result =
        (plugin.run context request memory other).result ∧
      (plugin.run context request memory one).memory =
        (plugin.run context request memory other).memory

namespace Instance

/-- An instance after a call. -/
def afterCall (inst : Instance) (call : Call) : Instance :=
  (inst.run call.context call.request call.world).2.1

/-- An instance after some calls in order. -/
def afterCalls (inst : Instance) (calls : List Call) : Instance := calls.foldl afterCall inst

/-- What an instance gives for some calls in order. -/
def results : Instance → List Call → List (Except Failure (List Value))
  | _, [] => []
  | inst, call :: rest =>
    (inst.run call.context call.request call.world).1 :: results (inst.afterCall call) rest

/-- Calls that match are answered alike. -/
theorem results_eq_of_matches {Alike : World → World → Prop} {plugin : Plugin}
    (hlooks : plugin.LooksOnlyAt Alike) {calls others : List Call}
    (h : List.Forall₂ (Call.Matches Alike) calls others) (memory : Value) :
    results ⟨plugin, memory⟩ calls = results ⟨plugin, memory⟩ others := by
  induction h generalizing memory with
  | nil => rfl
  | @cons call other calls others hcall hrest ih =>
    obtain ⟨hresult, hmemory⟩ :=
      hlooks call.context call.request memory call.world other.world hcall.world
    rw [hcall.context, hcall.request] at hresult hmemory
    have hnext : afterCall ⟨plugin, memory⟩ call = afterCall ⟨plugin, memory⟩ other := by
      simp only [afterCall, run, hcall.context, hcall.request, hmemory]
    have hrun : (run ⟨plugin, memory⟩ call.context call.request call.world).1 =
        (run ⟨plugin, memory⟩ other.context other.request other.world).1 := by
      simp only [run, hcall.context, hcall.request, hresult]
    rw [results, results, hrun, hnext]
    exact congrArg _ (ih _)

end Instance

namespace Session

namespace Step

/-- What a step does to the registry, if it does anything to it. -/
def operation? : Step → Option (Registry.Operation Plugin)
  | .register name plugin => some (.register name plugin)
  | .tryRegister name plugin => some (.tryRegister name plugin)
  | .unregister name => some (.unregister name)
  | _ => none

/-- Whether a step puts an instance under a label. -/
def keeps (label : String) : Step → Bool
  | .keep _ other => other = label
  | _ => false

/-- What a step asks of the instance under a label. -/
def requestTo? (label : String) : Step → Option Request
  | .runKept other request => if other = label then some request else none
  | _ => none

end Step

/-- The calls that some steps make of the instance under a label. -/
def callsTo (label : String) (session : Session) : List Step → List Call
  | [] => []
  | step :: rest =>
    ((step.requestTo? label).map fun request => ⟨session.context, request, session.world⟩).toList ++
      callsTo label (session.step step).2 rest

/-- The answers to these calls, among all the answers that some steps get. -/
def answersTo (label : String) (session : Session) (steps : List Step) : List Answer :=
  (steps.zip (session.run steps).1).filterMap fun (step, answer) =>
    (step.requestTo? label).map fun _ => answer

variable {session : Session} {label : String}

theorem run_cons (session : Session) (step : Step) (rest : List Step) :
    session.run (step :: rest) =
      ((session.step step).1 :: ((session.step step).2.run rest).1,
        ((session.step step).2.run rest).2) := rfl

theorem answersTo_cons (label : String) (session : Session) (step : Step) (rest : List Step) :
    session.answersTo label (step :: rest) =
      ((step.requestTo? label).map fun _ => (session.step step).1).toList ++
        (session.step step).2.answersTo label rest := by
  rw [answersTo, run_cons, List.zip_cons_cons, List.filterMap_cons]
  dsimp only
  cases step.requestTo? label with
  | none => rfl
  | some request => rfl

/-- Steps that concern the machine leave the registry and the instances alone. -/
theorem machineStep_frame (session : Session) (step : Step) :
    (session.machineStep step).2.registry = session.registry ∧
      (session.machineStep step).2.instances = session.instances := by
  cases step with
  | remove path =>
    rw [machineStep]
    split <;> exact ⟨rfl, rfl⟩
  | _ => exact ⟨rfl, rfl⟩

theorem adopt_frame (session : Session) (result : Except LoadProblem Settings) :
    (session.adopt result).2.registry = session.registry ∧
      (session.adopt result).2.instances = session.instances := by
  cases result <;> exact ⟨rfl, rfl⟩

theorem runInstance_registry (session : Session) (label : String) (request : Request) :
    (session.runInstance label request).2.registry = session.registry := by
  rw [runInstance]
  split <;> rfl

theorem runInstance_of_find? {inst : Instance} (h : session.instances.find? label = some inst)
    (request : Request) :
    (session.runInstance label request).1 =
        .values (inst.run session.context request session.world).1 ∧
      (session.runInstance label request).2.instances.find? label =
        some (inst.afterCall ⟨session.context, request, session.world⟩) := by
  rw [runInstance, h]
  exact ⟨rfl, Entries.find?_insert_self _ _ _⟩

theorem runInstance_of_ne {other : String} (h : other ≠ label) (request : Request) :
    (session.runInstance other request).2.instances.find? label =
      session.instances.find? label := by
  rw [runInstance]
  split
  · rfl
  · exact Entries.find?_insert_of_ne (Ne.symm h) _ _

theorem tryRegister_step (session : Session) (name : String) (plugin : Plugin) :
    (session.step (.tryRegister name plugin)).2 =
      { session with registry := session.registry.apply (.tryRegister name plugin) } := by
  show (session.registryStep (.tryRegister name plugin)).2 = _
  rw [registryStep, Registry.apply]
  cases session.registry.tryRegister name plugin with
  | error failure => rfl
  | ok registry => rfl

/-- A change of the registry changes nothing else. -/
theorem step_of_operation {step : Step} {operation : Registry.Operation Plugin}
    (h : step.operation? = some operation) (session : Session) :
    (session.step step).2 = { session with registry := session.registry.apply operation } := by
  cases step with
  | register name plugin =>
    obtain rfl := Option.some.inj h
    rfl
  | tryRegister name plugin =>
    obtain rfl := Option.some.inj h
    exact tryRegister_step session name plugin
  | unregister name =>
    obtain rfl := Option.some.inj h
    rfl
  | _ => cases h

/-- Nothing but a change of the registry changes it. -/
theorem registry_step_of_none {step : Step} (h : step.operation? = none) (session : Session) :
    (session.step step).2.registry = session.registry := by
  cases step with
  | register name plugin => cases h
  | tryRegister name plugin => cases h
  | unregister name => cases h
  | runKept label request => exact runInstance_registry session label request
  | keep name label =>
    show (session.registryStep (.keep name label)).2.registry = _
    rw [registryStep]
    split <;> rfl
  | settingsFromFile path => exact (adopt_frame session _).1
  | loadSettings path => exact (adopt_frame session _).1
  | remove path => exact (machineStep_frame session _).1
  | _ => rfl

/-- An instance is touched only by the steps that keep one under its label or run it. -/
theorem find?_step_of_others {step : Step} (hkeeps : step.keeps label = false)
    (hrequest : step.requestTo? label = none) (session : Session) :
    (session.step step).2.instances.find? label = session.instances.find? label := by
  cases step with
  | tryRegister name plugin => rw [tryRegister_step]
  | runKept other request =>
    have hne : other ≠ label := by
      rintro rfl
      rw [Step.requestTo?, if_pos rfl] at hrequest
      cases hrequest
    exact runInstance_of_ne hne request
  | keep name other =>
    have hne : other ≠ label := of_decide_eq_false hkeeps
    show (session.registryStep (.keep name other)).2.instances.find? label = _
    rw [registryStep]
    split
    · rfl
    · exact Entries.find?_insert_of_ne (Ne.symm hne) _ _
  | settingsFromFile path => rw [step, (adopt_frame session _).2]
  | loadSettings path => rw [step, (adopt_frame session _).2]
  | remove path => exact congrArg (Entries.find? label) (machineStep_frame session _).2
  | _ => rfl

/-- After any steps the registry is what the changes among them have made of it. -/
theorem registry_run (session : Session) (steps : List Step) :
    (session.run steps).2.registry =
      session.registry.after (steps.filterMap Step.operation?) := by
  induction steps generalizing session with
  | nil => rfl
  | cons step rest ih =>
    rw [run_cons, ih]
    cases h : step.operation? with
    | none => rw [List.filterMap_cons_none h, registry_step_of_none h]
    | some operation =>
      rw [List.filterMap_cons_some h, Registry.after_cons, step_of_operation h]

/-- An instance answers its own calls, and remembers these and nothing else. -/
theorem answersTo_eq_results {inst : Instance} {steps : List Step}
    (hinst : session.instances.find? label = some inst)
    (hkept : ∀ step ∈ steps, step.keeps label = false) :
    session.answersTo label steps =
        (inst.results (session.callsTo label steps)).map Answer.values ∧
      (session.run steps).2.instances.find? label =
        some (inst.afterCalls (session.callsTo label steps)) := by
  induction steps generalizing session inst with
  | nil => exact ⟨rfl, hinst⟩
  | cons step rest ih =>
    obtain ⟨hstep, hrest⟩ := List.forall_mem_cons.1 hkept
    rw [answersTo_cons, callsTo, run_cons]
    cases hrequest : step.requestTo? label with
    | none =>
      rw [← find?_step_of_others hstep hrequest session] at hinst
      exact ih hinst hrest
    | some request =>
      obtain rfl : step = .runKept label request := by
        cases step with
        | runKept other asked =>
          rw [Step.requestTo?] at hrequest
          split at hrequest
          · next hother =>
            obtain rfl := Option.some.inj hrequest
            rw [hother]
          · cases hrequest
        | _ => cases hrequest
      obtain ⟨hanswer, hnext⟩ := runInstance_of_find? hinst request
      obtain ⟨hanswers, hlast⟩ := ih hnext hrest
      refine ⟨?_, hlast⟩
      exact congrArg₂ List.cons hanswer hanswers

/-- What is kept is a fresh instance, and nothing else changes. -/
theorem step_keep {name : String} {plugin : Plugin}
    (h : session.registry.held? name = some plugin) :
    session.step (.keep name label) =
      (.ok, { session with instances := session.instances.insert label plugin.fresh }) := by
  show session.registryStep (.keep name label) = _
  rw [registryStep, Registry.get_of_held? h]

theorem answersTo_of_keep {name : String} {plugin : Plugin} {steps : List Step}
    (h : session.registry.held? name = some plugin)
    (hkept : ∀ step ∈ steps, step.keeps label = false) :
    (session.step (.keep name label)).2.answersTo label steps =
      (plugin.fresh.results ((session.step (.keep name label)).2.callsTo label steps)).map
        Answer.values := by
  refine (answersTo_eq_results ?_ hkept).1
  rw [step_keep h]
  exact Entries.find?_insert_self _ _ _

/-- A run through the registry is the first run of a fresh instance, once the options are found
to be valid. -/
theorem run_of_held? {registry : Registry} {name : String} {plugin : Plugin}
    (h : registry.held? name = some plugin) (context : Context) (request : Request)
    (world : World) :
    registry.run name context request world =
      match plugin.validate request.options with
      | .error failure => (.error failure, world)
      | .ok () => ((plugin.fresh.run context request world).1,
          (plugin.fresh.run context request world).2.2) := by
  have hplugin : plugin.fresh.plugin = plugin := rfl
  rw [Registry.run, Registry.get_of_held? h]
  cases hvalid : plugin.validate request.options with
  | error failure => simp only [hplugin, hvalid]
  | ok valid => simp only [hplugin, hvalid]

/-- An instance answers as its plugin does from the start on the calls it has had, whatever else
happens in between, and calls that match in another history are answered alike.  Runs through the
registry are first runs of the plugins that the changes of the registry have left there, whoever
has run before, and these changes touch nothing but the registry. -/
theorem instances_share_nothing {name : String} {plugin : Plugin} {steps : List Step}
    (hplugin : session.registry.held? name = some plugin)
    (hkept : ∀ step ∈ steps, step.keeps label = false) :
    ((session.step (.keep name label)).2.answersTo label steps =
        (plugin.fresh.results ((session.step (.keep name label)).2.callsTo label steps)).map
          Answer.values) ∧
      (∀ (Alike : World → World → Prop) (session' : Session) (name' label' : String)
        (steps' : List Step), plugin.LooksOnlyAt Alike →
        session'.registry.held? name' = some plugin →
        (∀ step ∈ steps', step.keeps label' = false) →
        List.Forall₂ (Call.Matches Alike)
          ((session.step (.keep name label)).2.callsTo label steps)
          ((session'.step (.keep name' label')).2.callsTo label' steps') →
        (session.step (.keep name label)).2.answersTo label steps =
          (session'.step (.keep name' label')).2.answersTo label' steps') ∧
      (∀ name' plugin' context request world,
        (session.registry.after (steps.filterMap Step.operation?)).held? name' = some plugin' →
        ((session.step (.keep name label)).2.run steps).2.registry.run name' context request world =
          match plugin'.validate request.options with
          | .error failure => (.error failure, world)
          | .ok () => ((plugin'.fresh.run context request world).1,
              (plugin'.fresh.run context request world).2.2)) ∧
      ∀ (between : Session) (step : Step) (operation : Registry.Operation Plugin),
        step.operation? = some operation →
        (between.step step).2 = { between with registry := between.registry.apply operation } := by
  have hown := answersTo_of_keep hplugin hkept
  refine ⟨hown, ?_, ?_, fun between step operation h => step_of_operation h between⟩
  · intro Alike session' name' label' steps' hlooks hplugin' hkept' hmatches
    rw [hown, answersTo_of_keep hplugin' hkept']
    exact congrArg _ (Instance.results_eq_of_matches hlooks hmatches plugin.initial)
  · intro name' plugin' context request world hplugin'
    have hregistry : ((session.step (.keep name label)).2.run steps).2.registry =
        session.registry.after (steps.filterMap Step.operation?) := by
      rw [registry_run, step_keep hplugin]
    rw [hregistry]
    exact run_of_held? hplugin' context request world

/-- A session with a registry of one plugin, which counts its runs. -/
def countingSession : Session :=
  ⟨Registry.empty.register "counting" Lookup.Sample.counting, ⟨.default, none⟩,
    .still .empty ⟨[], none⟩, []⟩

/-- Two runs of an instance, between which another one is run, the name of both is given to
another plugin, and that one is run as well. -/
def countedSteps : List Step :=
  [.runKept "mine" .empty, .keep "counting" "other", .runKept "other" .empty,
    .unregister "counting", .register "counting" Lookup.Sample.reverse,
    .run "counting" (Request.ofTerms ["abc"]) none, .runKept "mine" .empty]

theorem instances_share_nothing_counted :
    countingSession.registry.held? "counting" = some Lookup.Sample.counting ∧
      (∀ step ∈ countedSteps, step.keeps "mine" = false) ∧
      (countingSession.step (.keep "counting" "mine")).2.answersTo "mine" countedSteps =
        [.values (.ok [.int 1]), .values (.ok [.int 2])] := by
  have hplugin : countingSession.registry.held? "counting" = some Lookup.Sample.counting := rfl
  have hkept : ∀ step ∈ countedSteps, step.keeps "mine" = false := by
    simp [countedSteps, Step.keeps]
  exact ⟨hplugin, hkept, (instances_share_nothing hplugin hkept).1⟩

end Session

end LookupEngine
