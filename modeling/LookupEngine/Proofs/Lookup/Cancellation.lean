import LookupEngine.Proofs.Lookup.Turns
import LookupEngine.Proofs.Session.Instances
/-!
# Cancelled lookups

Once the caller has cancelled, a lookup of the program that is asked for anything gives up at the
first term.  What it does before that leaves no trace: options are read, and the client that would
fetch is made, which is where `url` may still find something to complain of.  A record of the
commands that a pipe hands to its runner tells that none of them has been handed over.
-/

namespace LookupEngine

namespace World

variable {world : World}

theorem isCancelled_iff :
    world.isCancelled = true ↔
      ∃ moment, world.cancelledAt = some moment ∧ moment ≤ world.clock := by
  rw [isCancelled]
  cases world.cancelledAt with
  | none => simp
  | some moment => simp

theorem isCancelled_cancel (world : World) : world.cancel.isCancelled = true := by
  rw [isCancelled_iff, cancel, cancelAt]
  cases world.cancelledAt with
  | none => exact ⟨_, rfl, le_rfl⟩
  | some moment => exact ⟨_, rfl, Nat.min_le_left _ _⟩

/-- The time that passes does not take a cancellation back. -/
theorem isCancelled_of_later {after : World} (h : world.isCancelled = true)
    (hclock : world.clock ≤ after.clock) (hmoment : after.cancelledAt = world.cancelledAt) :
    after.isCancelled = true := by
  obtain ⟨moment, hsome, hle⟩ := isCancelled_iff.1 h
  exact isCancelled_iff.2 ⟨moment, hmoment.trans hsome, hle.trans hclock⟩

/-- Who has cancelled cannot cancel later. -/
theorem cancelAt_of_isCancelled (h : world.isCancelled = true) (delay : Nat) :
    world.cancelAt (world.clock + delay) = world := by
  obtain ⟨moment, hsome, hle⟩ := isCancelled_iff.1 h
  have hmin : min (world.clock + delay) moment = moment :=
    Nat.min_eq_right (hle.trans (Nat.le_add_right _ _))
  rw [cancelAt, hsome, Option.map_some, Option.getD_some, hmin, ← hsome]

end World

namespace Action

variable {State α : Type} {isCancelled : State → Bool} {state : State}

theorem perform_collect_of_cancelled (h : isCancelled state = true)
    (one : String → Action State (List α)) (terms : List String) :
    (collect isCancelled one terms).perform state =
      (if terms = [] then .ok [] else .error .cancelled, state) := by
  cases terms with
  | nil => rfl
  | cons term rest => rw [perform_collect_cons, if_pos h, if_neg (List.cons_ne_nil _ _)]

end Action

open LookupEngine.Action

namespace Lookup

theorem Progression.perform_expandAll_of_cancelled {world : World} (h : world.isCancelled = true)
    (total : Nat) (terms : List String) :
    (expandAll total terms).perform world =
      (if terms = [] then .ok [] else .error .cancelled, world) := by
  cases terms with
  | nil => rfl
  | cons term rest =>
    rw [expandAll, perform_bind, perform_check, if_pos h, if_neg (List.cons_ne_nil _ _)]

theorem FirstFound.perform_search_of_cancelled {world : World} (h : world.isCancelled = true)
    (context : Context) (paths candidates : List String) :
    (search context paths candidates).perform world =
      (if candidates = [] then .ok none else .error .cancelled, world) := by
  cases candidates with
  | nil => rfl
  | cons candidate rest =>
    rw [search, perform_bind, perform_check, if_pos h, if_neg (List.cons_ne_nil _ _)]

theorem FirstFound.perform_run_of_cancelled {world : World} (h : world.isCancelled = true)
    (context : Context) (options : Options) (terms : List String) :
    ((run context options terms).perform world).2 = world ∧
      (terms ++ (manner options).files ≠ [] →
        ((run context options terms).perform world).1 = .error .cancelled) := by
  rw [run, perform_bind, perform_search_of_cancelled h]
  by_cases hnone : terms ++ (manner options).files = []
  · rw [if_pos hnone]
    dsimp only
    refine ⟨?_, fun hsome => absurd hnone hsome⟩
    split <;> rfl
  · rw [if_neg hnone]
    exact ⟨rfl, fun _ => rfl⟩

namespace Command

variable {State : Type}

/-- A runner that also writes down what it is handed. -/
def recorded (runner : Runner State) : Runner (State × List (String × Option String)) :=
  fun command directory => do
    let (state, handed) ← get
    let (result, after) := (runner command directory).perform state
    set (after, handed ++ [(command, directory)])
    Action.ofExcept result

/-- The commands that a runner is handed in order, each with its directory. -/
def handed (isCancelled : State → Bool) (runner : Runner State) (manner : Manner)
    (commands : List String) (state : State) : List (String × Option String) :=
  ((run (fun recording => isCancelled recording.1) (recorded runner) manner commands).perform
    (state, [])).2.2

theorem perform_recorded (runner : Runner State) (command : String) (directory : Option String)
    (state : State) (record : List (String × Option String)) :
    (recorded runner command directory).perform (state, record) =
      (((runner command directory).perform state).1,
        ((runner command directory).perform state).2, record ++ [(command, directory)]) := by
  rw [recorded, perform_bind_of_ok _ (perform_get (state, record))]
  dsimp only
  rw [perform_bind_of_ok _ (perform_set _ (state, record)), perform_ofExcept]

theorem handed_of_cancelled {isCancelled : State → Bool} {state : State}
    (h : isCancelled state = true) (runner : Runner State) (manner : Manner)
    (commands : List String) : handed isCancelled runner manner commands state = [] := by
  have hrun := @perform_collect_of_cancelled (State × List (String × Option String)) Value
    (fun recording => isCancelled recording.1) (state, []) h (one (recorded runner) manner)
    commands
  rw [handed, run, hrun]

end Command

/-- A request that gives a lookup of the program something to look up. -/
inductive Asks (request : Request) : Plugin → Prop
  | terms {plugin : Plugin} (hbuiltin : plugin ∈ builtins) (hterms : request.terms ≠ []) :
      Asks request plugin
  | commands (runner : Settings → Command.Runner World) (hterms : request.terms ≠ []) :
      Asks request (pipeWith runner)
  | files (hfiles : (FirstFound.manner request.options).files ≠ []) : Asks request firstFound

theorem mem_builtins_iff {plugin : Plugin} :
    plugin ∈ builtins ↔
      plugin ∈ inTurn ∨ plugin = firstFound ∨ plugin = url ∨ plugin = sequence := by
  simp only [builtins, inTurn, List.mem_cons, List.not_mem_nil, or_false]
  tauto

/-- What a cancelled lookup fails with: `url` may find that it could not fetch anything. -/
inductive Refuses (context : Context) (request : Request) : Plugin → Failure → Prop
  | cancelled (plugin : Plugin) : Refuses context request plugin .cancelled
  | options {failure : Failure} (h : Fetch.validate request.options = .error failure) :
      Refuses context request url failure
  | client {failure : Failure}
      (h : Fetch.client context.settings.http
        (Fetch.manner context.settings.http request.options) = .error failure) :
      Refuses context request url failure

section

variable {world : World} (hcancelled : world.isCancelled = true) (context : Context)
  (request : Request)

include hcancelled

theorem perform_pipe_of_cancelled (runner : Settings → Command.Runner World) :
    ((pipeWith runner).action context request).perform world =
      (if request.terms = [] then .ok [] else .error .cancelled, world) := by
  rw [perform_pipe, Command.run, perform_collect_of_cancelled hcancelled]

theorem perform_url_of_cancelled :
    (url.action context request).perform world =
      match Fetch.client context.settings.http
          (Fetch.manner context.settings.http request.options) with
      | .error failure => (.error failure, world)
      | .ok _ => (if request.terms = [] then .ok [] else .error .cancelled, world) := by
  rw [url, Plugin.action_forgetful, Fetch.run, perform_bind, perform_ofExcept]
  cases Fetch.client context.settings.http (Fetch.manner context.settings.http request.options) with
  | error failure => rfl
  | ok client => exact perform_collect_of_cancelled hcancelled _ _

/-- The lookups that have nothing to do before the first term. -/
theorem perform_inTurn_of_cancelled {plugin : Plugin} (hplugin : plugin ∈ inTurn) :
    (plugin.action context request).perform world =
      (if request.terms = [] then .ok [] else .error .cancelled, world) := by
  simp only [inTurn, List.mem_cons, List.not_mem_nil, or_false] at hplugin
  rcases hplugin with rfl | rfl | rfl | rfl | rfl | rfl | rfl
  · exact perform_collect_of_cancelled hcancelled (File.one context _) _
  · exact perform_collect_of_cancelled hcancelled (Variable.one _) _
  · exact perform_collect_of_cancelled hcancelled (Lines.one context _) _
  · exact perform_collect_of_cancelled hcancelled (FileGlob.one context) _
  · exact perform_collect_of_cancelled hcancelled (Table.one context _) _
  · exact perform_collect_of_cancelled hcancelled (Password.one context _) _
  · exact perform_pipe_of_cancelled hcancelled context request _

/-- No lookup of the program changes anything. -/
theorem world_of_cancelled {plugin : Plugin} (hplugin : plugin ∈ builtins) :
    ((plugin.action context request).perform world).2 = world := by
  rcases mem_builtins_iff.1 hplugin with hturn | rfl | rfl | rfl
  · rw [perform_inTurn_of_cancelled hcancelled context request hturn]
  · exact (FirstFound.perform_run_of_cancelled hcancelled context _ _).1
  · rw [perform_url_of_cancelled hcancelled]
    split <;> rfl
  · exact congrArg Prod.snd (Progression.perform_expandAll_of_cancelled hcancelled 0 _)

/-- A lookup that is asked for something refuses, and changes nothing. -/
theorem refuses_of_asks {plugin : Plugin} (hasks : Asks request plugin) :
    ∃ failure, Refuses context request plugin failure ∧
      (plugin.action context request).perform world = (.error failure, world) := by
  cases hasks with
  | commands runner hterms =>
    refine ⟨_, .cancelled _, ?_⟩
    rw [perform_pipe_of_cancelled hcancelled, if_neg hterms]
  | files hfiles =>
    obtain ⟨hworld, hfailure⟩ :=
      FirstFound.perform_run_of_cancelled hcancelled context request.options request.terms
    have hfound := hfailure (List.append_ne_nil_of_right_ne_nil _ hfiles)
    exact ⟨_, .cancelled _, Prod.ext hfound hworld⟩
  | terms hbuiltin hterms =>
    rcases mem_builtins_iff.1 hbuiltin with hturn | rfl | rfl | rfl
    · refine ⟨_, .cancelled _, ?_⟩
      rw [perform_inTurn_of_cancelled hcancelled context request hturn, if_neg hterms]
    · obtain ⟨hworld, hfailure⟩ :=
        FirstFound.perform_run_of_cancelled hcancelled context request.options request.terms
      have hfound := hfailure (List.append_ne_nil_of_left_ne_nil hterms _)
      exact ⟨_, .cancelled _, Prod.ext hfound hworld⟩
    · rw [perform_url_of_cancelled hcancelled]
      split
      · next hclient => exact ⟨_, .client hclient, rfl⟩
      · exact ⟨_, .cancelled _, by rw [if_neg hterms]⟩
    · have hrun := Progression.perform_expandAll_of_cancelled hcancelled 0 request.terms
      rw [if_neg hterms] at hrun
      exact ⟨_, .cancelled _, hrun⟩

end

/-- Of the lookups of the program, only `url` refuses options. -/
theorem eq_url_of_validate {request : Request} {plugin : Plugin} (hasks : Asks request plugin)
    {options : Options} {failure : Failure} (h : plugin.validate options = .error failure) :
    plugin = url := by
  cases hasks with
  | commands runner hterms => cases h
  | files hfiles => cases h
  | terms hbuiltin hterms =>
    simp only [builtins, List.mem_cons, List.not_mem_nil, or_false] at hbuiltin
    rcases hbuiltin with rfl | rfl | rfl | rfl | rfl | rfl | rfl | rfl | rfl | rfl
    case inr.inr.inr.inr.inr.inr.inl => rfl
    all_goals cases h

/-- Through a registry, the options are looked at first. -/
theorem refuses_of_run {registry : Registry} {name : String} {plugin : Plugin}
    (hheld : registry.held? name = some plugin) {request : Request} (hasks : Asks request plugin)
    {world : World} (hcancelled : world.isCancelled = true) (context : Context) :
    ∃ failure, Refuses context request plugin failure ∧
      registry.run name context request world = (.error failure, world) := by
  obtain ⟨failure, hrefuses, hrun⟩ := refuses_of_asks hcancelled context request hasks
  rw [Session.run_of_held? hheld]
  cases hvalid : plugin.validate request.options with
  | error problem =>
    obtain rfl := eq_url_of_validate hasks hvalid
    exact ⟨problem, .options hvalid, rfl⟩
  | ok valid => exact ⟨failure, hrefuses, hrun⟩

end Lookup

/-- A plugin that does not take a cancellation back.  Those from elsewhere are handed no means to
do so. -/
def Plugin.StaysCancelled (plugin : Plugin) : Prop :=
  ∀ context request memory world, world.isCancelled = true →
    (plugin.run context request memory world).world.isCancelled = true

namespace Lookup

theorem staysCancelled_of_mem {plugin : Plugin} (h : plugin ∈ builtins) :
    plugin.StaysCancelled := by
  intro context request memory world hcancelled
  have hworld := world_of_cancelled hcancelled context request h
  have hforgets : (plugin.run context request memory world).world =
      ((plugin.action context request).perform world).2 := by
    simp only [builtins, List.mem_cons, List.not_mem_nil, or_false] at h
    rcases h with rfl | rfl | rfl | rfl | rfl | rfl | rfl | rfl | rfl | rfl <;> rfl
  rw [hforgets, hworld]
  exact hcancelled

theorem Sample.staysCancelled_reverse : reverse.StaysCancelled := by
  intro context request memory world hcancelled
  have hworld := congrArg Prod.snd
    (perform_collect_of_cancelled hcancelled reverseTerm request.terms)
  exact (congrArg World.isCancelled hworld).trans hcancelled

end Lookup

end LookupEngine
