import Mathlib.Data.List.Forall2
import LookupEngine.Proofs.Lookup.Cancellation
import LookupEngine.Proofs.Lookup.Strictness
/-!
# Commands in order

A pipe hands its commands to the runner one after the other, each of them once and all with the
same directory, and it goes no further than the first that does not end well.  So the commands
that are handed over are the first ones of the list, whatever the runner is and whatever it
remembers, and the values stand in the order of the commands that have written them.
-/

namespace LookupEngine.Lookup.Command

open LookupEngine.Action

variable {State : Type}

/-- The directory that commands run in: the one that the options ask for, or else the working
directory. -/
inductive RunsIn (context : Context) (environment : Environment) (options : Options) :
    Option String → Prop
  | asked {path : String} (h : options.text? "cwd" = some path) :
    RunsIn context environment options (some (context.resolve environment path))
  | workDir (h : options.text? "cwd" = none) : RunsIn context environment options context.workDir

/-- Some commands run one after the other, each in the state that the one before it leaves, and
all of them exit with 0. -/
inductive Completes (runner : Runner State) (directory : Option String) :
    State → List String → List Output → State → Prop
  | nil (state : State) : Completes runner directory state [] [] state
  | cons {state between after : State} {command : String} {rest : List String} {output : Output}
      {outputs : List Output}
      (hrun : (runner command directory).perform state = (.ok output, between))
      (hcode : output.code = 0) (hrest : Completes runner directory between rest outputs after) :
      Completes runner directory state (command :: rest) (output :: outputs) after

/-- A command does not end well: the runner fails, or the command exits with another code. -/
inductive Fails (runner : Runner State) (directory : Option String) (state : State)
    (command : String) : Failure → State → Prop
  | error {failure : Failure} {after : State}
    (hrun : (runner command directory).perform state = (.error failure, after)) :
    Fails runner directory state command failure after
  | exit {output : Output} {after : State}
    (hrun : (runner command directory).perform state = (.ok output, after))
    (hcode : output.code ≠ 0) :
    Fails runner directory state command
      (.sourceUnavailable command (.exit output.code (Text.trim output.stderr))) after

/-- Nobody has cancelled when a command is due. -/
def StaysLive (isCancelled : State → Bool) (runner : Runner State) (directory : Option String)
    (state : State) (commands : List String) : Prop :=
  ∀ done command rest outputs between, commands = done ++ command :: rest →
    Completes runner directory state done outputs between → isCancelled between = false

/-- The value of an output is the text that has been written, without the blanks at its end if
these are to be stripped. -/
def Gives (rstrip : Bool) (output : Output) (value : Value) : Prop :=
  ∃ text blanks, value = .string text ∧ output.stdout.toList = text.toList ++ blanks ∧
    File.Clears rstrip Text.isBlank blanks text.toList.getLast?

/-- What a pipe hands over and how it answers. -/
structure HandsOver (runner : Runner State) (directory : Option String) (rstrip : Bool)
    (state : State) (commands : List String) (calls : List (String × Option String))
    (answer : Except Failure (List Value) × State) : Prop where
  in_order : ∃ done rest, commands = done ++ rest ∧
    calls = done.map fun command => (command, directory)
  ok_iff : (∃ values, answer.1 = .ok values) ↔
    ∃ outputs after, Completes runner directory state commands outputs after
  ok : ∀ outputs after, Completes runner directory state commands outputs after →
    calls = (commands.map fun command => (command, directory)) ∧
      ∃ values, answer = (.ok values, after) ∧ values.length = commands.length ∧
        List.Forall₂ (Gives rstrip) outputs values
  error : ∀ done command rest outputs between failure after, commands = done ++ command :: rest →
    Completes runner directory state done outputs between →
    Fails runner directory between command failure after →
    calls = (done ++ [command]).map (fun command => (command, directory)) ∧
      answer = (.error failure, after)

/-- The value of an output. -/
def valueOf (rstrip : Bool) (output : Output) : Value :=
  .string (if rstrip then Text.trimEnd output.stdout else output.stdout)

theorem gives_valueOf (rstrip : Bool) (output : Output) :
    Gives rstrip output (valueOf rstrip output) := by
  obtain ⟨blanks, htext, hclears⟩ :=
    File.exists_clears_back rstrip Text.isBlank output.stdout.toList
  refine ⟨_, blanks, rfl, ?_⟩
  cases rstrip with
  | false => exact ⟨htext, hclears⟩
  | true =>
    rw [if_pos rfl, Text.trimEnd, String.toList_ofList]
    exact ⟨htext, hclears⟩

section

variable {runner : Runner State} {directory : Option String} {state after : State}
  {command : String} {commands : List String} {outputs : List Output}

theorem Completes.length_eq (h : Completes runner directory state commands outputs after) :
    outputs.length = commands.length := by
  induction h with
  | nil state => rfl
  | cons hrun hcode hrest ih => rw [List.length_cons, List.length_cons, ih]

/-- Either all commands end well, or there is a first that does not. -/
theorem completes_or_fails (runner : Runner State) (directory : Option String) (state : State)
    (commands : List String) :
    (∃ outputs after, Completes runner directory state commands outputs after) ∨
      ∃ done command rest outputs between failure after, commands = done ++ command :: rest ∧
        Completes runner directory state done outputs between ∧
        Fails runner directory between command failure after := by
  induction commands generalizing state with
  | nil => exact .inl ⟨[], state, .nil state⟩
  | cons command rest ih =>
    rcases hrun : (runner command directory).perform state with ⟨failure | output, between⟩
    · exact .inr ⟨[], command, rest, [], state, failure, between, rfl, .nil state, .error hrun⟩
    by_cases hcode : output.code = 0
    · rcases ih between with ⟨outputs, after, hrest⟩ | ⟨done, next, later, outputs, last, failure,
        after, rfl, hdone, hfails⟩
      · exact .inl ⟨_, after, .cons hrun hcode hrest⟩
      · exact .inr ⟨command :: done, next, later, _, last, failure, after, rfl,
          .cons hrun hcode hdone, hfails⟩
    · exact .inr ⟨[], command, rest, [], state, _, between, rfl, .nil state, .exit hrun hcode⟩

/-! ## One command after the other -/

theorem perform_one_of_exit_zero {output : Output} (rstrip : Bool)
    (hrun : (runner command directory).perform state = (.ok output, after))
    (hcode : output.code = 0) :
    (one runner ⟨rstrip, directory⟩ command).perform state =
      (.ok [valueOf rstrip output], after) := by
  rw [one, perform_bind_of_ok _ hrun]
  dsimp only
  rw [if_pos hcode]
  rfl

theorem perform_one_of_fails {failure : Failure} (rstrip : Bool)
    (h : Fails runner directory state command failure after) :
    (one runner ⟨rstrip, directory⟩ command).perform state = (.error failure, after) := by
  cases h with
  | error hrun => rw [one, perform_bind_of_error _ hrun]
  | exit hrun hcode =>
    rw [one, perform_bind_of_ok _ hrun]
    dsimp only
    rw [if_neg hcode]
    rfl

variable {isCancelled : State → Bool}

theorem StaysLive.head {rest : List String}
    (h : StaysLive isCancelled runner directory state (command :: rest)) :
    isCancelled state = false :=
  h [] command rest [] state rfl (.nil state)

theorem StaysLive.tail {between : State} {output : Output} {rest : List String}
    (h : StaysLive isCancelled runner directory state (command :: rest))
    (hrun : (runner command directory).perform state = (.ok output, between))
    (hcode : output.code = 0) : StaysLive isCancelled runner directory between rest :=
  fun done next later outputs last hcommands hdone =>
    h (command :: done) next later (output :: outputs) last (congrArg (command :: ·) hcommands)
      (.cons hrun hcode hdone)

theorem StaysLive.front {done rest : List String}
    (h : StaysLive isCancelled runner directory state (done ++ rest)) :
    StaysLive isCancelled runner directory state done := by
  rintro earlier next later outputs between rfl hearlier
  exact h earlier next (later ++ rest) outputs between (by simp) hearlier

/-- Commands that all exit with 0 are all run, and each gives its value. -/
theorem perform_run_of_completes (rstrip : Bool)
    (hlive : StaysLive isCancelled runner directory state commands)
    (h : Completes runner directory state commands outputs after) :
    (run isCancelled runner ⟨rstrip, directory⟩ commands).perform state =
      (.ok (outputs.map (valueOf rstrip)), after) := by
  induction h with
  | nil state => rfl
  | cons hrun hcode hrest ih =>
    have hlater := ih (hlive.tail hrun hcode)
    rw [run] at hlater
    rw [run, perform_collect_cons_of_not _ _ hlive.head,
      perform_one_of_exit_zero rstrip hrun hcode, joined, hlater]
    rfl

/-- The first command that does not end well ends the run, whatever stands behind it. -/
theorem perform_run_of_fails {done rest : List String} {between : State} {failure : Failure}
    (rstrip : Bool) (hlive : StaysLive isCancelled runner directory state (done ++ command :: rest))
    (hdone : Completes runner directory state done outputs between)
    (hfails : Fails runner directory between command failure after) :
    (run isCancelled runner ⟨rstrip, directory⟩ (done ++ command :: rest)).perform state =
      (.error failure, after) :=
  perform_collect_of_error isCancelled _ (perform_run_of_completes rstrip hlive.front hdone)
    (hlive done command rest outputs between rfl hdone) (perform_one_of_fails rstrip hfails) rest

/-! ## The record of a run -/

theorem Completes.recorded (h : Completes runner directory state commands outputs after)
    (record : List (String × Option String)) :
    Completes (recorded runner) directory (state, record) commands outputs
      (after, record ++ commands.map fun command => (command, directory)) := by
  induction h generalizing record with
  | nil state =>
    rw [List.map_nil, List.append_nil]
    exact .nil _
  | cons hrun hcode hrest ih =>
    rw [List.map_cons, List.append_cons]
    refine .cons ?_ hcode (ih _)
    rw [perform_recorded, hrun]

theorem Completes.of_recorded {between last : State × List (String × Option String)}
    (h : Completes (Command.recorded runner) directory between commands outputs last) :
    Completes runner directory between.1 commands outputs last.1 := by
  induction h with
  | nil between => exact .nil _
  | @cons before between last command rest output outputs hrun hcode hrest ih =>
    rw [perform_recorded, Prod.mk.injEq] at hrun
    obtain ⟨hresult, rfl⟩ := hrun
    exact .cons (Prod.ext hresult rfl) hcode ih

theorem Fails.recorded {failure : Failure} (h : Fails runner directory state command failure after)
    (record : List (String × Option String)) :
    Fails (recorded runner) directory (state, record) command failure
      (after, record ++ [(command, directory)]) := by
  cases h with
  | error hrun =>
    apply Fails.error
    rw [perform_recorded, hrun]
  | exit hrun hcode =>
    refine Fails.exit ?_ hcode
    rw [perform_recorded, hrun]

/-- Keeping a record cancels nothing. -/
theorem StaysLive.recorded (h : StaysLive isCancelled runner directory state commands)
    (record : List (String × Option String)) :
    StaysLive (fun recording => isCancelled recording.1) (recorded runner) directory
      (state, record) commands :=
  fun done command rest outputs between hcommands hdone =>
    h done command rest outputs between.1 hcommands hdone.of_recorded

theorem handed_of_completes (rstrip : Bool)
    (hlive : StaysLive isCancelled runner directory state commands)
    (h : Completes runner directory state commands outputs after) :
    handed isCancelled runner ⟨rstrip, directory⟩ commands state =
      commands.map fun command => (command, directory) := by
  -- The runner that keeps a record is a runner as well, so it runs as any other does.
  rw [handed, perform_run_of_completes rstrip (hlive.recorded []) (h.recorded [])]
  rfl

theorem handed_of_fails {done rest : List String} {between : State} {failure : Failure}
    (rstrip : Bool) (hlive : StaysLive isCancelled runner directory state (done ++ command :: rest))
    (hdone : Completes runner directory state done outputs between)
    (hfails : Fails runner directory between command failure after) :
    handed isCancelled runner ⟨rstrip, directory⟩ (done ++ command :: rest) state =
      (done ++ [command]).map fun command => (command, directory) := by
  rw [handed, perform_run_of_fails rstrip (hlive.recorded []) (hdone.recorded [])
    (hfails.recorded _), List.map_append]
  rfl

theorem handsOver_run (rstrip : Bool)
    (hlive : StaysLive isCancelled runner directory state commands) :
    HandsOver runner directory rstrip state commands
      (handed isCancelled runner ⟨rstrip, directory⟩ commands state)
      ((run isCancelled runner ⟨rstrip, directory⟩ commands).perform state) where
  in_order := by
    rcases completes_or_fails runner directory state commands with ⟨outputs, after, h⟩ |
      ⟨done, command, rest, outputs, between, failure, after, rfl, hdone, hfails⟩
    · exact ⟨commands, [], (List.append_nil _).symm, handed_of_completes rstrip hlive h⟩
    · exact ⟨done ++ [command], rest, by simp, handed_of_fails rstrip hlive hdone hfails⟩
  ok_iff := by
    constructor
    · rintro ⟨values, hvalues⟩
      rcases completes_or_fails runner directory state commands with h |
        ⟨done, command, rest, outputs, between, failure, after, rfl, hdone, hfails⟩
      · exact h
      · rw [perform_run_of_fails rstrip hlive hdone hfails] at hvalues
        cases hvalues
    · rintro ⟨outputs, after, h⟩
      exact ⟨_, congrArg Prod.fst (perform_run_of_completes rstrip hlive h)⟩
  ok outputs after h := by
    refine ⟨handed_of_completes rstrip hlive h, _, perform_run_of_completes rstrip hlive h, ?_, ?_⟩
    · rw [List.length_map, h.length_eq]
    · rw [List.forall₂_map_right_iff]
      exact List.forall₂_same.2 fun output _ => gives_valueOf rstrip output
  error := by
    rintro done command rest outputs between failure after rfl hdone hfails
    exact ⟨handed_of_fails rstrip hlive hdone hfails,
      perform_run_of_fails rstrip hlive hdone hfails⟩

end

theorem manner_of_runsIn {context : Context} {environment : Environment} {options : Options}
    {directory : Option String} (h : RunsIn context environment options directory) :
    manner context environment options = ⟨options.flagOr "rstrip" true, directory⟩ := by
  cases h with
  | asked h =>
    rw [manner, h]
    rfl
  | workDir h =>
    rw [manner, h]
    rfl

/-- While nobody cancels, a pipe hands over the first of its commands, up to the first that does
not end well or else all of them, and it answers as the commands that have been handed over end.
This holds of any runner over any state, and of the plugin with any runner. -/
theorem run_hands_over_in_order :
    (∀ (State : Type) (isCancelled : State → Bool) (runner : Runner State) (context : Context)
      (environment : Environment) (options : Options) (directory : Option String) (state : State)
      (commands : List String), RunsIn context environment options directory →
      StaysLive isCancelled runner directory state commands →
      HandsOver runner directory (options.flagOr "rstrip" true) state commands
        (handed isCancelled runner (manner context environment options) commands state)
        ((run isCancelled runner (manner context environment options) commands).perform state)) ∧
      ∀ (runner : Settings → Runner World) (context : Context) (request : Request)
        (directory : Option String) (world : World),
        RunsIn context world.environment request.options directory →
        StaysLive World.isCancelled (runner context.settings) directory world request.terms →
        HandsOver (runner context.settings) directory (request.options.flagOr "rstrip" true) world
          request.terms
          (handed World.isCancelled (runner context.settings)
            (manner context world.environment request.options) request.terms world)
          (((pipeWith runner).action context request).perform world) := by
  constructor
  · intro State isCancelled runner context environment options directory state commands hdirectory
      hlive
    rw [manner_of_runsIn hdirectory]
    exact handsOver_run _ hlive
  · intro runner context request directory world hdirectory hlive
    rw [perform_pipe, manner_of_runsIn hdirectory]
    exact handsOver_run _ hlive

/-- A runner that repeats the command and counts, until it has had enough. -/
def tiring : Runner Nat := fun command _ => do
  let count ← get
  set (count + 1)
  pure ⟨if count = 2 then 3 else 0, command ++ " \n", " tired\n"⟩

def tiringOptions : Options := [("cwd", .string "logs"), ("rstrip", .bool false)]

def tiringManner : Manner := manner ⟨.default, some "/srv"⟩ ⟨[], none⟩ tiringOptions

def fourCommands : List String := ["again", "again", "again", "again"]

theorem fails_tiring :
    Fails tiring (some "/srv/logs") 2 "again"
      (.sourceUnavailable "again" (.exit 3 "tired")) 3 := by
  have hrun : (tiring "again" (some "/srv/logs")).perform 2 =
      (.ok ⟨3, "again \n", " tired\n"⟩, 3) := by
    decide +kernel
  have htrim : Text.trim " tired\n" = "tired" := by decide +kernel
  exact htrim ▸ .exit hrun (by decide)

/-- Of four commands that look the same the third fails, so it is the last that is handed over. -/
theorem run_hands_over_in_order_until_tired :
    RunsIn ⟨.default, some "/srv"⟩ ⟨[], none⟩ tiringOptions (some "/srv/logs") ∧
      StaysLive (fun _ => false) tiring (some "/srv/logs") 0 fourCommands ∧
      handed (fun _ => false) tiring tiringManner fourCommands 0 =
        [("again", some "/srv/logs"), ("again", some "/srv/logs"), ("again", some "/srv/logs")] ∧
      (run (fun _ => false) tiring tiringManner fourCommands).perform 0 =
        (.error (.sourceUnavailable "again" (.exit 3 "tired")), 3) := by
  have hpath : Context.resolve ⟨.default, some "/srv"⟩ ⟨[], none⟩ "logs" = "/srv/logs" := by
    decide +kernel
  have hdirectory : RunsIn ⟨.default, some "/srv"⟩ ⟨[], none⟩ tiringOptions (some "/srv/logs") :=
    hpath ▸ .asked rfl
  have hlive : StaysLive (fun _ => false) tiring (some "/srv/logs") 0 fourCommands :=
    fun _ _ _ _ _ _ _ => rfl
  have hdone : Completes tiring (some "/srv/logs") 0 ["again", "again"] _ 2 :=
    .cons rfl rfl (.cons rfl rfl (.nil 2))
  exact ⟨hdirectory, hlive,
    (run_hands_over_in_order.1 Nat _ tiring _ _ _ _ 0 _ hdirectory hlive).error
      ["again", "again"] "again" ["again"] _ 2 _ 3 rfl hdone fails_tiring⟩

end LookupEngine.Lookup.Command
