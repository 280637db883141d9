import LookupEngine.Proofs.Machine.Action
import LookupEngine.Proofs.Result
import LookupEngine.Proofs.Shell.Clock
/-!
# Time in a shell

Whatever a shell is told to do, its clock never goes back.  No process has a clock of its own: one
that is started goes on from the clock of the one that starts it, and hands it back.  The functions
that run commands call each other, so one induction on the steps carries a promise for each of
them.
-/

namespace LookupEngine.Shell

open Result

/-- What runs a command does not turn back the time. -/
def Substitution.KeepsTime (substitution : Substitution) : Prop :=
  ∀ cs process, process.world.clock ≤ (substitution cs process).2.world.clock

/-- A change of a process does not turn back the time. -/
def KeepsTime (change : Process → Process) : Prop :=
  ∀ process, process.world.clock ≤ (change process).world.clock

theorem KeepsTime.le_of_le {change : Process → Process} (h : KeepsTime change) {time : Nat}
    {process : Process} (hbefore : time ≤ process.world.clock) :
    time ≤ (change process).world.clock :=
  Nat.le_trans hbefore (h process)

theorem clock_openFile {append : Bool} {path : String} {process after : Process} {sink : Sink}
    (h : openFile append path process = .ok (sink, after)) :
    after.world.clock = process.world.clock := by
  unfold openFile at h
  dsimp only at h
  split at h
  · cases h
    rfl
  · split at h
    · cases h
      rfl
    · split at h <;> cases h
      rfl

theorem clock_giveToEnvironment (process : Process) (name value : List Char) :
    (giveToEnvironment process name value).world.clock = process.world.clock := rfl

theorem clock_sink (sink : Sink) (cs : List Char) (process : Process) :
    (sink.write cs process).world.clock = process.world.clock := by
  cases sink with
  | stream errors => exact congrArg World.clock (Process.world_say process errors cs)
  | file path =>
    simp only [Sink.write]
    split <;> rfl

section

variable {substitution : Substitution} (hsubstitution : substitution.KeepsTime)

include hsubstitution

theorem clock_le_expandPart {part : Part} {process after : Process} {found : Bool × List Char}
    (h : expandPart substitution process part = .ok (found, after)) :
    process.world.clock ≤ after.world.clock := by
  cases part with
  | output quoted command =>
    cases h
    exact hsubstitution command process
  | arithmetic quoted cs =>
    simp only [expandPart] at h
    split at h <;> cases h
    exact Nat.le_refl _
  | _ =>
    cases h
    exact Nat.le_refl _

theorem clock_le_fieldsFrom {word : Word} {done fields : List Field} {field : Field}
    {open_ : Bool} {process after : Process}
    (h : fieldsFrom substitution word done field open_ process = .ok (fields, after)) :
    process.world.clock ≤ after.world.clock := by
  induction word generalizing done field open_ process with
  | nil =>
    cases h
    exact Nat.le_refl _
  | cons part rest ih =>
    rw [fieldsFrom] at h
    split at h
    · cases h
    · next hpart =>
      refine Nat.le_trans (clock_le_expandPart hsubstitution hpart) ?_
      split at h <;> exact ih h

theorem clock_le_textOf {word : Word} {process after : Process} {cs : List Char}
    (h : textOf substitution word process = .ok (cs, after)) :
    process.world.clock ≤ after.world.clock := by
  induction word generalizing process cs with
  | nil =>
    cases h
    exact Nat.le_refl _
  | cons part rest ih =>
    rw [textOf] at h
    split at h
    · cases h
    · next between hpart =>
      refine Nat.le_trans (clock_le_expandPart hsubstitution hpart) ?_
      rcases hrest : textOf substitution rest between with problem | ⟨others, last⟩
      · rw [hrest] at h
        cases h
      · rw [hrest] at h
        cases h
        exact ih hrest

theorem clock_le_arguments {words : List Word} {process after : Process}
    {found : List (List Char)} (h : arguments substitution words process = .ok (found, after)) :
    process.world.clock ≤ after.world.clock := by
  induction words generalizing process found with
  | nil =>
    cases h
    exact Nat.le_refl _
  | cons word rest ih =>
    rw [arguments] at h
    split at h
    · cases h
    · next fields between hfields =>
      refine Nat.le_trans (clock_le_fieldsFrom hsubstitution hfields) ?_
      rcases hrest : arguments substitution rest between with problem | ⟨others, last⟩
      · rw [hrest] at h
        cases h
      · rw [hrest] at h
        cases h
        exact ih hrest

theorem clock_le_assignAll {give : Process → List Char → List Char → Process}
    (hgive : ∀ process name value, (give process name value).world.clock = process.world.clock)
    {assignments : List (List Char × Word)} {process after : Process}
    (h : assignAll substitution give assignments process = .ok after) :
    process.world.clock ≤ after.world.clock := by
  induction assignments generalizing process with
  | nil =>
    cases h
    exact Nat.le_refl _
  | cons assignment rest ih =>
    obtain ⟨name, word⟩ := assignment
    rw [assignAll] at h
    rcases hvalue : textOf substitution (expandTilde process word) process with
      problem | ⟨value, between⟩
    · rw [hvalue] at h
      cases h
    · rw [hvalue] at h
      refine Nat.le_trans (clock_le_textOf hsubstitution hvalue) ?_
      rw [← hgive between name value]
      exact ih h

/-- A redirection may have to run commands to know its file. -/
theorem clock_le_redirectOne {redirect : Redirect} {sinks opened : Sinks}
    {process after : Process}
    (h : redirectOne substitution redirect sinks process = .ok (opened, after)) :
    process.world.clock ≤ after.world.clock := by
  obtain ⟨stream, target⟩ := redirect
  cases target with
  | same other =>
    simp only [redirectOne] at h
    split at h <;> cases h <;> exact Nat.le_refl _
  | read path =>
    obtain ⟨⟨cs, between⟩, hpath, h⟩ := exists_of_bind_eq_ok h
    refine Nat.le_trans (clock_le_textOf hsubstitution hpath) ?_
    dsimp only at h
    split at h <;> cases h <;> exact Nat.le_refl _
  | write path | append path =>
    obtain ⟨⟨cs, between⟩, hpath, h⟩ := exists_of_bind_eq_ok h
    obtain ⟨⟨sink, last⟩, hsink, h⟩ := exists_of_bind_eq_ok h
    cases h
    rw [clock_openFile hsink]
    exact clock_le_textOf hsubstitution hpath

theorem clock_le_redirectAll {redirects : List Redirect} {sinks opened : Sinks}
    {process after : Process}
    (h : redirectAll substitution redirects sinks process = .ok (opened, after)) :
    process.world.clock ≤ after.world.clock := by
  induction redirects generalizing sinks process with
  | nil =>
    cases h
    exact Nat.le_refl _
  | cons redirect rest ih =>
    obtain ⟨⟨between, opened⟩, hone, hrest⟩ := exists_of_bind_eq_ok h
    exact Nat.le_trans (clock_le_redirectOne hsubstitution hone) (ih hrest)

theorem keepsTime_redirected (redirects : List Redirect) {run : Process → Process}
    (hrun : KeepsTime run) : KeepsTime (redirected substitution redirects run) := by
  intro process
  unfold redirected
  split
  · exact hrun process
  split
  · simp
  · next sinks opened hopened =>
    refine Nat.le_trans (clock_le_redirectAll hsubstitution hopened) ?_
    dsimp only
    rw [Process.clock_foldl fun process piece => clock_sink _ _ _]
    exact hrun { opened with written := [] }

end

theorem keepsTime_isolated {run : Process → Process} (hrun : KeepsTime run) :
    KeepsTime (isolated run) :=
  hrun

theorem keepsTime_inAnotherShell (name : String) (parameters : List (List Char))
    {run : Process → Process} (hrun : KeepsTime run) :
    KeepsTime (inAnotherShell name parameters run) :=
  fun process => hrun { process with name, parameters, locals := [], status := 0 }

/-! ## Commands -/

/-- What each function that runs commands promises for a number of steps. -/
structure KeepTime (steps : Nat) : Prop where
  execute : ∀ command, KeepsTime (execute steps command)
  rounds : ∀ until_ test body status, KeepsTime (rounds steps until_ test body status)
  visits : ∀ name values body, KeepsTime (visits steps name values body)
  executeSimple : ∀ assignments words redirects,
    KeepsTime (executeSimple steps assignments words redirects)
  invoke : ∀ name values, KeepsTime (invoke steps name values)
  launch : ∀ name values, KeepsTime (launch steps name values)
  withVariables : ∀ values, KeepsTime (withVariables steps values)
  interpret : ∀ cs, KeepsTime (interpret steps cs)
  substitute : (substitute steps).KeepsTime

namespace KeepTime

variable {steps : Nat} (h : KeepTime steps)

include h

theorem execute_succ (command : Command) : KeepsTime (Shell.execute (steps + 1) command) := by
  intro process
  rw [Shell.execute.eq_def]
  dsimp only
  split
  · exact Nat.le_refl _
  cases command with
  | nothing => exact Nat.le_refl _
  | simple assignments words redirects => exact h.executeSimple _ _ _ process
  | compound body alone redirects =>
    refine keepsTime_redirected h.substitute redirects ?_ process
    intro process
    split
    · exact keepsTime_isolated (h.execute body) process
    · exact h.execute body process
  | pipe left right =>
    have hleft := keepsTime_isolated (h.execute left) { process with written := [] }
    exact (keepsTime_isolated (h.execute right)).le_of_le hleft
  | both left right =>
    have hleft := h.execute left process
    dsimp only
    split
    · exact (h.execute right).le_of_le hleft
    · exact hleft
  | either left right =>
    have hleft := h.execute left process
    dsimp only
    split
    · exact hleft
    · exact (h.execute right).le_of_le hleft
  | sequence left right => exact (h.execute right).le_of_le (h.execute left process)
  | negation body =>
    have hbody := h.execute body process
    dsimp only
    split <;> exact hbody
  | condition test yes no =>
    have htest := h.execute test process
    dsimp only
    split
    · exact htest
    · split
      · exact (h.execute yes).le_of_le htest
      · exact (h.execute no).le_of_le htest
  | loop until_ test body => exact h.rounds until_ test body 0 process
  | each name words body =>
    dsimp only
    split
    · simp
    · next values between hvalues =>
      have hbetween := clock_le_arguments h.substitute hvalues
      exact (h.visits name values body).le_of_le hbetween

theorem rounds_succ (until_ : Bool) (test body : Command) (status : Nat) :
    KeepsTime (Shell.rounds (steps + 1) until_ test body status) := by
  intro process
  rw [Shell.rounds]
  have htest := h.execute test process
  have hbody := (h.execute body).le_of_le htest
  dsimp only
  split
  · exact htest
  split
  · exact htest
  split
  · exact (h.rounds until_ test body _).le_of_le hbody
  · exact (h.rounds until_ test body 0).le_of_le hbody
  · exact hbody
  · exact hbody

theorem visits_succ (name : List Char) (values : List (List Char)) (body : Command) :
    KeepsTime (Shell.visits (steps + 1) name values body) := by
  intro process
  cases values with
  | nil => exact Nat.le_refl _
  | cons value rest =>
    rw [Shell.visits]
    have hassigned := Nat.le_of_eq (Process.clock_assign process name value).symm
    have hbody := (h.execute body).le_of_le hassigned
    split
    · exact (h.visits name rest body).le_of_le hbody
    · exact (h.visits name rest body).le_of_le hbody
    · exact hbody
    · exact hbody

theorem executeSimple_succ (assignments : List (List Char × Word)) (words : List Word)
    (redirects : List Redirect) :
    KeepsTime (Shell.executeSimple (steps + 1) assignments words redirects) := by
  intro process
  rw [Shell.executeSimple.eq_def]
  dsimp only
  split
  · simp
  · next after hwords =>
    split
    · simp
    · next given hgiven =>
      have htime := Nat.le_trans (clock_le_arguments h.substitute hwords)
        (clock_le_assignAll h.substitute Process.clock_assign hgiven)
      refine (keepsTime_redirected h.substitute redirects fun _ => Nat.le_refl _).le_of_le ?_
      split <;> exact htime
  · next name values after hwords =>
    have hafter := clock_le_arguments h.substitute hwords
    split
    · exact hafter
    split
    · simp
    · next given hgiven =>
      have htime := Nat.le_trans hafter
        (clock_le_assignAll h.substitute clock_giveToEnvironment hgiven)
      have hdone := (keepsTime_redirected h.substitute redirects
        (h.invoke (toText name) values)).le_of_le htime
      split <;> exact hdone

theorem invoke_succ (name : String) (values : List (List Char)) :
    KeepsTime (Shell.invoke (steps + 1) name values) := by
  intro process
  rw [Shell.invoke.eq_def]
  dsimp only
  split
  · exact h.interpret _ process
  · exact Nat.le_refl _
  · next program values =>
    have hprogram := h.invoke (toText program) values process
    split <;> exact hprogram
  · split
    · simp
    · split <;> simp
  · exact h.invoke _ _ process
  · split
    · next builtin hbuiltin => exact Nat.le_of_eq (Builtin.clock_run? _ process hbuiltin).symm
    · exact h.launch _ _ process

theorem launch_succ (name : String) (values : List (List Char)) :
    KeepsTime (Shell.launch (steps + 1) name values) := by
  intro process
  rw [Shell.launch.eq_def]
  dsimp only
  split
  · simp
  · simp
  · exact keepsTime_inAnotherShell name values (h.interpret _) process
  split
  · split
    · exact keepsTime_inAnotherShell _ _ (h.interpret _) process
    · exact keepsTime_inAnotherShell name [] (h.interpret _) process
  split
  · simp
  · simp
  · simp [Builtin.run?]
  · simp
  · exact h.withVariables _ process
  · split
    · next utility hutility => exact Utility.clock_le_run? _ process hutility
    · simp

theorem withVariables_succ (values : List (List Char)) :
    KeepsTime (Shell.withVariables (steps + 1) values) := by
  intro process
  cases values with
  | nil => exact Nat.le_of_eq (Utility.clock_printVariables [] process).symm
  | cons value rest =>
    rw [Shell.withVariables.eq_def]
    dsimp only
    split
    · exact h.withVariables rest (giveToEnvironment process _ _)
    · exact h.launch _ rest process

theorem interpret_succ (cs : List Char) : KeepsTime (Shell.interpret (steps + 1) cs) := by
  intro process
  rw [Shell.interpret]
  split
  · simp
  · exact h.execute _ process

theorem substitute_succ : (Shell.substitute (steps + 1)).KeepsTime := by
  intro cs process
  exact keepsTime_isolated (h.interpret cs) { process with written := [], status := 0 }

theorem succ : KeepTime (steps + 1) where
  execute := h.execute_succ
  rounds := h.rounds_succ
  visits := h.visits_succ
  executeSimple := h.executeSimple_succ
  invoke := h.invoke_succ
  launch := h.launch_succ
  withVariables := h.withVariables_succ
  interpret := h.interpret_succ
  substitute := h.substitute_succ

end KeepTime

theorem keepTime_zero : KeepTime 0 where
  execute _ _ := Nat.le_refl _
  rounds _ _ _ _ _ := Nat.le_refl _
  visits _ _ _ _ := Nat.le_refl _
  executeSimple _ _ _ _ := Nat.le_refl _
  invoke _ _ _ := Nat.le_refl _
  launch _ _ _ := Nat.le_refl _
  withVariables _ _ := Nat.le_refl _
  interpret _ _ := Nat.le_refl _
  substitute _ _ := Nat.le_refl _

/-- Whatever a shell is told to do, time does not go back. -/
theorem keepTime (steps : Nat) : KeepTime steps := by
  induction steps with
  | zero => exact keepTime_zero
  | succ steps ih => exact ih.succ

theorem clock_le_call {world : World} {name command : String} {directory : Option String}
    {process : Process} (h : call world name directory command = .ok process) :
    world.clock ≤ process.world.clock := by
  unfold call at h
  split at h
  · cases h
  split at h
  · cases h
  split at h <;> cases h
  exact ((keepTime mostSteps).launch _ _).le_of_le (Nat.le_refl _)

/-- A command that has been run leaves the world at a time that is not earlier. -/
theorem clock_le_runner (name command : String) (directory : Option String) (world : World) :
    world.clock ≤ ((runner name command directory).perform world).2.clock := by
  rw [runner, Action.perform_bind_of_ok _ (Action.perform_get world)]
  cases hcall : call world name directory command with
  | error fault => exact Nat.le_refl _
  | ok process =>
    have hprocess : world.clock ≤ process.world.clock := clock_le_call hcall
    dsimp only
    rw [Action.perform_bind_of_ok _ (Action.perform_set (finish world process) world)]
    cases isCutShort process <;> exact hprocess

end LookupEngine.Shell
