import LookupEngine.Shell
/-!
# Time in builtins and utilities

The builtins of a shell take no time.  Of the utilities only the one that sleeps lets time pass,
and none turns it back.
-/

namespace LookupEngine.Shell

namespace Process

@[simp]
theorem world_say (process : Process) (toErrors : Bool) (cs : List Char) :
    (process.say toErrors cs).world = process.world := by
  rw [say]
  split <;> rfl

@[simp]
theorem world_print (process : Process) (text : String) :
    (process.print text).world = process.world :=
  world_say process false _

@[simp]
theorem world_complain (process : Process) (text : String) :
    (process.complain text).world = process.world :=
  world_say process true _

@[simp]
theorem world_withStatus (process : Process) (status : Nat) :
    (process.withStatus status).world = process.world := rfl

@[simp]
theorem world_leave (process : Process) (status : Nat) :
    (process.leave status).world = process.world := rfl

@[simp]
theorem clock_withDisk (process : Process) (disk : Disk) :
    (process.withDisk disk).world.clock = process.world.clock := rfl

@[simp]
theorem clock_withEnvironment (process : Process) (environment : Environment) :
    (process.withEnvironment environment).world.clock = process.world.clock := rfl

@[simp]
theorem clock_assign (process : Process) (name value : List Char) :
    (process.assign name value).world.clock = process.world.clock := by
  unfold assign
  extract_lets key world
  split <;> rfl

/-- What takes no time for one value takes none for many. -/
theorem clock_foldl {α : Type} {change : Process → α → Process}
    (h : ∀ process value, (change process value).world.clock = process.world.clock)
    (values : List α) (process : Process) :
    (values.foldl change process).world.clock = process.world.clock := by
  induction values generalizing process with
  | nil => rfl
  | cons value rest ih => rw [List.foldl_cons, ih, h]

end Process

/-! ## Builtins -/

namespace Builtin

variable (arguments : List (List Char)) (process : Process)

@[simp]
theorem clock_echo : (echo arguments process).world.clock = process.world.clock := by
  simp only [echo, Process.world_withStatus, Process.world_say]

@[simp]
theorem clock_printf : (printf arguments process).world.clock = process.world.clock := by
  unfold printf
  dsimp only
  split
  · simp
  · rw [Process.world_withStatus, Process.clock_foldl (by simp), Process.world_say]

@[simp]
theorem clock_exit : (exit arguments process).world.clock = process.world.clock := by
  unfold exit
  split
  · rfl
  · split <;> simp

@[simp]
theorem clock_changeDirectory :
    (changeDirectory arguments process).world.clock = process.world.clock := by
  unfold changeDirectory
  extract_lets operands target before
  generalize process.world.disk.status process.world.here (toText target) = status
  split
  · simp only [Process.world_withStatus, Process.world_say, Process.clock_assign]
    rfl
  · split <;> simp only [Process.world_withStatus, Process.world_complain]

theorem clock_exportOne (argument : List Char) :
    (exportOne process argument).world.clock = process.world.clock := by
  rcases h : assignment argument with ⟨name, value⟩
  simp only [exportOne, h]
  split <;> rfl

theorem clock_forget (name : List Char) :
    (forget process name).world.clock = process.world.clock := rfl

@[simp]
theorem clock_test (name : String) :
    (test name arguments process).world.clock = process.world.clock := by
  unfold test
  split <;> simp

@[simp]
theorem clock_bracket : (bracket arguments process).world.clock = process.world.clock := by
  unfold bracket
  split <;> simp

@[simp]
theorem clock_kill : (kill arguments process).world.clock = process.world.clock := by
  rcases h : signal arguments with ⟨name, targets⟩
  simp only [kill, h]
  split
  · split <;> rfl
  · simp only [Process.world_withStatus, Process.world_complain]

theorem clock_readInto (names : List (List Char)) (line : List Char) (process : Process) :
    (readInto names line process).world.clock = process.world.clock := by
  induction names generalizing line process with
  | nil => rfl
  | cons name rest ih =>
    cases rest with
    | nil => exact Process.clock_assign process _ _
    | cons next rest => exact (ih _ _).trans (Process.clock_assign process _ _)

@[simp]
theorem clock_read : (read arguments process).world.clock = process.world.clock := by
  unfold read
  extract_lets names
  split <;> exact clock_readInto names _ _

/-- No builtin takes time. -/
theorem clock_run? {name : String} {builtin : List (List Char) → Process → Process}
    (h : run? name = some builtin) :
    (builtin arguments process).world.clock = process.world.clock := by
  unfold run? at h
  split at h <;> cases h <;>
    simp [Process.clock_foldl clock_exportOne, Process.clock_foldl clock_forget]

end Builtin

/-! ## Utilities -/

namespace Utility

variable (arguments : List (List Char)) (process : Process)

@[simp]
theorem world_complain (text : String) : (complain process text).world = process.world :=
  Process.world_say process true _

theorem clock_content {name : String} {operand cs : List Char} {after : Process}
    (h : content name process operand = .ok (cs, after)) :
    after.world.clock = process.world.clock := by
  unfold content at h
  split at h
  · cases h
    rfl
  · split at h <;> cases h
    rfl

@[simp]
theorem clock_filter (name : String) (f : List Char → List Char) (operands : List (List Char)) :
    (filter name f operands process).world.clock = process.world.clock := by
  refine (Process.clock_foldl ?_ _ _).trans rfl
  intro process operand
  split
  · next h => rw [Process.world_say, clock_content process h]
  · rw [world_complain]

@[simp]
theorem clock_exchange : (exchange arguments process).world.clock = process.world.clock := by
  unfold exchange
  split <;> simp

@[simp]
theorem clock_baseName : (baseName arguments process).world.clock = process.world.clock := by
  unfold baseName
  split <;> simp

@[simp]
theorem clock_directoryName :
    (directoryName arguments process).world.clock = process.world.clock := by
  unfold directoryName
  split <;> simp

@[simp]
theorem clock_sequence : (sequence arguments process).world.clock = process.world.clock := by
  unfold sequence
  dsimp only
  split <;> simp

/-- Time passes, if only until the caller loses patience. -/
theorem clock_le_wait (milliseconds : Nat) :
    process.world.clock ≤ (wait milliseconds process).world.clock := by
  unfold wait
  dsimp only
  split
  · split <;> exact Nat.le_add_right _ _
  · exact Nat.le_add_right _ _

theorem clock_le_sleep : process.world.clock ≤ (sleep arguments process).world.clock := by
  unfold sleep
  split
  · exact clock_le_wait (process.withStatus 0) _
  · simp
  · simp

@[simp]
theorem clock_forEach (name : String)
    (action : Disk → Location → String → Except Fault Unit × Disk)
    (operands : List (List Char)) :
    (forEach name action operands process).world.clock = process.world.clock := by
  refine (Process.clock_foldl ?_ _ _).trans rfl
  intro process operand
  split <;> simp

theorem clock_listOne (options : List Char) (several : Bool) (operand : List Char) :
    (listOne options several process operand).world.clock = process.world.clock := by
  unfold listOne
  dsimp only
  split <;> simp

@[simp]
theorem clock_list : (list arguments process).world.clock = process.world.clock :=
  (Process.clock_foldl (clock_listOne · _ _) _ _).trans rfl

@[simp]
theorem clock_printVariables :
    (printVariables arguments process).world.clock = process.world.clock := by
  unfold printVariables
  dsimp only
  split
  · simp
  · refine (Process.clock_foldl ?_ _ _).trans rfl
    intro process name
    split <;> simp

/-- The utilities do not turn back the time. -/
theorem clock_le_run? {name : String} {utility : List (List Char) → Process → Process}
    (h : run? name = some utility) :
    process.world.clock ≤ (utility arguments process).world.clock := by
  unfold run? at h
  split at h <;> cases h <;>
    simp [head, tail, sort, wordCount, remove, makeDirectory, touch, clock_le_sleep]

end Utility

end LookupEngine.Shell
