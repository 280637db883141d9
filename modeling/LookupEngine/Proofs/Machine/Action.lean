import LookupEngine.Machine.World
/-!
# Performing actions

How the parts of an action act on a state, and how a lookup of several terms acts: one term
after the other, each in the state that the last one left.
-/

namespace LookupEngine.Action

variable {State α β : Type}

@[simp]
theorem perform_pure (value : α) (state : State) :
    (pure value : Action State α).perform state = (.ok value, state) := rfl

@[simp]
theorem perform_get (state : State) :
    (get : Action State State).perform state = (.ok state, state) := rfl

@[simp]
theorem perform_set (next state : State) :
    (set next : Action State PUnit).perform state = (.ok ⟨⟩, next) := rfl

@[simp]
theorem perform_ofExcept (result : Except Failure α) (state : State) :
    (ofExcept result : Action State α).perform state = (result, state) := by
  cases result with
  | error failure => rfl
  | ok value => rfl

theorem perform_bind (action : Action State α) (next : α → Action State β) (state : State) :
    (action >>= next).perform state =
      match action.perform state with
      | (.ok value, state) => (next value).perform state
      | (.error failure, state) => (.error failure, state) := by
  show (ExceptT.bind action next).run.run state = _
  simp only [perform, ExceptT.bind, ExceptT.run, ExceptT.mk, StateT.run_bind]
  rcases StateT.run action state with ⟨_ | value, state⟩ <;> rfl

/-- What follows an action that succeeds goes on from the state it leaves. -/
theorem perform_bind_of_ok {action : Action State α} {value : α} {state between : State}
    (next : α → Action State β) (h : action.perform state = (.ok value, between)) :
    (action >>= next).perform state = (next value).perform between := by
  rw [perform_bind, h]

theorem perform_bind_of_error {action : Action State α} {failure : Failure}
    {state between : State} (next : α → Action State β)
    (h : action.perform state = (.error failure, between)) :
    (action >>= next).perform state = (.error failure, between) := by
  rw [perform_bind, h]

theorem perform_check (isCancelled : State → Bool) (state : State) :
    (check isCancelled).perform state =
      if isCancelled state then (.error .cancelled, state) else (.ok (), state) := by
  rw [check, perform_bind_of_ok _ (perform_get state)]
  split <;> rfl

theorem perform_check_of_not {isCancelled : State → Bool} {state : State}
    (h : isCancelled state = false) :
    (check isCancelled).perform state = (.ok (), state) := by
  rw [perform_check, h]
  rfl

/-- One action after another: what they give is joined, unless one of them fails. -/
def joined (first : Except Failure (List α) × State)
    (second : State → Except Failure (List α) × State) : Except Failure (List α) × State :=
  match first with
  | (.error failure, state) => (.error failure, state)
  | (.ok values, state) =>
    match second state with
    | (.error failure, state) => (.error failure, state)
    | (.ok others, state) => (.ok (values ++ others), state)

theorem snd_joined_ok (values : List α) (state : State)
    (second : State → Except Failure (List α) × State) :
    (joined (.ok values, state) second).2 = (second state).2 := by
  rcases hsecond : second state with ⟨_ | others, after⟩ <;> simp only [joined, hsecond]

theorem joined_assoc (first : Except Failure (List α) × State)
    (second third : State → Except Failure (List α) × State) :
    joined (joined first second) third =
      joined first fun state => joined (second state) third := by
  rcases first with ⟨_ | values, state⟩
  · rfl
  rcases hsecond : second state with ⟨_ | others, between⟩
  · simp only [joined, hsecond]
  rcases hthird : third between with ⟨_ | more, after⟩
  · simp only [joined, hsecond, hthird]
  · simp only [joined, hsecond, hthird, List.append_assoc]

section

variable (isCancelled : State → Bool) (one : String → Action State (List α))

@[simp]
theorem perform_collect_nil (state : State) :
    (collect isCancelled one []).perform state = (.ok [], state) := rfl

theorem perform_collect_cons (term : String) (rest : List String) (state : State) :
    (collect isCancelled one (term :: rest)).perform state =
      if isCancelled state then (.error .cancelled, state)
      else joined ((one term).perform state) (collect isCancelled one rest).perform := by
  rw [collect, perform_bind, perform_check]
  by_cases hcancelled : isCancelled state = true
  · rw [if_pos hcancelled, if_pos hcancelled]
  · rw [if_neg hcancelled, if_neg hcancelled]
    dsimp only
    rw [perform_bind]
    rcases (one term).perform state with ⟨_ | values, between⟩
    · rfl
    dsimp only
    rw [perform_bind]
    rcases hrest : (collect isCancelled one rest).perform between with ⟨_ | others, after⟩
    · simp only [joined, hrest]
    · simp only [joined, hrest, perform_pure]

theorem perform_collect_cons_of_not {state : State} (hlive : isCancelled state = false)
    (term : String) (rest : List String) :
    (collect isCancelled one (term :: rest)).perform state =
      joined ((one term).perform state) (collect isCancelled one rest).perform := by
  rw [perform_collect_cons, hlive, if_neg Bool.false_ne_true]

theorem perform_collect_singleton (term : String) (state : State) :
    (collect isCancelled one [term]).perform state =
      if isCancelled state then (.error .cancelled, state) else (one term).perform state := by
  rw [perform_collect_cons]
  rcases (one term).perform state with ⟨_ | values, after⟩
  · rfl
  · simp only [joined, perform_collect_nil, List.append_nil]

/-- A lookup of two lists of terms goes on with the second where the first one ends. -/
theorem perform_collect_append (front back : List String) (state : State) :
    (collect isCancelled one (front ++ back)).perform state =
      joined ((collect isCancelled one front).perform state)
        (collect isCancelled one back).perform := by
  induction front generalizing state with
  | nil =>
    rw [List.nil_append, perform_collect_nil, joined]
    rcases (collect isCancelled one back).perform state with ⟨_ | others, after⟩ <;> rfl
  | cons term front ih =>
    rw [List.cons_append, perform_collect_cons, perform_collect_cons]
    by_cases hcancelled : isCancelled state = true
    · rw [if_pos hcancelled, if_pos hcancelled]
      rfl
    · rw [if_neg hcancelled, if_neg hcancelled, joined_assoc]
      congr 1
      funext between
      exact ih between

/-- Where no term changes the state, their answers stand one behind the other. -/
theorem perform_collect_of_ok {state : State} (hlive : isCancelled state = false)
    {answers : String → List α} {terms : List String}
    (h : ∀ term ∈ terms, (one term).perform state = (.ok (answers term), state)) :
    (collect isCancelled one terms).perform state = (.ok (terms.flatMap answers), state) := by
  induction terms with
  | nil => rfl
  | cons term rest ih =>
    obtain ⟨hterm, hrest⟩ := List.forall_mem_cons.1 h
    rw [perform_collect_cons_of_not _ _ hlive, hterm, joined, ih hrest, List.flatMap_cons]

/-- A term that fails ends the lookup, whatever comes behind it. -/
theorem perform_collect_of_error {before : List String} {term : String}
    {state between after : State} {values : List α} {failure : Failure}
    (hbefore : (collect isCancelled one before).perform state = (.ok values, between))
    (hlive : isCancelled between = false)
    (hterm : (one term).perform between = (.error failure, after)) (rest : List String) :
    (collect isCancelled one (before ++ term :: rest)).perform state =
      (.error failure, after) := by
  rw [perform_collect_append, hbefore, joined, perform_collect_cons_of_not _ _ hlive, hterm,
    joined]

/-- What every term does to a state, a lookup of several terms does to it. -/
theorem collect_preserves {Related : State → State → Prop} (hrefl : ∀ state, Related state state)
    (htrans : ∀ before between after, Related before between → Related between after →
      Related before after)
    {terms : List String}
    (hone : ∀ term ∈ terms, ∀ state, Related state ((one term).perform state).2)
    (state : State) : Related state ((collect isCancelled one terms).perform state).2 := by
  induction terms generalizing state with
  | nil => exact hrefl state
  | cons term rest ih =>
    obtain ⟨hterm, hrest⟩ := List.forall_mem_cons.1 hone
    rw [perform_collect_cons]
    split
    · exact hrefl state
    have hfirst := hterm state
    rcases hperform : (one term).perform state with ⟨failure | values, between⟩
    · rw [hperform] at hfirst
      exact hfirst
    · rw [hperform] at hfirst
      rw [snd_joined_ok]
      exact htrans state between _ hfirst (ih hrest between)

end

end LookupEngine.Action
