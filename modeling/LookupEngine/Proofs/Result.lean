import Mathlib.Data.List.Basic
/-!
# Results that may be failures

When a result that is passed on is one, and when the results for all items of a list are.
-/

namespace LookupEngine.Result

variable {ε α β : Type}

theorem map_eq_ok_iff {f : α → β} {result : Except ε α} {b : β} :
    result.map f = .ok b ↔ ∃ a, result = .ok a ∧ f a = b := by
  cases result with
  | error problem => simp [Except.map]
  | ok a => simp [Except.map]

theorem map_eq_error_iff {f : α → β} {result : Except ε α} {problem : ε} :
    result.map f = .error problem ↔ result = .error problem := by
  cases result <;> simp [Except.map]

/-- A chain of steps that succeeds has a first one that does. -/
theorem exists_of_bind_eq_ok {first : Except ε α} {next : α → Except ε β}
    {last : β} (h : (first >>= next) = .ok last) :
    ∃ value, first = .ok value ∧ next value = .ok last := by
  cases first with
  | error problem => cases h
  | ok value => exact ⟨value, rfl, h⟩

/-- If each item has a result, so do all of them. -/
theorem mapM_eq_ok_map {items : List α} {f : α → β} {read : α → Except ε β}
    (h : ∀ item ∈ items, read item = .ok (f item)) : items.mapM read = .ok (items.map f) := by
  induction items with
  | nil => rfl
  | cons item rest ih =>
    obtain ⟨hitem, hrest⟩ := List.forall_mem_cons.1 h
    rw [List.mapM_cons, hitem, ih hrest]
    rfl

/-- Each of the results for all items is the result for one of them. -/
theorem exists_mem_of_mapM_eq_ok {items : List α} {results : List β} {read : α → Except ε β}
    (h : items.mapM read = .ok results) {result : β} (hresult : result ∈ results) :
    ∃ item ∈ items, read item = .ok result := by
  induction items generalizing results with
  | nil =>
    obtain rfl := Except.ok.inj h
    cases hresult
  | cons item rest ih =>
    rw [List.mapM_cons] at h
    obtain ⟨first, hfirst, h⟩ := exists_of_bind_eq_ok h
    obtain ⟨others, hothers, h⟩ := exists_of_bind_eq_ok h
    obtain rfl := Except.ok.inj h
    rcases List.mem_cons.1 hresult with rfl | hresult
    · exact ⟨item, List.mem_cons_self, hfirst⟩
    · obtain ⟨other, hother, hread⟩ := ih hothers hresult
      exact ⟨other, List.mem_cons_of_mem item hother, hread⟩

/-- One item without a result is enough, wherever it stands. -/
theorem exists_mapM_eq_error_iff {items : List α} {read : α → Except ε β} :
    (∃ problem, items.mapM read = .error problem) ↔
      ∃ item ∈ items, ∃ problem, read item = .error problem := by
  induction items with
  | nil => simp [pure, Except.pure]
  | cons item rest ih =>
    rw [List.mapM_cons, List.exists_mem_cons_iff, ← ih]
    cases read item with
    | error problem => simp [bind, Except.bind]
    | ok value => cases rest.mapM read <;> simp [bind, Except.bind, pure, Except.pure]

end LookupEngine.Result
