import Mathlib.Data.List.Basic
import LookupEngine.Path
import LookupEngine.Proofs.Text.Split
/-!
# The steps of a path

A path is a list of steps, one for each name that is neither empty nor a single dot.  The
directory part of a path is found by reading the text backwards; it begins the path as a text
and has fewer steps.
-/

namespace LookupEngine.Path

/-- The names of a path that lead somewhere. -/
def steps (path : List Char) : List (List Char) :=
  (Text.splitAny (· = '/') path).filter fun name => !name.isEmpty && name ≠ ['.']

/-- A path that leads to a directory on the way of another one: the text of the other begins
with it, and there are steps left to take. -/
structure IsAbove (dir path : String) : Prop where
  begins : dir.toList.IsPrefix path.toList
  shorter : ∃ rest, rest ≠ [] ∧ steps path.toList = steps dir.toList ++ rest

theorem IsAbove.trans {upper dir path : String} (hupper : IsAbove upper dir)
    (hdir : IsAbove dir path) : IsAbove upper path := by
  obtain ⟨first, hfirst, hsteps⟩ := hupper.shorter
  obtain ⟨second, _, hpath⟩ := hdir.shorter
  refine ⟨hupper.begins.trans hdir.begins, first ++ second, ?_, ?_⟩
  · exact fun hnil => hfirst (List.append_eq_nil_iff.1 hnil).1
  · rw [hpath, hsteps, List.append_assoc]

theorem steps_append_slash (front back : List Char) :
    steps (front ++ '/' :: back) = steps front ++ steps back := by
  have hslash : (fun c : Char => decide (c = '/')) '/' = true := by decide
  rw [steps, Text.splitAny_append hslash, List.filter_append]
  rfl

theorem steps_of_no_slash {name : List Char} (hslash : '/' ∉ name) (hne : name ≠ [])
    (hdot : name ≠ ['.']) : steps name = [name] := by
  have hplain : ∀ c ∈ name, ¬ decide (c = '/') = true := by
    intro c hc heq
    rw [decide_eq_true_eq] at heq
    exact hslash (heq ▸ hc)
  rw [steps, Text.splitAny_of_forall_not hplain]
  simp [hne, hdot]

@[simp]
theorem steps_nil : steps [] = [] := by decide

theorem steps_reverse_slash (back : List Char) :
    steps ('/' :: back).reverse = steps back.reverse := by
  rw [List.reverse_cons, steps_append_slash, steps_nil, List.append_nil]

theorem steps_reverse_dot (back : List Char) :
    steps ('.' :: '/' :: back).reverse = steps back.reverse := by
  have hdot : steps ['.'] = [] := by decide
  rw [List.reverse_cons, List.reverse_cons, List.append_assoc, List.singleton_append,
    steps_append_slash, hdot, List.append_nil]

theorem steps_trimBack (back : List Char) :
    steps (trimBack back).reverse = steps back.reverse := by
  induction back using trimBack.induct with
  | case1 => rfl
  | case2 rest hrest ih => rw [trimBack.eq_2 _ hrest, ih, steps_reverse_slash]
  | case3 => rw [trimBack, steps_reverse_dot, steps_reverse_slash]
  | case4 rest hrest ih =>
    rw [trimBack.eq_4 _ hrest, ih, steps_reverse_slash, steps_reverse_dot]
  | case5 back h₁ h₂ h₃ h₄ => rw [trimBack.eq_5 _ h₁ h₂ h₃ h₄]

theorem trimBack_isSuffix (back : List Char) : (trimBack back).IsSuffix back := by
  induction back using trimBack.induct with
  | case1 => exact List.suffix_refl _
  | case2 rest hrest ih =>
    rw [trimBack.eq_2 _ hrest]
    exact ih.trans (List.suffix_cons _ _)
  | case3 => exact List.suffix_cons _ _
  | case4 rest hrest ih =>
    rw [trimBack.eq_4 _ hrest]
    exact ih.trans (List.suffix_cons _ _)
  | case5 back h₁ h₂ h₃ h₄ =>
    exact ⟨[], by rw [trimBack.eq_5 _ h₁ h₂ h₃ h₄, List.nil_append]⟩

/-- What is left ends in a name that leads somewhere, unless nothing but the root or a single
dot is left. -/
theorem trimBack_ends (back : List Char) :
    trimBack back = ['/'] ∨
      (∀ rest, trimBack back ≠ '/' :: rest) ∧ ∀ rest, trimBack back ≠ '.' :: '/' :: rest := by
  induction back using trimBack.induct with
  | case1 => exact .inl rfl
  | case2 rest hrest ih =>
    rw [trimBack.eq_2 _ hrest]
    exact ih
  | case3 => exact .inl rfl
  | case4 rest hrest ih =>
    rw [trimBack.eq_4 _ hrest]
    exact ih
  | case5 back h₁ h₂ h₃ h₄ =>
    rw [trimBack.eq_5 _ h₁ h₂ h₃ h₄]
    exact .inr ⟨h₂, h₄⟩

/-- Read backwards, a path is its last name and what `dropLastName` leaves. -/
theorem exists_lastName (back : List Char) :
    ∃ name, '/' ∉ name ∧ back = name ++ dropLastName back ∧
      (dropLastName back = [] ∨ ∃ more, dropLastName back = '/' :: more) := by
  induction back with
  | nil => exact ⟨[], List.not_mem_nil, rfl, .inl rfl⟩
  | cons c rest ih =>
    by_cases hc : c = '/'
    · have hstop : dropLastName (c :: rest) = c :: rest :=
        List.dropWhile_cons_of_neg (by simpa using hc)
      refine ⟨[], List.not_mem_nil, ?_, .inr ⟨rest, ?_⟩⟩
      · rw [hstop, List.nil_append]
      · rw [hstop, hc]
    · have hskip : dropLastName (c :: rest) = dropLastName rest :=
        List.dropWhile_cons_of_pos (by simpa using hc)
      obtain ⟨name, hname, hsplit, hrest⟩ := ih
      refine ⟨c :: name, ?_, ?_, ?_⟩
      · rw [List.mem_cons, not_or]
        exact ⟨Ne.symm hc, hname⟩
      · rw [hskip, List.cons_append, ← hsplit]
      · rwa [hskip]

/-- What a path has before its last name begins it and leaves that name to take. -/
theorem isAbove_of_parent? {path dir : String} (h : parent? path = some dir) (hne : dir ≠ "") :
    IsAbove dir path := by
  have hends := trimBack_ends path.toList.reverse
  have hsteps := steps_trimBack path.toList.reverse
  have hsuffix := trimBack_isSuffix path.toList.reverse
  rw [List.reverse_reverse] at hsteps
  rw [parent?] at h
  generalize trimBack path.toList.reverse = back at h hends hsteps hsuffix
  split at h
  · cases h
  · cases h
  next hnil hroot =>
  obtain rfl := Option.some.inj h
  obtain ⟨hslash, hdot⟩ := hends.resolve_left hroot
  obtain ⟨name, hname, hsplit, hrest | ⟨more, hrest⟩⟩ := exists_lastName back
  · rw [hrest] at hne
    exact absurd (by decide) hne
  rw [hrest] at hsplit ⊢
  have hnamed : steps name.reverse = [name.reverse] := by
    apply steps_of_no_slash
    · rwa [List.mem_reverse]
    · intro hempty
      rw [List.reverse_eq_nil_iff.1 hempty] at hsplit
      exact hslash more hsplit
    · intro hsingle
      rw [List.reverse_eq_iff.1 hsingle] at hsplit
      exact hdot more hsplit
  constructor
  · have htail : (trimBack ('/' :: more)).IsSuffix path.toList.reverse :=
      ((trimBack_isSuffix _).trans ⟨name, hsplit.symm⟩).trans hsuffix
    rw [← List.reverse_prefix, List.reverse_reverse] at htail
    rwa [String.toList_ofList]
  · refine ⟨[name.reverse], List.cons_ne_nil _ _, ?_⟩
    rw [String.toList_ofList, steps_trimBack, steps_reverse_slash, ← hsteps, hsplit,
      List.reverse_append, List.reverse_cons, List.append_assoc, List.singleton_append,
      steps_append_slash, hnamed]

theorem bare_eq_or (path : String) :
    bare path = path ∨
      bare path = String.ofList (path.toList.reverse.dropWhile (· = '/')).reverse := by
  rw [bare]
  by_cases hempty :
      (String.ofList (path.toList.reverse.dropWhile (· = '/')).reverse).isEmpty = true
  · exact .inl (if_pos hempty)
  · exact .inr (if_neg hempty)

theorem steps_dropWhile_slash (back : List Char) :
    steps (back.dropWhile (· = '/')).reverse = steps back.reverse := by
  induction back with
  | nil => rfl
  | cons c rest ih =>
    by_cases hc : c = '/'
    · subst hc
      rw [List.dropWhile_cons_of_pos (by decide), ih, steps_reverse_slash]
    · rw [List.dropWhile_cons_of_neg (by simpa using hc)]

/-- A path without its slashes at the end is above whatever the path is above. -/
theorem IsAbove.bare {dir path : String} (h : IsAbove dir path) :
    IsAbove (bare dir) path := by
  rcases bare_eq_or dir with hbare | hbare
  · rwa [hbare]
  · obtain ⟨rest, hrest, hsteps⟩ := h.shorter
    rw [hbare]
    constructor
    · rw [String.toList_ofList]
      have hshort : (dir.toList.reverse.dropWhile (· = '/')).reverse.IsPrefix dir.toList := by
        rw [← List.reverse_suffix, List.reverse_reverse]
        exact List.dropWhile_suffix _
      exact hshort.trans h.begins
    · refine ⟨rest, hrest, ?_⟩
      rw [String.toList_ofList, steps_dropWhile_slash, List.reverse_reverse, hsteps]

/-- A path that does not end in a slash is bare. -/
theorem bare_of_getLast? {path : String} (h : path.toList.getLast? ≠ some '/') :
    bare path = path := by
  rcases bare_eq_or path with hbare | hbare
  · exact hbare
  · have hkept : path.toList.reverse.dropWhile (· = '/') = path.toList.reverse := by
      rw [← List.head?_reverse] at h
      cases hback : path.toList.reverse with
      | nil => rfl
      | cons c rest =>
        rw [hback] at h
        exact List.dropWhile_cons_of_neg (by simpa using h)
    rw [hbare, hkept, List.reverse_reverse, String.ofList_toList]

end LookupEngine.Path
