import LookupEngine.Lookup.Progression
import LookupEngine.Proofs.Machine.Action
import LookupEngine.Proofs.Sequence.Values
/-!
# Sequences of several terms

The terms of one lookup share one limit.  As long as each of them is a sequence, the shared
count stays within the limit and no template is refused, the lookup gives the values of one
term after the other.  The first term at which one of these ends is the one that the failure
names, and no term after it has any effect.
-/

namespace LookupEngine.Lookup.Progression

open Sequence

/-- How many values a term stands for. -/
def countOf (term : String) : Nat :=
  match Spec.parse term with
  | .ok spec => spec.valueCount
  | .error _ => 0

/-- How many values some terms stand for together. -/
def total (terms : List String) : Nat := terms.foldr (fun term rest => countOf term + rest) 0

/-- A value as a sequence writes it: the integer itself without a format, and the text that
the template makes of it with one. -/
def written (format : Option String) (n : Int) : Value :=
  match format.map Template.parse with
  | none => .int n
  | some (.ok template) => .string (template.render n)
  | some (.error _) => .null

/-- The values that a term stands for. -/
def valuesAt (term : String) : List Value :=
  match Spec.parse term with
  | .ok spec => spec.progression.map (written spec.format)
  | .error _ => []

/-- A term that is a sequence, and whose format is a template if there are values to write. -/
def Accepts (term : String) : Prop :=
  ∃ spec, Spec.parse term = .ok spec ∧
    ∀ format, spec.format = some format → spec.valueCount ≠ 0 →
      ∃ template, Template.parse format = .ok template

/-- Why a lookup ends at a term that has `before` values before it. -/
inductive Refuses (before : Nat) (term : String) : Problem → Prop
  | unreadable (problem : Problem) (hparse : Spec.parse term = .error problem) :
      Refuses before term problem
  | tooMany (spec : Spec) (hparse : Spec.parse term = .ok spec)
      (hcount : limit < before + spec.valueCount) : Refuses before term .tooManyInTotal
  | noTemplate (spec : Spec) (format : String) (problem : TemplateProblem)
      (hparse : Spec.parse term = .ok spec) (hcount : before + spec.valueCount ≤ limit)
      (hvalues : spec.valueCount ≠ 0) (hformat : spec.format = some format)
      (htemplate : Template.parse format = .error problem) :
      Refuses before term (.badTemplate format problem)

@[simp]
theorem total_nil : total [] = 0 := rfl

@[simp]
theorem total_cons (term : String) (rest : List String) :
    total (term :: rest) = countOf term + total rest := rfl

theorem countOf_of_parse {term : String} {spec : Spec} (h : Spec.parse term = .ok spec) :
    countOf term = spec.valueCount := by
  rw [countOf, h]

theorem valuesAt_of_parse {term : String} {spec : Spec} (h : Spec.parse term = .ok spec) :
    valuesAt term = spec.progression.map (written spec.format) := by
  rw [valuesAt, h]

theorem length_valuesAt (term : String) : (valuesAt term).length = countOf term := by
  rw [valuesAt, countOf]
  cases Spec.parse term with
  | error problem => rfl
  | ok spec => rw [List.length_map, Spec.length_progression]

theorem length_flatMap_valuesAt (terms : List String) :
    (terms.flatMap valuesAt).length = total terms := by
  induction terms with
  | nil => rfl
  | cons term rest ih =>
    rw [List.flatMap_cons, List.length_append, length_valuesAt, ih, total_cons]

theorem progression_eq_nil_iff {spec : Spec} : spec.progression = [] ↔ spec.valueCount = 0 := by
  rw [← List.length_eq_zero_iff, Spec.length_progression]

/-- A sequence with values looks at its template once. -/
theorem valuesOf_of_ne_nil {spec : Spec} (h : spec.values ≠ []) :
    valuesOf spec =
      match spec.template? with
      | .error problem => .error problem
      | .ok none => .ok (spec.values.map Value.int)
      | .ok (some template) => .ok (spec.values.map fun n => .string (template.render n)) := by
  rw [valuesOf]
  split
  · next hnil => exact absurd hnil h
  · rfl

theorem written_of_template {format : String} {template : Template}
    (h : Template.parse format = .ok template) :
    written (some format) = fun n => .string (template.render n) := by
  funext n
  rw [written, Option.map_some, h]

/-- The values of a sequence without an unusable template are its progression, written out. -/
theorem valuesOf_eq_ok {term : String} {spec : Spec} (hparse : Spec.parse term = .ok spec)
    (htemplate : ∀ format, spec.format = some format → spec.valueCount ≠ 0 →
      ∃ template, Template.parse format = .ok template) :
    valuesOf spec = .ok (valuesAt term) := by
  rw [valuesAt_of_parse hparse]
  have hvalues := Spec.values_of_parse hparse
  by_cases hcount : spec.valueCount = 0
  · have hnil := progression_eq_nil_iff.2 hcount
    rw [valuesOf, hvalues, hnil]
    rfl
  · have hne : spec.values ≠ [] := by
      rw [hvalues]
      exact mt progression_eq_nil_iff.1 hcount
    rw [valuesOf_of_ne_nil hne, hvalues, Spec.template?]
    cases hformat : spec.format with
    | none => rfl
    | some format =>
      obtain ⟨template, hread⟩ := htemplate format hformat hcount
      simp only [hread, written_of_template hread]

theorem valuesOf_eq_error {term : String} {spec : Spec} {format : String}
    {problem : TemplateProblem} (hparse : Spec.parse term = .ok spec)
    (hcount : spec.valueCount ≠ 0) (hformat : spec.format = some format)
    (htemplate : Template.parse format = .error problem) :
    valuesOf spec = .error (.badTemplate format problem) := by
  have hne : spec.values ≠ [] := by
    rw [Spec.values_of_parse hparse]
    exact mt progression_eq_nil_iff.1 hcount
  simp only [valuesOf_of_ne_nil hne, Spec.template?, hformat, htemplate]

theorem expand_of_accepts {before : Nat} {term : String} (h : Accepts term)
    (hcount : before + countOf term ≤ limit) :
    expand before term = .ok (valuesAt term, before + countOf term) := by
  obtain ⟨spec, hparse, htemplate⟩ := h
  rw [countOf_of_parse hparse] at hcount ⊢
  simp only [expand, hparse, valuesOf_eq_ok hparse htemplate]
  rw [if_neg (by omega)]

theorem expand_of_refuses {before : Nat} {term : String} {problem : Problem}
    (h : Refuses before term problem) :
    expand before term = .error (.invalidTerm term (.sequence problem)) := by
  cases h with
  | unreadable _ hparse => simp only [expand, hparse]
  | tooMany spec hparse hcount =>
    simp only [expand, hparse]
    rw [if_pos hcount]
  | noTemplate spec format problem hparse hcount hvalues hformat htemplate =>
    simp only [expand, hparse, valuesOf_eq_error hparse hvalues hformat htemplate]
    rw [if_neg (by omega)]

/-- A term is refused wherever it is not accepted or goes over the limit. -/
theorem exists_refuses {before : Nat} {term : String}
    (h : ¬ (Accepts term ∧ before + countOf term ≤ limit)) :
    ∃ problem, Refuses before term problem := by
  cases hparse : Spec.parse term with
  | error problem => exact ⟨problem, .unreadable problem hparse⟩
  | ok spec =>
    rw [countOf_of_parse hparse] at h
    by_cases hcount : limit < before + spec.valueCount
    · exact ⟨.tooManyInTotal, .tooMany spec hparse hcount⟩
    have hrejected : ∃ format problem, spec.format = some format ∧ spec.valueCount ≠ 0 ∧
        Template.parse format = .error problem := by
      by_contra hnone
      refine h ⟨⟨spec, hparse, fun format hformat hvalues => ?_⟩, by omega⟩
      cases htemplate : Template.parse format with
      | ok template => exact ⟨template, rfl⟩
      | error problem => exact absurd ⟨format, problem, hformat, hvalues, htemplate⟩ hnone
    obtain ⟨format, problem, hformat, hvalues, htemplate⟩ := hrejected
    exact ⟨.badTemplate format problem,
      .noTemplate spec format problem hparse (by omega) hvalues hformat htemplate⟩

section

variable {world : World} (hlive : world.isCancelled = false)

include hlive

/-- One term: its values come first, and the others are counted on from it. -/
theorem expandAll_cons_of_accepts {before : Nat} {term : String} {rest : List String}
    (h : Accepts term) (hcount : before + countOf term ≤ limit) :
    (expandAll before (term :: rest)).perform world =
      match (expandAll (before + countOf term) rest).perform world with
      | (.ok others, world) => (.ok (valuesAt term ++ others), world)
      | (.error failure, world) => (.error failure, world) := by
  have hcheck := Action.perform_check_of_not hlive
  have hexpand := expand_of_accepts h hcount
  rw [expandAll, Action.perform_bind_of_ok _ hcheck]
  rw [Action.perform_bind_of_ok _ (by rw [Action.perform_ofExcept, hexpand])]
  rw [Action.perform_bind]
  rcases (expandAll (before + countOf term) rest).perform world with ⟨_ | others, after⟩ <;> rfl

theorem expandAll_cons_of_refuses {before : Nat} {term : String} {rest : List String}
    {problem : Problem} (h : Refuses before term problem) :
    (expandAll before (term :: rest)).perform world =
      (.error (.invalidTerm term (.sequence problem)), world) := by
  have hcheck := Action.perform_check_of_not hlive
  have hexpand := expand_of_refuses h
  rw [expandAll, Action.perform_bind_of_ok _ hcheck]
  exact Action.perform_bind_of_error _ (by rw [Action.perform_ofExcept, hexpand])

/-- Terms that are accepted and stay within the limit give all of their values. -/
theorem expandAll_of_accepts {before : Nat} {terms : List String}
    (haccepts : ∀ term ∈ terms, Accepts term) (hcount : before + total terms ≤ limit) :
    (expandAll before terms).perform world = (.ok (terms.flatMap valuesAt), world) := by
  induction terms generalizing before with
  | nil => rfl
  | cons term rest ih =>
    rw [total_cons] at hcount
    have hterm := haccepts term List.mem_cons_self
    have hrest : (expandAll (before + countOf term) rest).perform world =
        (.ok (rest.flatMap valuesAt), world) :=
      ih (fun other hother => haccepts other (List.mem_cons_of_mem term hother)) (by omega)
    rw [expandAll_cons_of_accepts hlive hterm (by omega), hrest, List.flatMap_cons]

/-- A term that is refused ends the lookup, whatever follows it. -/
theorem expandAll_of_refuses {before : Nat} {earlier later : List String} {term : String}
    {problem : Problem} (haccepts : ∀ other ∈ earlier, Accepts other)
    (hcount : before + total earlier ≤ limit)
    (hrefuses : Refuses (before + total earlier) term problem) :
    (expandAll before (earlier ++ term :: later)).perform world =
      (.error (.invalidTerm term (.sequence problem)), world) := by
  induction earlier generalizing before with
  | nil =>
    rw [total_nil, Nat.add_zero] at hrefuses
    exact expandAll_cons_of_refuses hlive hrefuses
  | cons other rest ih =>
    rw [total_cons, ← Nat.add_assoc] at hcount hrefuses
    have hother := haccepts other List.mem_cons_self
    have hrest : (expandAll (before + countOf other) (rest ++ term :: later)).perform world =
        (.error (.invalidTerm term (.sequence problem)), world) :=
      ih (fun one hone => haccepts one (List.mem_cons_of_mem other hone)) hcount hrefuses
    rw [List.cons_append, expandAll_cons_of_accepts hlive hother (by omega), hrest]

end

/-- Terms that are not all accepted within the limit have a first one that is refused. -/
theorem exists_first_refused {before : Nat} {terms : List String}
    (h : ¬ ((∀ term ∈ terms, Accepts term) ∧ before + total terms ≤ limit))
    (hbefore : before ≤ limit) :
    ∃ earlier term later problem, terms = earlier ++ term :: later ∧
      (∀ other ∈ earlier, Accepts other) ∧ before + total earlier ≤ limit ∧
      Refuses (before + total earlier) term problem := by
  induction terms generalizing before with
  | nil => exact absurd ⟨fun term hterm => absurd hterm List.not_mem_nil, hbefore⟩ h
  | cons term rest ih =>
    by_cases hterm : Accepts term ∧ before + countOf term ≤ limit
    · have hrest : ¬ ((∀ other ∈ rest, Accepts other) ∧
          before + countOf term + total rest ≤ limit) := by
        rintro ⟨hall, hcount⟩
        rw [total_cons, ← Nat.add_assoc] at h
        exact h ⟨List.forall_mem_cons.2 ⟨hterm.1, hall⟩, hcount⟩
      obtain ⟨earlier, other, later, problem, rfl, haccepts, hcount, hrefuses⟩ := ih hrest hterm.2
      refine ⟨term :: earlier, other, later, problem, rfl,
        List.forall_mem_cons.2 ⟨hterm.1, haccepts⟩, ?_, ?_⟩
      · rw [total_cons, ← Nat.add_assoc]
        exact hcount
      · rw [total_cons, ← Nat.add_assoc]
        exact hrefuses
    · obtain ⟨problem, hrefuses⟩ := exists_refuses hterm
      exact ⟨[], term, rest, problem, rfl, fun other hother => absurd hother List.not_mem_nil,
        hbefore, hrefuses⟩

/-- Terms that are all accepted and have no more values together than one sequence may have. -/
structure Acceptable (terms : List String) : Prop where
  accepts : ∀ term ∈ terms, Accepts term
  bounded : total terms ≤ limit

/-- A lookup that nobody cancels succeeds exactly on acceptable terms.  It then gives the values
of one term after the other, as many as there are in all, and else it names the first term that
is refused. -/
theorem run_succeeds_iff_acceptable (terms : List String) (world : World)
    (hlive : world.isCancelled = false) :
    ((∃ values, ((run terms).perform world).1 = .ok values) ↔ Acceptable terms) ∧
      (Acceptable terms →
        (run terms).perform world = (.ok (terms.flatMap valuesAt), world) ∧
          (terms.flatMap valuesAt).length = total terms) ∧
      (¬ Acceptable terms →
        ∃ earlier term later problem, terms = earlier ++ term :: later ∧ Acceptable earlier ∧
          Refuses (total earlier) term problem ∧
          (run terms).perform world =
            (.error (.invalidTerm term (.sequence problem)), world)) := by
  have hsuccess : Acceptable terms →
      (run terms).perform world = (.ok (terms.flatMap valuesAt), world) := by
    rintro ⟨haccepts, hcount⟩
    exact expandAll_of_accepts hlive haccepts (by rwa [Nat.zero_add])
  have hfailure : ¬ Acceptable terms →
      ∃ earlier term later problem, terms = earlier ++ term :: later ∧ Acceptable earlier ∧
        Refuses (total earlier) term problem ∧
        (run terms).perform world =
          (.error (.invalidTerm term (.sequence problem)), world) := by
    intro h
    have hnot : ¬ ((∀ term ∈ terms, Accepts term) ∧ 0 + total terms ≤ limit) := by
      rw [Nat.zero_add]
      exact fun ⟨haccepts, hcount⟩ => h ⟨haccepts, hcount⟩
    obtain ⟨earlier, term, later, problem, rfl, haccepts, hcount, hrefuses⟩ :=
      exists_first_refused hnot (Nat.zero_le limit)
    have hrun : (run (earlier ++ term :: later)).perform world =
        (.error (.invalidTerm term (.sequence problem)), world) :=
      expandAll_of_refuses hlive haccepts hcount hrefuses
    rw [Nat.zero_add] at hcount hrefuses
    exact ⟨earlier, term, later, problem, rfl, ⟨haccepts, hcount⟩, hrefuses, hrun⟩
  refine ⟨⟨?_, ?_⟩, ?_, hfailure⟩
  · rintro ⟨values, hvalues⟩
    by_contra h
    obtain ⟨_, _, _, _, _, _, _, hrun⟩ := hfailure h
    rw [hrun] at hvalues
    cases hvalues
  · intro h
    exact ⟨_, by rw [hsuccess h]⟩
  · intro h
    exact ⟨hsuccess h, length_flatMap_valuesAt terms⟩

/-- Three numbers, and two numbered hosts. -/
theorem run_numbers_and_hosts :
    (World.still .empty ⟨[], none⟩).isCancelled = false ∧
      Acceptable ["1-3", "4-5:host%02d"] ∧
      (run ["1-3", "4-5:host%02d"]).perform (World.still .empty ⟨[], none⟩) =
        (.ok [.int 1, .int 2, .int 3, .string "host04", .string "host05"],
          World.still .empty ⟨[], none⟩) := by
  have hnumbers : Spec.parse "1-3" = .ok ⟨1, 3, 1, none⟩ := by decide +kernel
  have hhosts : Spec.parse "4-5:host%02d" = .ok ⟨4, 5, 1, some "host%02d"⟩ := by
    decide +kernel
  have htemplate : Template.parse "host%02d" =
      .ok ⟨"host".toList, ⟨⟨false, true, false, false, false⟩, 2, .decimal⟩, []⟩ := by
    decide +kernel
  have hacceptable : Acceptable ["1-3", "4-5:host%02d"] := by
    refine ⟨?_, by decide +kernel⟩
    rw [List.forall_mem_cons, List.forall_mem_singleton]
    refine ⟨⟨_, hnumbers, fun format hformat _ => ?_⟩, ⟨_, hhosts, fun format hformat _ => ?_⟩⟩
    · cases hformat
    · cases hformat
      exact ⟨_, htemplate⟩
  have hvalues : ["1-3", "4-5:host%02d"].flatMap valuesAt =
      [.int 1, .int 2, .int 3, .string "host04", .string "host05"] := by
    rw [List.flatMap_cons, List.flatMap_cons, valuesAt_of_parse hnumbers,
      valuesAt_of_parse hhosts, written_of_template htemplate]
    rfl
  refine ⟨rfl, hacceptable, ?_⟩
  rw [← hvalues]
  exact ((run_succeeds_iff_acceptable _ (World.still .empty ⟨[], none⟩) rfl).2.1 hacceptable).1

end LookupEngine.Lookup.Progression
