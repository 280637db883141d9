import LookupEngine.Proofs.Sequence.Counting
/-!
# The two forms of a sequence

A sequence is written as one word, the shorthand, or with an option for each of its fields.  The
shorthand is cut at its marks and the options at their equals signs, but what comes out of either is
the same start, end, stride and format, and from there on nothing depends on the form.  So both
forms are accepted as the same sequence or refused for the same reason.
-/

namespace LookupEngine.Sequence.Spec

open Integer

/-- The shorthand of a sequence with a format. -/
def shortTerm (start last stride : Int) (format : String) : String :=
  Range.write ⟨some start, last, some stride, some format⟩

/-- The term that has an option for each field of a sequence. -/
def longTerm (start last stride : Int) (format : String) : String :=
  Term.ofOptions [("start", write start), ("end", write last), ("stride", write stride),
    ("format", format)]

example : shortTerm 4 16 (-2) "host%02d" = "4-16/-2:host%02d" := by decide

example : longTerm 4 16 (-2) "host%02d" = "start=4 end=16 stride=-2 format=host%02d" := by decide

/-- A format that a word can hold, in a shorthand as well as in an option. -/
structure IsWordFormat (format : String) : Prop where
  ne_empty : format ≠ ""
  solid : ∀ c ∈ format.toList, Text.isBlank c = false ∧ c ≠ '='

theorem isWordFormat_iff_all {format : String} :
    (format ≠ "" ∧ format.toList.all (fun c => !Text.isBlank c && decide (c ≠ '=')) = true) ↔
      IsWordFormat format := by
  simp only [List.all_eq_true, Bool.and_eq_true, Bool.not_eq_true', decide_eq_true_eq]
  exact ⟨fun h => ⟨h.1, h.2⟩, fun h => ⟨h.ne_empty, h.solid⟩⟩

instance (format : String) : Decidable (IsWordFormat format) :=
  decidable_of_iff _ isWordFormat_iff_all

/-- The numbers and the format of a sequence that has both forms. -/
structure HasForms (start last stride : Int) (format : String) : Prop where
  start : 0 ≤ start ∧ start ≤ greatest
  last : 0 ≤ last ∧ last ≤ greatest
  stride : HasDecimal stride
  format : IsWordFormat format

theorem solid_writeChars {n : Int} (h : HasDecimal n) :
    ∀ c ∈ writeChars n, Text.isBlank c = false ∧ c ≠ '=' := by
  have hstands := standsFor_write h
  have htext : (write n).toList = writeChars n := by rw [write, String.toList_ofList]
  rw [← htext]
  intro c hc
  refine ⟨hstands.solid c hc, ?_⟩
  rintro rfl
  exact hstands.not_mem (by decide) hc

theorem isOption_write {key : String} (hkey : Term.IsOption key "") {n : Int} (h : HasDecimal n) :
    Term.IsOption key (write n) :=
  Term.isOption_of_standsFor hkey (standsFor_write h)

/-- Without options the shorthand says everything. -/
theorem stated_of_shorthand {word : String} {range : Range}
    (h : Range.parse? word = some range) :
    stated ⟨some word, []⟩ =
      ⟨range.start.getD 1, range.last, range.stride.getD 1, range.format⟩ := by
  have hmissing : ∀ key, Term.has ⟨some word, []⟩ key = false := fun _ => rfl
  have hrange : Term.range? ⟨some word, []⟩ = some range := by
    rw [Term.range?, hmissing, hmissing, Bool.or_self, if_neg Bool.false_ne_true,
      Option.bind_some, h]
  simp only [stated, ofRange, hrange, Term.integer?, Term.get?, Entries.find?_nil,
    Option.bind_none, Option.getD_none, Option.none_or, default]

namespace HasForms

variable {s e d : Int} {format : String} (h : HasForms s e d format)

include h

theorem hasDecimal_start : HasDecimal s := ⟨Int.lt_of_lt_of_le (by decide) h.start.1, h.start.2⟩

theorem hasDecimal_last : HasDecimal e := ⟨Int.lt_of_lt_of_le (by decide) h.last.1, h.last.2⟩

theorem isWritable : (⟨some s, e, some d, some format⟩ : Range).IsWritable where
  start := by
    rintro n ⟨⟩
    exact h.start
  last := h.last
  stride := by
    rintro n ⟨⟩
    exact h.stride
  format := by
    rintro text ⟨⟩
    refine ⟨h.format.ne_empty, fun hline => ?_⟩
    exact absurd (h.format.solid _ hline).1 (by decide)

/-- A shorthand holds neither a blank nor an equals sign. -/
theorem solid_shortTerm :
    ∀ c ∈ (shortTerm s e d format).toList, Text.isBlank c = false ∧ c ≠ '=' := by
  have htext : (shortTerm s e d format).toList =
      writeChars s ++ ['-'] ++ writeChars e ++ '/' :: writeChars d ++ ':' :: format.toList := by
    rw [shortTerm, Range.write, String.toList_ofList]
    rfl
  simp only [htext, List.forall_mem_append, List.forall_mem_cons, List.not_mem_nil, false_imp_iff,
    forall_const, and_true]
  exact ⟨⟨⟨⟨solid_writeChars h.hasDecimal_start, by decide⟩, solid_writeChars h.hasDecimal_last⟩,
    by decide, solid_writeChars h.stride⟩, by decide, h.format.solid⟩

/-- So it is one word, and no option. -/
theorem parse_shortTerm :
    Term.parse (shortTerm s e d format) = ⟨some (shortTerm s e d format), []⟩ := by
  apply Term.parse_of_isWord
  · refine ⟨?_, fun c hc => (h.solid_shortTerm c hc).1⟩
    rw [shortTerm, Range.write, String.toList_ofList]
    simp [Range.decimalParts, Range.Parts.text, Text.following]
  · rintro ⟨key, value, -, -, -, hpair⟩
    have hmark : '=' ∈ (shortTerm s e d format).toList := by
      rw [hpair]
      exact List.mem_append_right _ List.mem_cons_self
    exact (h.solid_shortTerm '=' hmark).2 rfl

theorem stated_shortTerm :
    stated (Term.parse (shortTerm s e d format)) = ⟨s, e, d, some format⟩ := by
  have hparse : Range.parse? (shortTerm s e d format) =
      some ⟨some s, e, some d, some format⟩ := by
    rw [shortTerm, Range.parse?, Range.write, String.toList_ofList]
    exact h.isWritable.denotes.parseChars?
  rw [h.parse_shortTerm, stated_of_shorthand hparse]
  rfl

theorem isOption_of_mem_longTerm :
    ∀ pair ∈ [("start", write s), ("end", write e), ("stride", write d), ("format", format)],
      Term.IsOption pair.1 pair.2 := by
  have hformat : Term.IsOption "format" "" := by decide
  simp only [List.forall_mem_cons]
  exact ⟨isOption_write (by decide) h.hasDecimal_start,
    isOption_write (by decide) h.hasDecimal_last, isOption_write (by decide) h.stride,
    ⟨hformat.key_ne_nil, hformat.key_solid, h.format.solid⟩,
    fun pair hpair => absurd hpair List.not_mem_nil⟩

theorem stated_longTerm :
    stated (Term.parse (longTerm s e d format)) = ⟨s, e, d, some format⟩ := by
  rw [longTerm, stated_ofOptions h.isOption_of_mem_longTerm]
  simp [Entries.lastValue, (standsFor_write h.hasDecimal_start).read,
    (standsFor_write h.hasDecimal_last).read, (standsFor_write h.stride).read]

/-- Neither form asks for a count. -/
theorem integer?_count :
    (Term.parse (shortTerm s e d format)).integer? "count" = none ∧
      (Term.parse (longTerm s e d format)).integer? "count" = none := by
  constructor
  · rw [h.parse_shortTerm]
    rfl
  · rw [longTerm, integer?_ofOptions h.isOption_of_mem_longTerm]
    rfl

end HasForms

/-- A term without a count is judged by what it states. -/
theorem parse_eq_of_stated {text other : String}
    (htext : (Term.parse text).integer? "count" = none)
    (hother : (Term.parse other).integer? "count" = none)
    (h : stated (Term.parse text) = stated (Term.parse other)) : parse text = parse other := by
  simp only [parse, ofTerm, htext, hother, h]

/-- The shorthand and the options for a start, an end, a stride and a format are accepted alike,
as the sequence of just these if it reaches its end soon enough, and otherwise the lookup refuses
the one term for the same reason as the other. -/
theorem forms_agree {s e d : Int} {format : String} (h : HasForms s e d format) :
    parse (shortTerm s e d format) = parse (longTerm s e d format) ∧
      (∀ spec, parse (shortTerm s e d format) = .ok spec ↔
        (⟨s, e, d, some format⟩ : Spec).IsAdmissible ∧ spec = ⟨s, e, d, some format⟩) ∧
      (¬ (⟨s, e, d, some format⟩ : Spec).IsAdmissible →
        ∃ problem, ∀ before,
          Lookup.Progression.expand before (shortTerm s e d format) =
              .error (.invalidTerm (shortTerm s e d format) (.sequence problem)) ∧
            Lookup.Progression.expand before (longTerm s e d format) =
              .error (.invalidTerm (longTerm s e d format) (.sequence problem))) := by
  obtain ⟨hshort, hlong⟩ := h.integer?_count
  have hsame : parse (shortTerm s e d format) = parse (longTerm s e d format) :=
    parse_eq_of_stated hshort hlong (h.stated_shortTerm.trans h.stated_longTerm.symm)
  have haccepts : ∀ spec, parse (shortTerm s e d format) = .ok spec ↔
      (⟨s, e, d, some format⟩ : Spec).IsAdmissible ∧ spec = ⟨s, e, d, some format⟩ := by
    intro spec
    rw [parse_eq_ok_iff hshort, ← stated_eq_ofLayers, h.stated_shortTerm]
  refine ⟨hsame, haccepts, fun hrefused => ?_⟩
  cases hparse : parse (shortTerm s e d format) with
  | ok spec => exact absurd ((haccepts spec).1 hparse).1 hrefused
  | error problem =>
    refine ⟨problem, fun before => ⟨?_, ?_⟩⟩
    · rw [Lookup.Progression.expand, hparse]
    · rw [Lookup.Progression.expand, ← hsame, hparse]

/-- A format that holds every mark of a shorthand, once with a stride that leads to the end and once
with one that leads away from it. -/
theorem forms_agree_on_marks :
    HasForms 9 1 (-4) "a-%d/:" ∧
      parse "9-1/-4:a-%d/:" = parse "start=9 end=1 stride=-4 format=a-%d/:" ∧
      parse "9-1/-4:a-%d/:" = .ok ⟨9, 1, -4, some "a-%d/:"⟩ ∧
      HasForms 9 1 4 "a-%d/:" ∧
      ∃ problem,
        Lookup.Progression.expand 0 "9-1/4:a-%d/:" =
            .error (.invalidTerm "9-1/4:a-%d/:" (.sequence problem)) ∧
          Lookup.Progression.expand 0 "start=9 end=1 stride=4 format=a-%d/:" =
            .error (.invalidTerm "start=9 end=1 stride=4 format=a-%d/:" (.sequence problem)) := by
  have hback : HasForms 9 1 (-4) "a-%d/:" := ⟨by decide, by decide, by decide, by decide⟩
  have haway : HasForms 9 1 4 "a-%d/:" := ⟨by decide, by decide, by decide, by decide⟩
  have hadmissible : (⟨9, 1, -4, some "a-%d/:"⟩ : Spec).IsAdmissible :=
    ⟨by decide, by decide, by decide⟩
  have hrefused : ¬ (⟨9, 1, 4, some "a-%d/:"⟩ : Spec).IsAdmissible :=
    fun hboth => absurd hboth.directed (by decide)
  obtain ⟨hsame, haccepts, -⟩ := forms_agree hback
  obtain ⟨-, -, hfails⟩ := forms_agree haway
  obtain ⟨problem, hproblem⟩ := hfails hrefused
  exact ⟨hback, hsame, (haccepts _).2 ⟨hadmissible, rfl⟩, haway, problem, hproblem 0⟩

end LookupEngine.Sequence.Spec
