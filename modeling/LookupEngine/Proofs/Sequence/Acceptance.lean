import LookupEngine.Lookup.Progression
import LookupEngine.Proofs.Sequence.Values
/-!
# Which terms are sequences

A term that asks for no count gives its numbers in layers: one for each of them, what the range
shorthand says over that, and what the options say over both.  The shorthand is hidden as soon as a
start or an end is given, readable or not.  The term is a sequence exactly if the numbers lead from
the start to the end in not too many steps.
-/

namespace LookupEngine.Sequence.Spec

open Integer

/-- The number that counts: what an option says, else what the shorthand says, else one. -/
def given (term : Term) (key : String) (part : Range → Option Int) : Int :=
  (term.integer? key).getD ((term.range?.bind part).getD 1)

/-- The numbers and the format that a term gives. -/
def ofLayers (term : Term) : Spec where
  start := given term "start" Range.start
  last := given term "end" fun range => some range.last
  stride := given term "stride" Range.stride
  format := (term.get? "format").or (term.range?.bind Range.format)

/-- A sequence that reaches its end, and not after too many values. -/
structure IsAdmissible (spec : Spec) : Prop where
  moves : spec.stride ≠ 0
  directed : spec.last = spec.start ∨ (0 < spec.stride ∧ spec.start < spec.last) ∨
    (spec.stride < 0 ∧ spec.last < spec.start)
  few : (spec.last - spec.start).natAbs / spec.stride.natAbs + 1 ≤ limit

theorem stated_eq_ofLayers (term : Term) : stated term = ofLayers term := by
  simp only [stated, ofRange, ofLayers, given]
  cases term.range? with
  | none => simp [default]
  | some range => simp [default]

/-- In the direction of the stride the values are counted exactly, as far as a word can tell. -/
theorem valueCount_of_directed {spec : Spec} (hmoves : spec.stride ≠ 0)
    (h : (0 < spec.stride ∧ spec.start ≤ spec.last) ∨
      (spec.stride ≤ 0 ∧ spec.last ≤ spec.start)) :
    spec.valueCount =
      min ((spec.last - spec.start).natAbs / spec.stride.natAbs + 1) greatestUnsigned := by
  have hreach : spec.cursor.reaches spec.start = true := (Cursor.reaches_iff _ _).2 h
  rw [valueCount_eq spec hmoves, Cursor.ahead, if_pos hreach]
  rfl

/-- The check goes by the exact number of values, although it sees no more than a word of it. -/
theorem check_eq_ok_iff {spec found : Spec} (hmoves : spec.stride ≠ 0) :
    check spec = .ok found ↔ spec.IsAdmissible ∧ found = spec := by
  constructor
  · intro h
    have hfound := (check_eq_ok h).1
    rw [check] at h
    split at h
    · cases h
    · next hforward =>
      split at h
      · cases h
      · next hbackward =>
        split at h
        · cases h
        · next hcount =>
          rw [valueCount_of_directed hmoves (by omega)] at hcount
          simp only [limit, greatestUnsigned] at hcount
          refine ⟨⟨hmoves, by omega, ?_⟩, hfound⟩
          simp only [limit]
          omega
  · rintro ⟨⟨-, hdirected, hfew⟩, rfl⟩
    have hcount : ¬ found.valueCount > limit := by
      rw [valueCount_of_directed hmoves (by omega)]
      omega
    rw [check, if_neg (by omega), if_neg (by omega), if_neg hcount]

/-- A million values are not too many, and one more is. -/
example : check ⟨1, 1000000, 1, none⟩ = .ok ⟨1, 1000000, 1, none⟩ ∧
    check ⟨1, 1000001, 1, none⟩ = .error (.tooManyValues 1000001) := ⟨rfl, rfl⟩

theorem parse_eq_ok_iff {text : String} (h : (Term.parse text).integer? "count" = none)
    {spec : Spec} :
    parse text = .ok spec ↔
      (ofLayers (Term.parse text)).IsAdmissible ∧ spec = ofLayers (Term.parse text) := by
  simp only [parse, ofTerm, h, stated_eq_ofLayers]
  by_cases hmoves : (ofLayers (Term.parse text)).stride = 0
  · rw [if_pos hmoves]
    exact iff_of_false (fun heq => by cases heq) (fun hboth => hboth.1.moves hmoves)
  · rw [if_neg hmoves, check_eq_ok_iff hmoves]

/-- A term without a readable count is a sequence exactly where the numbers of its layers are
admissible, and then it is the sequence of these numbers.  Otherwise a lookup that comes to the
term fails and says that this very term is wrong. -/
theorem uncounted_accepted_iff_admissible {text : String}
    (hcount : (Term.parse text).integer? "count" = none) :
    ((∃ spec, parse text = .ok spec) ↔ (ofLayers (Term.parse text)).IsAdmissible) ∧
      (∀ spec, parse text = .ok spec → spec = ofLayers (Term.parse text)) ∧
      (¬ (ofLayers (Term.parse text)).IsAdmissible →
        ∃ problem, parse text = .error problem ∧
          ∀ before, Lookup.Progression.expand before text =
            .error (.invalidTerm text (.sequence problem))) := by
  refine ⟨⟨?_, ?_⟩, ?_, ?_⟩
  · rintro ⟨spec, hspec⟩
    exact ((parse_eq_ok_iff hcount).1 hspec).1
  · intro hadmissible
    exact ⟨_, (parse_eq_ok_iff hcount).2 ⟨hadmissible, rfl⟩⟩
  · intro spec hspec
    exact ((parse_eq_ok_iff hcount).1 hspec).2
  · intro hadmissible
    cases hparse : parse text with
    | ok spec => exact absurd ((parse_eq_ok_iff hcount).1 hparse).1 hadmissible
    | error problem =>
      refine ⟨problem, rfl, fun before => ?_⟩
      rw [Lookup.Progression.expand, hparse]

/-- An option over the shorthand, a count that is no number, and a start that nobody can read but
that hides the shorthand all the same. -/
theorem uncounted_accepted_iff_admissible_layered :
    (Term.parse "9-0x1/-4:h%d stride=-2 count=all").integer? "count" = none ∧
      parse "9-0x1/-4:h%d stride=-2 count=all" = .ok ⟨9, 1, -2, some "h%d"⟩ ∧
      (Term.parse "9-0x1/-4:h%d start=one end=0").integer? "count" = none ∧
      ¬ (ofLayers (Term.parse "9-0x1/-4:h%d start=one end=0")).IsAdmissible ∧
      ∃ problem, Lookup.Progression.expand 0 "9-0x1/-4:h%d start=one end=0" =
        .error (.invalidTerm "9-0x1/-4:h%d start=one end=0" (.sequence problem)) := by
  have hcount : (Term.parse "9-0x1/-4:h%d stride=-2 count=all").integer? "count" = none := by
    decide +kernel
  have hlayers : ofLayers (Term.parse "9-0x1/-4:h%d stride=-2 count=all") =
      ⟨9, 1, -2, some "h%d"⟩ := by decide +kernel
  have hnone : (Term.parse "9-0x1/-4:h%d start=one end=0").integer? "count" = none := by
    decide +kernel
  have hhidden : ofLayers (Term.parse "9-0x1/-4:h%d start=one end=0") = ⟨1, 0, 1, none⟩ := by
    decide +kernel
  have hrefused : ¬ (ofLayers (Term.parse "9-0x1/-4:h%d start=one end=0")).IsAdmissible := by
    rw [hhidden]
    rintro ⟨-, hdirected, -⟩
    exact absurd hdirected (by decide)
  obtain ⟨haccepted, hsame, -⟩ := uncounted_accepted_iff_admissible hcount
  obtain ⟨spec, hspec⟩ := haccepted.2 (by rw [hlayers]; exact ⟨by decide, by decide, by decide⟩)
  obtain ⟨-, -, hfails⟩ := uncounted_accepted_iff_admissible hnone
  obtain ⟨problem, -, hexpand⟩ := hfails hrefused
  refine ⟨hcount, ?_, hnone, hrefused, problem, hexpand 0⟩
  rw [hspec, hsame spec hspec, hlayers]

end LookupEngine.Sequence.Spec
