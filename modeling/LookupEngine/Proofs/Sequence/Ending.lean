import LookupEngine.Proofs.Number.Spelling
import LookupEngine.Proofs.Sequence.Counting
/-!
# Sequences of a given end

A term that says how many values it wants and a term that says where they end can mean the same
sequence.  The end is taken as it is, while the count is first turned into the distance from the
start to the end.  Where both bounds are words but the distance between them is none, the term with
the count is refused and the other one is accepted.
-/

namespace LookupEngine.Sequence.Spec

open Integer

/-- The term that gives a start, a stride and an end. -/
def endTerm (start stride last : String) : String :=
  Term.ofOptions [("start", start), ("stride", stride), ("end", last)]

example : endTerm "8" "-2" "4" = "start=8 stride=-2 end=4" := by decide

section

variable {start stride last : String} {s d e : Int} {n : Nat}

theorem parse_endTerm (hstart : StandsFor start s) (hstride : StandsFor stride d)
    (hlast : StandsFor last e) (hmoves : d ≠ 0) :
    parse (endTerm start stride last) = check ⟨s, e, d, none⟩ := by
  have hfirst : Term.IsOption "start" start := Term.isOption_of_standsFor (by decide) hstart
  have hsecond : Term.IsOption "stride" stride := Term.isOption_of_standsFor (by decide) hstride
  have hthird : Term.IsOption "end" last := Term.isOption_of_standsFor (by decide) hlast
  have hoptions : ∀ pair ∈ [("start", start), ("stride", stride), ("end", last)],
      Term.IsOption pair.1 pair.2 := by
    rw [List.forall_mem_cons, List.forall_mem_cons, List.forall_mem_singleton]
    exact ⟨hfirst, hsecond, hthird⟩
  have hstated : stated (Term.parse (endTerm start stride last)) = ⟨s, e, d, none⟩ := by
    rw [endTerm, stated_ofOptions hoptions]
    simp [Entries.lastValue, hstart.read, hstride.read, hlast.read]
  have hunasked : (Term.parse (endTerm start stride last)).integer? "count" = none := by
    rw [endTerm, integer?_ofOptions hoptions]
    rfl
  simp only [parse, ofTerm, hstated, hunasked, if_neg hmoves]

/-- A count that leads to a word is refused only for the distance that it stands for. -/
theorem withCount_eq_of_fits (hmoves : d ≠ 0) (hpos : 1 ≤ n) (hfew : n ≤ limit)
    (hlast : Fits (s + (n - 1) * d)) :
    withCount ⟨s, 1, d, none⟩ n =
      if Fits ((n - 1) * d) then .ok ⟨s, s + (n - 1) * d, d, none⟩ else .error .countOverflows := by
  have hcount : n ≠ 0 := Nat.ne_of_gt hpos
  split
  · next hoffset =>
    exact (withCount_of_ne_zero hmoves hcount _).2 ⟨.inr ⟨hfew, hoffset, hlast⟩, rfl⟩
  · next hoffset =>
    rw [withCount, if_neg (by omega), if_neg (by omega)]
    dsimp only
    rw [checked, if_neg hoffset]

/-- A count and the end that it leads to are accepted as the same sequence exactly where the
distance from the start to the end is a word.  The end is accepted in any case. -/
theorem count_and_end_agree_iff (hstart : HasDecimal s) (hstride : HasDecimal d) (hmoves : d ≠ 0)
    (hpos : 1 ≤ n) (hfew : n ≤ limit) (hlast : HasDecimal (s + (n - 1) * d)) :
    parse (endTerm (write s) (write d) (write (s + (n - 1) * d))) =
        .ok ⟨s, s + (n - 1) * d, d, none⟩ ∧
      (parse (countTerm (write s) (write d) (write n)) =
          parse (endTerm (write s) (write d) (write (s + (n - 1) * d))) ↔
        Fits ((n - 1) * d)) ∧
      (¬ Fits ((n - 1) * d) →
        parse (countTerm (write s) (write d) (write n)) = .error .countOverflows) := by
  have hword : HasDecimal n := by
    simp only [HasDecimal, limit, least, greatest] at hfew ⊢
    omega
  have hend : parse (endTerm (write s) (write d) (write (s + (n - 1) * d))) =
      .ok ⟨s, s + (n - 1) * d, d, none⟩ := by
    rw [parse_endTerm (standsFor_write hstart) (standsFor_write hstride) (standsFor_write hlast)
      hmoves]
    exact (check_of_last hmoves (Nat.ne_of_gt hpos) none _).2 ⟨hfew, rfl⟩
  have hcount : parse (countTerm (write s) (write d) (write n)) =
      if Fits ((n - 1) * d) then .ok ⟨s, s + (n - 1) * d, d, none⟩
      else .error .countOverflows := by
    rw [parse_countTerm (standsFor_write hstart) (standsFor_write hstride) (standsFor_write hword)
      hmoves]
    exact withCount_eq_of_fits hmoves hpos hfew ⟨Int.le_of_lt hlast.1, hlast.2⟩
  refine ⟨hend, ?_, ?_⟩
  · rw [hend, hcount]
    split
    · next hoffset => exact iff_of_true rfl hoffset
    · next hoffset => exact iff_of_false (fun heq => by cases heq) hoffset
  · intro hoffset
    rw [hcount, if_neg hoffset]

end

/-- Two values as far apart as the greatest word. -/
theorem count_and_end_agree_far_apart :
    HasDecimal (-greatest) ∧ HasDecimal greatest ∧
      HasDecimal (-greatest + ((2 : Nat) - 1) * greatest) ∧ Fits (((2 : Nat) - 1) * greatest) ∧
      parse (countTerm (write (-greatest)) (write greatest) (write (2 : Nat))) =
        parse (endTerm (write (-greatest)) (write greatest)
          (write (-greatest + ((2 : Nat) - 1) * greatest))) := by
  have hstart : HasDecimal (-greatest) := by decide
  have hstride : HasDecimal greatest := by decide
  have hlast : HasDecimal (-greatest + ((2 : Nat) - 1) * greatest) := by decide
  have hoffset : Fits (((2 : Nat) - 1) * greatest) := by decide
  obtain ⟨-, hagree, -⟩ := count_and_end_agree_iff hstart hstride (by decide) (by decide)
    (by decide) hlast
  exact ⟨hstart, hstride, hlast, hoffset, hagree.2 hoffset⟩

/-- Three values from one end of the words to the other. -/
theorem three_values_refused_by_count :
    parse "start=-9223372036854775807 stride=9223372036854775807 count=3" =
        .error .countOverflows ∧
      parse "start=-9223372036854775807 stride=9223372036854775807 end=9223372036854775807" =
        .ok ⟨-9223372036854775807, 9223372036854775807, 9223372036854775807, none⟩ :=
  ⟨by decide +kernel, by decide +kernel⟩

end LookupEngine.Sequence.Spec
