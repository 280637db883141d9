import LookupEngine.Proofs.Number.Limits
/-!
# Where a numeral has its sign

A numeral has its sign in front of everything else.  The digits after the mark of a base are read
with a sign of their own, though, so there are texts that are read and are no numerals: `0x-1f` is
taken for minus thirty-one, and `-0x-1f` for its opposite.  Of the texts that are read, those with a
sign after the mark of a base are the only ones that are no numeral for what they are read as.
-/

namespace LookupEngine.Integer

open Digits

/-- The texts with a sign after the mark of a base, and the words that they are taken for. -/
inductive SpellsInside : List Char → Int → Prop
  | plus {mark : Char} {base : Nat} {digits : List Char} (hmark : Marks mark base)
      (hdigits : IsNumber base digits) (hword : Fits (value base digits)) :
      SpellsInside ('0' :: mark :: '+' :: digits) (value base digits)
  | minus {mark : Char} {base : Nat} {digits : List Char} (hmark : Marks mark base)
      (hdigits : IsNumber base digits) (hword : Fits (-(value base digits : Int))) :
      SpellsInside ('0' :: mark :: '-' :: digits) (-(value base digits : Int))

/-- Such texts with another sign in front or without one.  The least word has no opposite. -/
inductive SpellsInsideSigned : List Char → Int → Prop
  | plain {cs : List Char} {n : Int} (h : SpellsInside cs n) : SpellsInsideSigned cs n
  | plus {cs : List Char} {n : Int} (h : SpellsInside cs n) : SpellsInsideSigned ('+' :: cs) n
  | minus {cs : List Char} {n : Int} (h : SpellsInside cs n) (hn : n ≠ least) :
      SpellsInsideSigned ('-' :: cs) (-n)

/-- A sign stands after the mark of a base, whatever stands in front. -/
inductive HasInnerSign : List Char → Prop
  | intro {lead : List Char} {mark sign : Char} {base : Nat} {digits : List Char}
      (hlead : lead ∈ [[], ['+'], ['-']]) (hmark : Marks mark base) (hsign : sign ∈ ['+', '-'])
      (hdigits : IsNumber base digits) : HasInnerSign (lead ++ '0' :: mark :: sign :: digits)

theorem bind_checked_map_eq_some_iff {base : Nat} {cs : List Char} {f : Nat → Int} {n : Int} :
    ((Digits.read? base cs).bind fun m => checked (f m)) = some n ↔
      IsNumber base cs ∧ Fits (f (value base cs)) ∧ f (value base cs) = n := by
  rw [Option.bind_eq_some_iff]
  constructor
  · rintro ⟨m, hread, hchecked⟩
    obtain ⟨hdigits, rfl⟩ := read?_eq_some_iff.1 hread
    exact ⟨hdigits, checked_eq_some_iff.1 hchecked⟩
  · rintro ⟨hdigits, hchecked⟩
    exact ⟨_, read?_eq_some_iff.2 ⟨hdigits, rfl⟩, checked_eq_some_iff.2 hchecked⟩

/-- What follows the mark of a base is read with a sign or without one. -/
theorem spells_of_readSigned? {mark : Char} {base : Nat} {digits : List Char} {n : Int}
    (hmark : Marks mark base) (h : readSigned? base digits = some n) :
    Spells ('0' :: mark :: digits) n ∨ SpellsInside ('0' :: mark :: digits) n := by
  unfold readSigned? at h
  split at h
  · obtain ⟨hdigits, hword, rfl⟩ := bind_checked_map_eq_some_iff.1 h
    exact .inr (.minus hmark hdigits hword)
  · obtain ⟨hdigits, hword, rfl⟩ := bind_checked_map_eq_some_iff.1 h
    exact .inr (.plus hmark hdigits hword)
  · obtain ⟨hdigits, hword, rfl⟩ := bind_checked_eq_some_iff.1 h
    exact .inl (.marked hmark hdigits hword)

section

variable {cs : List Char} {n : Int}

theorem SpellsInside.readMagnitude? (h : SpellsInside cs n) : readMagnitude? cs = some n := by
  cases h with
  | plus hmark hdigits hword =>
    rw [readMagnitude?_of_marks hmark, readSigned?, bind_checked_map_eq_some_iff]
    exact ⟨hdigits, hword, rfl⟩
  | minus hmark hdigits hword =>
    rw [readMagnitude?_of_marks hmark, readSigned?,
      bind_checked_map_eq_some_iff (f := fun m : Nat => -(m : Int))]
    exact ⟨hdigits, hword, rfl⟩

theorem SpellsInside.head?_eq (h : SpellsInside cs n) : cs.head? = some '0' := by
  cases h <;> rfl

theorem readMagnitude?_eq_some_iff :
    readMagnitude? cs = some n ↔ Spells cs n ∨ SpellsInside cs n := by
  constructor
  · intro h
    by_cases hmarked : IsMarked cs
    · obtain ⟨mark, base, digits, hmark, rfl⟩ := hmarked
      rw [readMagnitude?_of_marks hmark] at h
      exact spells_of_readSigned? hmark h
    · rw [readMagnitude?_of_not_isMarked hmarked] at h
      obtain ⟨hdigits, hword, rfl⟩ := bind_checked_eq_some_iff.1 h
      exact .inl (.decimal hdigits hword)
  · rintro (h | h)
    · exact h.readMagnitude?
    · exact h.readMagnitude?

theorem Spells.namesSigned (h : Spells cs n) : NamesSigned cs n := by
  obtain ⟨m, hnames, rfl⟩ := h.exists_names
  exact .plain hnames

theorem Spells.hasDecimal (h : Spells cs n) : HasDecimal n :=
  ⟨Int.lt_of_lt_of_le (by decide) h.nonneg, h.le_greatest⟩

theorem Spells.hasDecimal_neg (h : Spells cs n) : HasDecimal (-n) := by
  have hnonneg := h.nonneg
  have hword := h.le_greatest
  simp only [HasDecimal, least, greatest] at hword ⊢
  omega

theorem SpellsInsideSigned.readChars? (h : SpellsInsideSigned cs n) : readChars? cs = some n := by
  cases h with
  | plain h =>
    rw [readChars?_of_head_digit, h.readMagnitude?]
    intro c hc
    rw [h.head?_eq, Option.some.injEq] at hc
    subst hc
    decide
  | plus h => rw [Integer.readChars?, h.readMagnitude?]
  | minus h hn => rw [Integer.readChars?, h.readMagnitude?, Option.map_some, negate, if_neg hn]

/-- What is read is a numeral, or it has a sign after the mark of its base.  The opposite of the
least word is left out: it is no word. -/
theorem readChars?_eq_some_iff (hleast : ∀ rest, cs = '-' :: rest → ¬ SpellsInside rest least) :
    readChars? cs = some n ↔ (NamesSigned cs n ∧ HasDecimal n) ∨ SpellsInsideSigned cs n := by
  constructor
  · intro h
    unfold readChars? at h
    split at h
    · next rest =>
      obtain ⟨m, hread, rfl⟩ := Option.map_eq_some_iff.1 h
      rcases readMagnitude?_eq_some_iff.1 hread with hspells | hinside
      · obtain ⟨magnitude, hnames, rfl⟩ := hspells.exists_names
        rw [negate_of_nonneg hspells.nonneg]
        exact .inl ⟨.minus hnames, hspells.hasDecimal_neg⟩
      · have hm : m ≠ least := by
          rintro rfl
          exact hleast rest rfl hinside
        rw [negate, if_neg hm]
        exact .inr (.minus hinside hm)
    · rcases readMagnitude?_eq_some_iff.1 h with hspells | hinside
      · obtain ⟨magnitude, hnames, rfl⟩ := hspells.exists_names
        exact .inl ⟨.plus hnames, hspells.hasDecimal⟩
      · exact .inr (.plus hinside)
    · rcases readMagnitude?_eq_some_iff.1 h with hspells | hinside
      · exact .inl ⟨hspells.namesSigned, hspells.hasDecimal⟩
      · exact .inr (.plain hinside)
  · rintro (⟨hnames, hgreater, hword⟩ | hinside)
    · rw [hnames.readChars? ⟨Int.le_of_lt hgreater, hword⟩, if_neg (Int.ne_of_gt hgreater)]
    · exact hinside.readChars?

theorem SpellsInside.hasInnerSign (h : SpellsInside cs n) (lead : List Char)
    (hlead : lead ∈ [[], ['+'], ['-']]) : HasInnerSign (lead ++ cs) := by
  cases h with
  | plus hmark hdigits _ => exact .intro hlead hmark (by decide) hdigits
  | minus hmark hdigits _ => exact .intro hlead hmark (by decide) hdigits

theorem SpellsInsideSigned.hasInnerSign (h : SpellsInsideSigned cs n) : HasInnerSign cs := by
  cases h with
  | plain h => exact h.hasInnerSign [] (by decide)
  | plus h => exact h.hasInnerSign ['+'] (by decide)
  | minus h _ => exact h.hasInnerSign ['-'] (by decide)

theorem HasInnerSign.exists_mem_tail (h : HasInnerSign cs) :
    ∃ sign ∈ ['+', '-'], sign ∈ cs.tail := by
  cases h with
  | @intro lead mark sign base digits hlead hmark hsign hdigits =>
    refine ⟨sign, hsign, ?_⟩
    have hmem : sign ∈ mark :: sign :: digits := List.mem_cons_of_mem _ List.mem_cons_self
    simp only [List.mem_cons, List.not_mem_nil, or_false] at hlead
    rcases hlead with rfl | rfl | rfl
    · exact hmem
    · exact List.mem_cons_of_mem _ hmem
    · exact List.mem_cons_of_mem _ hmem

theorem Names.not_sign {m : Nat} (h : Names cs m) {c : Char} (hc : c ∈ cs) : c ∉ ['+', '-'] := by
  intro hsign
  have hmade := h.digit_or_mark hc
  simp only [List.mem_cons, List.not_mem_nil, or_false] at hsign
  rcases hsign with rfl | rfl <;> exact absurd hmade (by decide)

/-- A numeral has no sign but the one in front. -/
theorem NamesSigned.not_hasInnerSign (h : NamesSigned cs n) : ¬ HasInnerSign cs := by
  intro hinner
  obtain ⟨sign, hsign, hmem⟩ := hinner.exists_mem_tail
  cases h with
  | plain h => exact h.not_sign (List.mem_of_mem_tail hmem) hsign
  | plus h => exact h.not_sign hmem hsign
  | minus h => exact h.not_sign hmem hsign

theorem namesSigned_iff_not_hasInnerSign (h : readChars? cs = some n) :
    NamesSigned cs n ↔ ¬ HasInnerSign cs := by
  refine ⟨NamesSigned.not_hasInnerSign, fun hinner => ?_⟩
  have hleast : ∀ rest, cs = '-' :: rest → ¬ SpellsInside rest least := by
    rintro rest rfl hinside
    exact hinner (hinside.hasInnerSign ['-'] (by decide))
  rcases (readChars?_eq_some_iff hleast).1 h with ⟨hnames, _⟩ | hinside
  · exact hnames
  · exact absurd hinside.hasInnerSign hinner

end

/-- A text that is read as an integer is a numeral for it, apart from blanks around, exactly if no
sign stands after the mark of a base.  The texts that are read are the numerals of all words but the
least and, unless they ask for its opposite, those texts with a sign after the mark. -/
theorem read?_names_iff_no_inner_sign (s : String) (n : Int) :
    (read? s = some n →
      (NamesSigned (Text.trimChars s.toList) n ↔ ¬ HasInnerSign (Text.trimChars s.toList))) ∧
    ((∀ rest, Text.trimChars s.toList = '-' :: rest → ¬ SpellsInside rest least) →
      (read? s = some n ↔
        (NamesSigned (Text.trimChars s.toList) n ∧ HasDecimal n) ∨
          SpellsInsideSigned (Text.trimChars s.toList) n)) :=
  ⟨fun h => namesSigned_iff_not_hasInnerSign h, fun hleast => readChars?_eq_some_iff hleast⟩

/-- Thirty-one in hexadecimal digits with a sign in front and with one after the mark. -/
theorem read?_names_iff_no_inner_sign_thirty_one :
    (read? " +0x1F" = some 31 ∧ NamesSigned (Text.trimChars " +0x1F".toList) 31) ∧
      (read? "-0x-1f" = some 31 ∧ ¬ NamesSigned (Text.trimChars "-0x-1f".toList) 31) := by
  have hfront : read? " +0x1F" = some 31 := by decide
  have hinside : read? "-0x-1f" = some 31 := by decide
  have hsign : HasInnerSign (Text.trimChars "-0x-1f".toList) :=
    @HasInnerSign.intro ['-'] 'x' '-' 16 ['1', 'f'] (by decide) .hexadecimal (by decide) (by decide)
  refine ⟨⟨hfront, ?_⟩, hinside, ?_⟩
  · refine ((read?_names_iff_no_inner_sign _ _).1 hfront).2 fun hinner => ?_
    obtain ⟨sign, hmem, htail⟩ := hinner.exists_mem_tail
    rw [List.mem_cons, List.mem_singleton] at hmem
    rcases hmem with rfl | rfl <;> exact absurd htail (by decide)
  · exact fun hnames => ((read?_names_iff_no_inner_sign _ _).1 hinside).1 hnames hsign

/-- Minus thirty-one is read from a text that is no numeral for any number. -/
theorem inner_sign_is_read :
    read? "0x-1f" = some (-31) ∧ ∀ n, ¬ NamesSigned (Text.trimChars "0x-1f".toList) n := by
  refine ⟨by decide, fun n hnames => hnames.not_hasInnerSign ?_⟩
  exact @HasInnerSign.intro [] 'x' '-' 16 ['1', 'f'] (by decide) .hexadecimal (by decide)
    (by decide)

end LookupEngine.Integer
