import LookupEngine.Number.Digits
/-!
# Digits that are written

The digits that a number is written with are digits of its base, they have its value, and there
are no zeros in front of them.
-/

namespace LookupEngine.Digits

theorem digitValue?_lowerDigit {d : Nat} (h : d < 16) : digitValue? (lowerDigit d) = some d := by
  revert d
  decide

theorem digitValue?_upperDigit {d : Nat} (h : d < 16) : digitValue? (upperDigit d) = some d := by
  revert d
  decide

/-- Characters that stand for the numbers below the base. -/
def IsAlphabet (base : Nat) (digit : Nat → Char) : Prop :=
  ∀ d < base, digitValue? (digit d) = some d

theorem isAlphabet_lowerDigit {base : Nat} (hbase : base ≤ 16) : IsAlphabet base lowerDigit :=
  fun _ h => digitValue?_lowerDigit (Nat.lt_of_lt_of_le h hbase)

theorem isAlphabet_upperDigit {base : Nat} (hbase : base ≤ 16) : IsAlphabet base upperDigit :=
  fun _ h => digitValue?_upperDigit (Nat.lt_of_lt_of_le h hbase)

/-- At least one character, and only digits of the base. -/
structure IsNumber (base : Nat) (cs : List Char) : Prop where
  ne_nil : cs ≠ []
  digits : ∀ c ∈ cs, isDigitOf base c = true

/-- More digits only make a number greater. -/
theorem le_valueFrom {base : Nat} (hbase : 0 < base) (high : Nat) (cs : List Char) :
    high ≤ valueFrom base high cs := by
  induction cs generalizing high with
  | nil => exact Nat.le_refl high
  | cons c rest ih =>
    rw [valueFrom]
    exact Nat.le_trans (Nat.le_mul_of_pos_right high hbase)
      (Nat.le_trans (Nat.le_add_right _ _) (ih _))

/-- Zeros in front of a number do not change it. -/
theorem value_zeros_append (base : Nat) {zeros : List Char} (h : ∀ c ∈ zeros, c = '0')
    (cs : List Char) : value base (zeros ++ cs) = value base cs := by
  induction zeros with
  | nil => rfl
  | cons c zeros ih =>
    obtain ⟨rfl, hzeros⟩ := List.forall_mem_cons.1 h
    have hzero : (digitValue? '0').getD 0 = 0 := by decide
    rw [List.cons_append, value, valueFrom, hzero, Nat.zero_mul]
    exact ih hzeros

section

variable {base : Nat} {digit : Nat → Char} (halphabet : IsAlphabet base digit)

include halphabet

theorem IsAlphabet.isDigitOf {d : Nat} (h : d < base) : isDigitOf base (digit d) = true := by
  rw [Digits.isDigitOf, halphabet d h]
  exact decide_eq_true h

theorem IsAlphabet.ne_zero {d : Nat} (h : d < base) (hd : d ≠ 0) : digit d ≠ '0' := by
  intro hzero
  have hvalue := halphabet d h
  rw [hzero] at hvalue
  exact hd (Option.some.inj hvalue).symm

/-- The digits that are written have the value of the number, whatever follows them. -/
theorem valueFrom_writeInto (hmany : 2 ≤ base) {steps n : Nat} (h : n < steps) (tail : List Char) :
    valueFrom base 0 (writeInto base digit steps n tail) = valueFrom base n tail := by
  induction steps generalizing n tail with
  | zero => exact absurd h (Nat.not_lt_zero n)
  | succ steps ih =>
    have hdigit := halphabet (n % base) (Nat.mod_lt n (by omega))
    rw [writeInto]
    split
    · next hlast =>
      rw [valueFrom, hdigit, Option.getD_some, Nat.mod_eq_of_lt hlast, Nat.zero_mul, Nat.zero_add]
    · next hmore =>
      have hless : n / base < steps := by
        have hsmaller := Nat.div_lt_self (show 0 < n by omega) hmany
        omega
      rw [ih hless, valueFrom, hdigit, Option.getD_some, Nat.mul_comm, Nat.div_add_mod]

theorem isDigitOf_of_mem_writeInto (hmany : 0 < base) {steps n : Nat} {tail : List Char}
    {c : Char} (h : c ∈ writeInto base digit steps n tail) :
    isDigitOf base c = true ∨ c ∈ tail := by
  induction steps generalizing n tail with
  | zero => exact .inr h
  | succ steps ih =>
    have hdigit := halphabet.isDigitOf (Nat.mod_lt n hmany)
    have hcons : c ∈ digit (n % base) :: tail → isDigitOf base c = true ∨ c ∈ tail := by
      intro hmem
      rcases List.mem_cons.1 hmem with rfl | hmem
      · exact .inl hdigit
      · exact .inr hmem
    rw [writeInto] at h
    split at h
    · exact hcons h
    · exact (ih h).elim .inl hcons

omit halphabet in
theorem writeInto_ne_nil (steps n : Nat) {tail : List Char} (htail : 0 < steps ∨ tail ≠ []) :
    writeInto base digit steps n tail ≠ [] := by
  induction steps generalizing n tail with
  | zero => exact htail.resolve_left (Nat.lt_irrefl 0)
  | succ steps ih =>
    rw [writeInto]
    split
    · exact List.cons_ne_nil _ _
    · exact ih _ (.inr (List.cons_ne_nil _ _))

/-- The first digit of a number that is not zero is not zero either. -/
theorem head?_writeInto (hmany : 2 ≤ base) {steps n : Nat} (h : n < steps) (hn : n ≠ 0)
    (tail : List Char) :
    ∃ c, (writeInto base digit steps n tail).head? = some c ∧ c ≠ '0' := by
  induction steps generalizing n tail with
  | zero => exact absurd h (Nat.not_lt_zero n)
  | succ steps ih =>
    rw [writeInto]
    split
    · next hlast =>
      refine ⟨_, rfl, halphabet.ne_zero (Nat.mod_lt n (by omega)) ?_⟩
      rwa [Nat.mod_eq_of_lt hlast]
    · next hmore =>
      have hless : n / base < steps := by
        have hsmaller := Nat.div_lt_self (show 0 < n by omega) hmany
        omega
      have hpositive : n / base ≠ 0 := by
        have := Nat.div_pos (show base ≤ n by omega) (by omega)
        omega
      exact ih hless hpositive _

theorem value_writeInto (hmany : 2 ≤ base) (n : Nat) :
    value base (writeInto base digit (n + 1) n []) = n :=
  valueFrom_writeInto halphabet hmany (Nat.lt_succ_self n) []

theorem isNumber_writeInto (hmany : 0 < base) (n : Nat) :
    IsNumber base (writeInto base digit (n + 1) n []) where
  ne_nil := writeInto_ne_nil (n + 1) n (.inl (Nat.succ_pos n))
  digits _ h := (isDigitOf_of_mem_writeInto halphabet hmany h).resolve_right List.not_mem_nil

end

theorem value_write (n : Nat) : value 10 (write 10 n) = n :=
  value_writeInto (isAlphabet_lowerDigit (by decide)) (by decide) n

theorem isDecimal_of_mem_write {n : Nat} {c : Char} (h : c ∈ write 10 n) : isDecimal c = true :=
  (isNumber_writeInto (isAlphabet_lowerDigit (by decide)) (by decide) n).digits c h

/-- A number starts with a digit, which is not a zero unless the number is. -/
theorem exists_write_eq_cons (n : Nat) :
    ∃ c rest, write 10 n = c :: rest ∧ isDecimal c = true ∧ (n ≠ 0 → c ≠ '0') := by
  by_cases hzero : n = 0
  · subst hzero
    exact ⟨'0', [], rfl, rfl, fun h => absurd rfl h⟩
  · obtain ⟨c, hhead, hc⟩ := head?_writeInto (isAlphabet_lowerDigit (show 10 ≤ 16 by decide))
      (by decide) (Nat.lt_succ_self n) hzero []
    obtain ⟨rest, hrest⟩ := List.head?_eq_some_iff.1 hhead
    have hmem : c ∈ write 10 n := by
      rw [write, hrest]
      exact List.mem_cons_self
    exact ⟨c, rest, hrest, isDecimal_of_mem_write hmem, fun _ => hc⟩

end LookupEngine.Digits
