import Mathlib.Data.Nat.Basic
import Mathlib.Tactic.SplitIfs
import LookupEngine.Text.Utf8
/-!
# Reading what has been written

The bytes of a text are read as that text again.  A character has one to four bytes, so the
step of the reader is looked at once for each length; the bounds on the second byte, which
shut out numbers that fewer bytes can say, never shut out a character.
-/

namespace LookupEngine.Utf8

theorem decodeFrom?_append (skip : Nat) (front rest : Bytes) (hlength : front.length = skip) :
    decodeFrom? skip (front ++ rest) = decodeFrom? 0 rest := by
  induction front generalizing skip with
  | nil => subst hlength; rfl
  | cons b front ih =>
    subst hlength
    simp only [List.cons_append, List.length_cons, decodeFrom?]
    exact ih _ rfl

theorem decodeFrom?_char {b : UInt8} {front rest : Bytes} {c : Char}
    (hstep : step b (front ++ rest) = .char c front.length) :
    decodeFrom? 0 (b :: front ++ rest) = (decodeFrom? 0 rest).map (c :: ·) := by
  simp only [List.cons_append, decodeFrom?, hstep]
  rw [decodeFrom?_append _ _ _ rfl]

theorem toNat_ofNat_of_lt {n : Nat} (h : n < 256) : (UInt8.ofNat n).toNat = n := by
  rw [UInt8.toNat_ofNat']
  exact Nat.mod_eq_of_lt h

section
variable {b₁ b₂ b₃ b₄ : UInt8} {n : Nat}

theorem isContinuation_of_toNat (h : b₁.toNat = n % 64 + 128) : isContinuation b₁ = true := by
  simp only [isContinuation, h, Bool.and_eq_true, decide_eq_true_eq]
  omega

theorem payload_of_toNat (h : b₁.toNat = n % 64 + 128) : payload b₁ = n % 64 := by
  rw [payload, h]
  omega

theorem step_one (h₁ : b₁.toNat = n) (hsmall : n ≤ 0x7F) (rest : Bytes) :
    step b₁ rest = .char (Char.ofNat n) 0 := by
  simp only [step, h₁, if_pos (show n < 0x80 by omega)]

theorem step_two (h₁ : b₁.toNat = n / 64 % 32 + 192) (h₂ : b₂.toNat = n % 64 + 128)
    (hlow : 0x7F < n) (hhigh : n ≤ 0x7FF) (rest : Bytes) :
    step b₁ (b₂ :: rest) = .char (Char.ofNat n) 1 := by
  have hfirst : ¬ n / 64 % 32 + 192 < 0x80 := by omega
  have hrange : 0xC2 ≤ n / 64 % 32 + 192 ∧ n / 64 % 32 + 192 ≤ 0xDF := by omega
  have hsum : (n / 64 % 32 + 192) % 32 * 64 + n % 64 = n := by omega
  simp only [step, h₁, hfirst, hrange, isContinuation_of_toNat h₂, payload_of_toNat h₂, hsum,
    if_true, if_false, decide_true, Bool.and_self]

theorem three_eq_char {first low high m : Nat} (h₂ : b₂.toNat = n % 64 + 128)
    (h₃ : b₃.toNat = m % 64 + 128) (hlow : low ≤ n % 64 + 128) (hhigh : n % 64 + 128 ≤ high)
    (rest : Bytes) :
    three first low high (b₂ :: b₃ :: rest) =
      .char (Char.ofNat (first % 16 * 4096 + n % 64 * 64 + m % 64)) 2 := by
  simp only [three, h₂, hlow, hhigh, isContinuation_of_toNat h₃, payload_of_toNat h₂,
    payload_of_toNat h₃, if_true, decide_true, Bool.and_self]

theorem four_eq_char {first low high m k : Nat} (h₂ : b₂.toNat = n % 64 + 128)
    (h₃ : b₃.toNat = m % 64 + 128) (h₄ : b₄.toNat = k % 64 + 128)
    (hlow : low ≤ n % 64 + 128) (hhigh : n % 64 + 128 ≤ high) (rest : Bytes) :
    four first low high (b₂ :: b₃ :: b₄ :: rest) =
      .char (Char.ofNat
        (first % 8 * 262144 + n % 64 * 4096 + m % 64 * 64 + k % 64)) 3 := by
  simp only [four, h₂, hlow, hhigh, isContinuation_of_toNat h₃, isContinuation_of_toNat h₄,
    payload_of_toNat h₂, payload_of_toNat h₃, payload_of_toNat h₄, if_true, decide_true,
    Bool.and_self]

/-- The bounds on the second byte shut out numbers that fewer bytes can say, and those that
stand for no character. -/
theorem step_three (h₁ : b₁.toNat = n / 4096 % 16 + 224) (h₂ : b₂.toNat = n / 64 % 64 + 128)
    (h₃ : b₃.toNat = n % 64 + 128) (hlow : 0x7FF < n) (hhigh : n ≤ 0xFFFF)
    (hscalar : n < 0xD800 ∨ 0xDFFF < n) (rest : Bytes) :
    step b₁ (b₂ :: b₃ :: rest) = .char (Char.ofNat n) 2 := by
  have hsum : (n / 4096 % 16 + 224) % 16 * 4096 + n / 64 % 64 * 64 + n % 64 = n := by omega
  have hone : ¬ n / 4096 % 16 + 224 < 0x80 := by omega
  have htwo : ¬ n / 4096 % 16 + 224 ≤ 0xDF := by omega
  simp only [step, h₁, hone, htwo, decide_false, Bool.and_false, Bool.false_eq_true,
    if_false]
  split
  · rw [three_eq_char h₂ h₃ (by omega) (by omega), hsum]
  split
  · rw [three_eq_char h₂ h₃ (by omega) (by omega), hsum]
  · have hrange : 0xE1 ≤ n / 4096 % 16 + 224 ∧ n / 4096 % 16 + 224 ≤ 0xEF := by omega
    simp only [hrange, decide_true, Bool.and_self, if_true]
    rw [three_eq_char h₂ h₃ (by omega) (by omega), hsum]

theorem step_four (h₁ : b₁.toNat = n / 262144 % 8 + 240) (h₂ : b₂.toNat = n / 4096 % 64 + 128)
    (h₃ : b₃.toNat = n / 64 % 64 + 128) (h₄ : b₄.toNat = n % 64 + 128) (hlow : 0xFFFF < n)
    (hhigh : n < 0x110000) (rest : Bytes) :
    step b₁ (b₂ :: b₃ :: b₄ :: rest) = .char (Char.ofNat n) 3 := by
  have hsum : (n / 262144 % 8 + 240) % 8 * 262144 + n / 4096 % 64 * 4096 + n / 64 % 64 * 64 +
      n % 64 = n := by omega
  have hone : ¬ n / 262144 % 8 + 240 < 0x80 := by omega
  have htwo : ¬ n / 262144 % 8 + 240 ≤ 0xDF := by omega
  have hthree : ¬ n / 262144 % 8 + 240 ≤ 0xEF := by omega
  simp only [step, h₁, hone, htwo, hthree, decide_false, Bool.and_false,
    Bool.false_eq_true, if_false,
    if_neg (show ¬ n / 262144 % 8 + 240 = 0xE0 by omega),
    if_neg (show ¬ n / 262144 % 8 + 240 = 0xED by omega)]
  split
  · rw [four_eq_char h₂ h₃ h₄ (by omega) (by omega), hsum]
  split
  · rw [four_eq_char h₂ h₃ h₄ (by omega) (by omega), hsum]
  · have hrange : 0xF1 ≤ n / 262144 % 8 + 240 ∧ n / 262144 % 8 + 240 ≤ 0xF3 := by omega
    simp only [hrange, decide_true, Bool.and_self, if_true]
    rw [four_eq_char h₂ h₃ h₄ (by omega) (by omega), hsum]

end

theorem isScalar (c : Char) : c.toNat < 0xD800 ∨ 0xDFFF < c.toNat ∧ c.toNat < 0x110000 := c.valid

/-- The bytes of a character are read as that character, whatever follows them. -/
theorem decodeFrom?_utf8EncodeChar (c : Char) (rest : Bytes) :
    decodeFrom? 0 (String.utf8EncodeChar c ++ rest) = (decodeFrom? 0 rest).map (c :: ·) := by
  have hscalar := isScalar c
  have hback : Char.ofNat c.toNat = c := Char.ofNat_toNat c
  have hval : c.val.toNat = c.toNat := rfl
  rw [String.utf8EncodeChar, hval]
  generalize c.toNat = n at hscalar hback
  subst hback
  have hbyte : ∀ m, m < 256 → (UInt8.ofNat m).toNat = m := fun m => toNat_ofNat_of_lt
  by_cases h₁ : n ≤ 0x7f
  · rw [if_pos h₁]
    exact decodeFrom?_char (step_one (hbyte _ (by omega)) h₁ _)
  by_cases h₂ : n ≤ 0x7ff
  · rw [if_neg h₁, if_pos h₂]
    exact decodeFrom?_char
      (step_two (hbyte _ (by omega)) (hbyte _ (by omega)) (by omega) h₂ _)
  by_cases h₃ : n ≤ 0xffff
  · rw [if_neg h₁, if_neg h₂, if_pos h₃]
    exact decodeFrom?_char
      (step_three (hbyte _ (by omega)) (hbyte _ (by omega)) (hbyte _ (by omega)) (by omega) h₃
        (by omega) _)
  · rw [if_neg h₁, if_neg h₂, if_neg h₃]
    exact decodeFrom?_char
      (step_four (hbyte _ (by omega)) (hbyte _ (by omega)) (hbyte _ (by omega))
        (hbyte _ (by omega)) (by omega) (by omega) _)

theorem encode_eq_flatMap (s : String) : encode s = s.toList.flatMap String.utf8EncodeChar := by
  conv => lhs; rw [← String.ofList_toList (s := s)]
  rw [encode, String.toUTF8_eq_toByteArray]
  exact List.toList_data_toByteArray

theorem decodeChars?_flatMap (cs : List Char) :
    decodeChars? (cs.flatMap String.utf8EncodeChar) = some cs := by
  induction cs with
  | nil => rfl
  | cons c cs ih =>
    rw [decodeChars?] at ih
    rw [List.flatMap_cons, decodeChars?, decodeFrom?_utf8EncodeChar, ih]
    rfl

/-- What has been written is read as it was. -/
@[simp]
theorem decode?_encode (s : String) : decode? (encode s) = some s := by
  rw [decode?, encode_eq_flatMap, decodeChars?_flatMap, Option.map_some, String.ofList_toList]

theorem encodeChars_eq_flatMap (cs : List Char) :
    encodeChars cs = cs.flatMap String.utf8EncodeChar := by
  rw [encodeChars, encode_eq_flatMap, String.toList_ofList]

theorem encode_eq_encodeChars (s : String) : encode s = encodeChars s.toList := by
  rw [encodeChars, String.ofList_toList]

@[simp]
theorem encodeChars_nil : encodeChars [] = [] := by
  rw [encodeChars_eq_flatMap]
  rfl

theorem encodeChars_cons (c : Char) (cs : List Char) :
    encodeChars (c :: cs) = String.utf8EncodeChar c ++ encodeChars cs := by
  rw [encodeChars_eq_flatMap, encodeChars_eq_flatMap, List.flatMap_cons]

theorem encodeChars_append (cs ds : List Char) :
    encodeChars (cs ++ ds) = encodeChars cs ++ encodeChars ds := by
  rw [encodeChars_eq_flatMap, encodeChars_eq_flatMap, encodeChars_eq_flatMap,
    List.flatMap_append]

theorem utf8EncodeChar_of_ascii {c : Char} (h : c.toNat < 0x80) :
    String.utf8EncodeChar c = [UInt8.ofNat c.toNat] := by
  have hval : c.val.toNat = c.toNat := rfl
  rw [String.utf8EncodeChar, hval, if_pos (Nat.le_of_lt_succ h)]

/-- The bytes of a character are all beyond the plain ones, unless it is a plain one itself. -/
theorem plain_of_mem_utf8EncodeChar {c : Char} {b : UInt8} (hb : b ∈ String.utf8EncodeChar c)
    (hplain : b.toNat < 0x80) : c.toNat = b.toNat := by
  have hbound := isScalar c
  have hval : c.val.toNat = c.toNat := rfl
  rw [String.utf8EncodeChar, hval] at hb
  generalize c.toNat = n at hb hbound
  have hbyte : ∀ m, m < 256 → (UInt8.ofNat m).toNat = m := fun m => toNat_ofNat_of_lt
  split_ifs at hb <;> simp only [List.mem_cons, List.not_mem_nil, or_false] at hb
  · subst hb
    exact (hbyte n (by omega)).symm
  all_goals
    exfalso
    rcases hb with rfl | rfl | rfl | rfl <;> rw [hbyte _ (by omega)] at hplain <;> omega

end LookupEngine.Utf8
