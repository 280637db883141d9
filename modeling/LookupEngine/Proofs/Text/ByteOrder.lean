import Mathlib.Data.String.Basic
import LookupEngine.Proofs.Text.Utf8
/-!
# The order of texts and of their bytes

Texts compare by their characters, and their bytes compare the same way: the first byte of a
character tells how many there are, more for greater characters, and the bytes after it hold the
rest of the number from the top.
-/

namespace LookupEngine.Utf8

theorem ofNat_lt_ofNat {n m : Nat} (hn : n < 256) (hm : m < 256) :
    UInt8.ofNat n < UInt8.ofNat m ↔ n < m := by
  rw [UInt8.lt_iff_toNat_lt, toNat_ofNat_of_lt hn, toNat_ofNat_of_lt hm]

theorem ofNat_eq_ofNat {n m : Nat} (hn : n < 256) (hm : m < 256) :
    UInt8.ofNat n = UInt8.ofNat m ↔ n = m := by
  rw [← UInt8.toNat_inj, toNat_ofNat_of_lt hn, toNat_ofNat_of_lt hm]

/-- The bytes of a smaller character come first, whatever follows either. -/
theorem utf8EncodeChar_append_lt {c d : Char} (h : c < d) (xs ys : Bytes) :
    String.utf8EncodeChar c ++ xs < String.utf8EncodeChar d ++ ys := by
  have hlt : c.toNat < d.toNat := h
  have hbound := isScalar d
  have hc : c.val.toNat = c.toNat := rfl
  have hd : d.val.toNat = d.toNat := rfl
  have htwo : ∀ k, k / 4096 = k / 64 / 64 := fun k => (Nat.div_div_eq_div_mul k 64 64).symm
  have hthree : ∀ k, k / 262144 = k / 64 / 64 / 64 := fun k => by
    rw [← htwo, Nat.div_div_eq_div_mul]
  rw [String.utf8EncodeChar, String.utf8EncodeChar, hc, hd]
  simp only [htwo, hthree]
  clear htwo hthree hc hd h
  generalize c.toNat = n at hlt
  generalize d.toNat = m at hlt hbound
  -- One case for each pair of lengths; a character with fewer bytes is never the greater one.
  split_ifs <;> simp only [List.cons_append, List.nil_append, List.cons_lt_cons_iff]
  all_goals simp (disch := omega) only [ofNat_lt_ofNat, ofNat_eq_ofNat]
  all_goals omega

theorem flatMap_utf8EncodeChar_lt {cs ds : List Char} (h : cs < ds) :
    cs.flatMap String.utf8EncodeChar < ds.flatMap String.utf8EncodeChar := by
  induction cs generalizing ds with
  | nil =>
    cases ds with
    | nil => exact absurd h (lt_irrefl _)
    | cons d ds =>
      rw [List.flatMap_nil, List.flatMap_cons]
      rcases hbytes : String.utf8EncodeChar d with _ | ⟨b, bytes⟩
      · exact absurd hbytes (String.utf8EncodeChar_ne_nil)
      · exact List.nil_lt_cons _ _
  | cons c cs ih =>
    cases ds with
    | nil => exact absurd h (List.not_lt_nil _)
    | cons d ds =>
      rw [List.flatMap_cons, List.flatMap_cons]
      rcases List.cons_lt_cons_iff.1 h with hlt | ⟨rfl, hrest⟩
      · exact utf8EncodeChar_append_lt hlt _ _
      · exact List.append_left_lt (ih hrest)

/-- Texts in order have bytes in order. -/
theorem encode_lt_encode {s t : String} (h : s < t) : encode s < encode t := by
  rw [encode_eq_flatMap, encode_eq_flatMap]
  exact flatMap_utf8EncodeChar_lt (String.lt_iff_toList_lt.1 h)

end LookupEngine.Utf8
