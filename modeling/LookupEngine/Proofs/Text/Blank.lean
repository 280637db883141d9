import Mathlib.Data.List.DropRight
import LookupEngine.Text.Blank
/-!
# Trimming

Trimming is the same from both ends, and a second time it finds nothing left to remove.
What is trimmed already is exactly what has no blank at either end, so a blank that is put
behind a text, such as the line feed of a file, is gone when the text is trimmed.
-/

namespace LookupEngine.Text

theorem trimChars_eq (cs : List Char) :
    trimChars cs = (cs.dropWhile isBlank).rdropWhile isBlank := rfl

/-- A blank at the end makes no difference. -/
theorem trimChars_concat_blank {c : Char} (hblank : isBlank c = true) (cs : List Char) :
    trimChars (cs ++ [c]) = trimChars cs := by
  rw [trimChars_eq, trimChars_eq, List.dropWhile_append]
  split
  · next hempty =>
    rw [List.isEmpty_iff.1 hempty]
    simp [List.dropWhile, hblank]
  · rw [List.rdropWhile_concat_pos _ _ _ hblank]

/-- No blank stands at either end. -/
def IsTrimmed (cs : List Char) : Prop :=
  (∀ c, cs.head? = some c → isBlank c = false) ∧ (∀ c, cs.getLast? = some c → isBlank c = false)

theorem dropWhile_eq_self_iff_head? (p : Char → Bool) (cs : List Char) :
    cs.dropWhile p = cs ↔ ∀ c, cs.head? = some c → p c = false := by
  cases cs with
  | nil => simp
  | cons c rest => rw [List.dropWhile_eq_self_iff]; simp

theorem rdropWhile_eq_self_iff_getLast? (p : Char → Bool) (cs : List Char) :
    cs.rdropWhile p = cs ↔ ∀ c, cs.getLast? = some c → p c = false := by
  rw [List.rdropWhile, List.reverse_eq_iff, dropWhile_eq_self_iff_head?, List.head?_reverse]

theorem not_of_head?_dropWhile {p : Char → Bool} {cs : List Char} {c : Char}
    (h : (cs.dropWhile p).head? = some c) : p c = false :=
  (dropWhile_eq_self_iff_head? p _).1 (List.dropWhile_idempotent p cs) c h

theorem not_of_getLast?_rdropWhile {p : Char → Bool} {cs : List Char} {c : Char}
    (h : (cs.rdropWhile p).getLast? = some c) : p c = false :=
  (rdropWhile_eq_self_iff_getLast? p _).1 (List.rdropWhile_idempotent p cs) c h

theorem rdropWhile_append_of_pos {p : Char → Bool} {cs after : List Char}
    (h : ∀ c ∈ after, p c = true) : (cs ++ after).rdropWhile p = cs.rdropWhile p := by
  have hback : ∀ c ∈ after.reverse, p c = true := fun c hc => h c (List.mem_reverse.1 hc)
  rw [List.rdropWhile, List.reverse_append, List.dropWhile_append_of_pos hback, ← List.rdropWhile]

/-- What is removed from the end does not change the first character that is left. -/
theorem head?_of_head?_rdropWhile {p : Char → Bool} {cs : List Char} {c : Char}
    (h : (cs.rdropWhile p).head? = some c) : cs.head? = some c := by
  obtain ⟨rest, hrest⟩ := List.rdropWhile_prefix p (l := cs)
  rw [← hrest, List.head?_append, h, Option.some_or]

theorem trimChars_eq_self_iff (cs : List Char) : trimChars cs = cs ↔ IsTrimmed cs := by
  rw [trimChars_eq]
  constructor
  · intro h
    have hstart : cs.dropWhile isBlank = cs := by
      apply (List.dropWhile_suffix isBlank).eq_of_length_le
      calc cs.length = ((cs.dropWhile isBlank).rdropWhile isBlank).length := by rw [h]
        _ ≤ (cs.dropWhile isBlank).length := (List.rdropWhile_prefix _ _).length_le
    rw [hstart] at h
    exact ⟨(dropWhile_eq_self_iff_head? _ _).1 hstart, (rdropWhile_eq_self_iff_getLast? _ _).1 h⟩
  · rintro ⟨hhead, hlast⟩
    rw [(dropWhile_eq_self_iff_head? _ _).2 hhead, (rdropWhile_eq_self_iff_getLast? _ _).2 hlast]

instance (cs : List Char) : Decidable (IsTrimmed cs) :=
  decidable_of_iff _ (trimChars_eq_self_iff cs)

theorem isTrimmed_trimChars (cs : List Char) : IsTrimmed (trimChars cs) := by
  rw [trimChars_eq]
  exact ⟨fun _ hc => not_of_head?_dropWhile (head?_of_head?_rdropWhile hc),
    fun _ hc => not_of_getLast?_rdropWhile hc⟩

theorem trimChars_trimChars (cs : List Char) : trimChars (trimChars cs) = trimChars cs :=
  (trimChars_eq_self_iff _).2 (isTrimmed_trimChars cs)

/-- A text without blanks is as it is when it is trimmed. -/
theorem isTrimmed_of_forall_not_blank {cs : List Char} (h : ∀ c ∈ cs, isBlank c = false) :
    IsTrimmed cs :=
  ⟨fun c hc => h c (List.mem_of_mem_head? hc), fun c hc => h c (List.mem_of_mem_getLast? hc)⟩

/-- The blanks around a text are not part of it. -/
theorem trimChars_append_append {before cs after : List Char}
    (hbefore : ∀ c ∈ before, isBlank c = true) (hcs : IsTrimmed cs) (hne : cs ≠ [])
    (hafter : ∀ c ∈ after, isBlank c = true) : trimChars (before ++ cs ++ after) = cs := by
  have hhead : ∀ c, (cs ++ after).head? = some c → isBlank c = false := by
    rw [List.head?_append_of_ne_nil _ hne]
    exact hcs.1
  have hlast := (rdropWhile_eq_self_iff_getLast? isBlank cs).2 hcs.2
  calc trimChars (before ++ cs ++ after)
      = (cs ++ after).rdropWhile isBlank := by
        rw [trimChars_eq, List.append_assoc, List.dropWhile_append_of_pos hbefore,
          (dropWhile_eq_self_iff_head? _ _).2 hhead]
    _ = cs.rdropWhile isBlank := rdropWhile_append_of_pos hafter
    _ = cs := hlast

/-- A text is a value with blanks around it, and the value has none at either end. -/
def Trims (text value : List Char) : Prop :=
  ∃ before after, text = before ++ value ++ after ∧ (∀ c ∈ before, isBlank c = true) ∧
    (∀ c ∈ after, isBlank c = true) ∧ IsTrimmed value

theorem trimChars_of_blank {cs : List Char} (h : ∀ c ∈ cs, isBlank c = true) :
    trimChars cs = [] := by
  rw [trimChars_eq, List.dropWhile_eq_nil_iff.2 h, List.rdropWhile_nil]

/-- Trimming gives the one text that is left without the blanks around it. -/
theorem trimChars_eq_iff_trims {text value : List Char} :
    trimChars text = value ↔ Trims text value := by
  constructor
  · rintro rfl
    have hstart := (List.takeWhile_append_dropWhile (p := isBlank) (l := text)).symm
    have hend := (List.rdropWhile_append_rtakeWhile
      (p := isBlank) (l := text.dropWhile isBlank)).symm
    refine ⟨text.takeWhile isBlank, (text.dropWhile isBlank).rtakeWhile isBlank, ?_,
      fun c hc => List.mem_takeWhile_imp hc, fun c hc => List.mem_rtakeWhile_imp hc,
      isTrimmed_trimChars text⟩
    rw [trimChars_eq, List.append_assoc, ← hend, ← hstart]
  · rintro ⟨before, after, rfl, hbefore, hafter, htrimmed⟩
    by_cases hne : value = []
    · subst hne
      rw [List.append_nil]
      exact trimChars_of_blank (List.forall_mem_append.2 ⟨hbefore, hafter⟩)
    · exact trimChars_append_append hbefore htrimmed hne hafter

instance (text value : List Char) : Decidable (Trims text value) :=
  decidable_of_iff _ trimChars_eq_iff_trims

theorem trimChars_eq_nil_iff {cs : List Char} :
    trimChars cs = [] ↔ ∀ c ∈ cs, isBlank c = true := by
  constructor
  · intro h
    obtain ⟨before, after, rfl, hbefore, hafter, -⟩ := trimChars_eq_iff_trims.1 h
    rw [List.append_nil]
    exact List.forall_mem_append.2 ⟨hbefore, hafter⟩
  · exact trimChars_of_blank

theorem mem_of_mem_trimChars {c : Char} {cs : List Char} (h : c ∈ trimChars cs) : c ∈ cs := by
  obtain ⟨before, after, htext, -⟩ := trimChars_eq_iff_trims.1 (rfl : trimChars cs = _)
  rw [htext]
  exact List.mem_append_left after (List.mem_append_right before h)

@[simp]
theorem toList_trim (s : String) : (trim s).toList = trimChars s.toList := by
  simp [trim]

theorem trim_eq_iff_trims {s value : String} :
    trim s = value ↔ Trims s.toList value.toList := by
  rw [← trimChars_eq_iff_trims, ← toList_trim, String.toList_inj]

@[simp]
theorem trim_trim (s : String) : trim (trim s) = trim s := by
  rw [trim, toList_trim, trimChars_trimChars, ← trim]

theorem trim_append_lineFeed (s : String) : trim (s ++ "\n") = trim s := by
  have htext : (s ++ "\n").toList = s.toList ++ ['\n'] := by simp
  rw [trim, htext, trimChars_concat_blank (by decide), ← trim]

theorem trim_eq_self_iff (s : String) : trim s = s ↔ IsTrimmed s.toList := by
  rw [← trimChars_eq_self_iff, ← String.toList_inj, toList_trim]

end LookupEngine.Text
