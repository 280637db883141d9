import LookupEngine.Text.Blank
/-!
# Words and the blanks between them

A text has some words exactly if it is written as these with blanks between them.  A blank ends a
word wherever it stands, so the words before it and the words after it are found apart.
-/

namespace LookupEngine.Text

/-- Blanks and nothing else, perhaps none at all. -/
def IsGap (cs : List Char) : Prop := ∀ c ∈ cs, isBlank c = true

instance (cs : List Char) : Decidable (IsGap cs) :=
  decidable_of_iff (cs.all isBlank = true) List.all_eq_true

/-- At least one character and no blank. -/
structure IsWord (cs : List Char) : Prop where
  ne_nil : cs ≠ []
  solid : ∀ c ∈ cs, isBlank c = false

theorem isWord_iff_all {cs : List Char} :
    (!cs.isEmpty && cs.all fun c => !isBlank c) = true ↔ IsWord cs := by
  rw [Bool.and_eq_true, List.all_eq_true]
  constructor
  · rintro ⟨hne, hsolid⟩
    exact ⟨by simpa using hne, fun c hc => by simpa using hsolid c hc⟩
  · rintro ⟨hne, hsolid⟩
    exact ⟨by simpa using hne, fun c hc => by simpa using hsolid c hc⟩

instance (cs : List Char) : Decidable (IsWord cs) := decidable_of_iff _ isWord_iff_all

/-- The texts that hold some words in order, each followed by a blank or by nothing more. -/
inductive Spaced : List (List Char) → List Char → Prop
  | gap {gap : List Char} (hgap : IsGap gap) : Spaced [] gap
  | word {gap word rest : List Char} {words : List (List Char)} (hgap : IsGap gap)
      (hword : IsWord word) (hends : ∀ c, rest.head? = some c → isBlank c = true)
      (hrest : Spaced words rest) : Spaced (word :: words) (gap ++ word ++ rest)

theorem wordsFrom_cons_of_blank {c : Char} (h : isBlank c = true) (run rest : List Char) :
    wordsFrom run (c :: rest) =
      (if run.isEmpty then [] else [run]) ++ wordsFrom [] rest := by
  rw [wordsFrom, if_pos h]
  cases run <;> rfl

theorem wordsFrom_cons_of_not_blank {c : Char} (h : isBlank c = false) (run rest : List Char) :
    wordsFrom run (c :: rest) = wordsFrom (run ++ [c]) rest := by
  rw [wordsFrom, if_neg (by simp [h])]

theorem wordsFrom_append_blank {c : Char} (h : isBlank c = true) (run before after : List Char) :
    wordsFrom run (before ++ c :: after) = wordsFrom run before ++ wordsFrom [] after := by
  induction before generalizing run with
  | nil =>
    rw [List.nil_append, wordsFrom_cons_of_blank h]
    rfl
  | cons b before ih =>
    rw [List.cons_append]
    cases hb : isBlank b with
    | true => rw [wordsFrom_cons_of_blank hb, wordsFrom_cons_of_blank hb, ih, List.append_assoc]
    | false => rw [wordsFrom_cons_of_not_blank hb, wordsFrom_cons_of_not_blank hb, ih]

/-- A blank ends a word. -/
theorem words_append_blank {c : Char} (h : isBlank c = true) (before after : List Char) :
    words (before ++ c :: after) = words before ++ words after :=
  wordsFrom_append_blank h [] before after

theorem words_gap_append {gap : List Char} (h : IsGap gap) (rest : List Char) :
    words (gap ++ rest) = words rest := by
  induction gap with
  | nil => rfl
  | cons c gap ih =>
    obtain ⟨hc, hgap⟩ := List.forall_mem_cons.1 h
    rw [List.cons_append, words, wordsFrom_cons_of_blank hc]
    exact ih hgap

theorem words_of_isGap {gap : List Char} (h : IsGap gap) : words gap = [] := by
  have hwords := words_gap_append h []
  rwa [List.append_nil] at hwords

theorem wordsFrom_of_solid {cs : List Char} (h : ∀ c ∈ cs, isBlank c = false)
    (run : List Char) : wordsFrom run cs = if (run ++ cs).isEmpty then [] else [run ++ cs] := by
  induction cs generalizing run with
  | nil => rw [List.append_nil]; rfl
  | cons c cs ih =>
    obtain ⟨hc, hcs⟩ := List.forall_mem_cons.1 h
    rw [wordsFrom_cons_of_not_blank hc, ih hcs, List.append_assoc, List.singleton_append]

theorem words_of_isWord {word : List Char} (h : IsWord word) : words word = [word] := by
  rw [words, wordsFrom_of_solid h.solid, List.nil_append, if_neg (by simpa using h.ne_nil)]

theorem words_word_append {word rest : List Char} (h : IsWord word)
    (hends : ∀ c, rest.head? = some c → isBlank c = true) :
    words (word ++ rest) = word :: words rest := by
  cases rest with
  | nil => rw [List.append_nil, words_of_isWord h]; rfl
  | cons c rest =>
    have hc := hends c rfl
    have hskip : words ([c] ++ rest) = words rest :=
      words_gap_append (List.forall_mem_singleton.2 hc) rest
    rw [List.singleton_append] at hskip
    rw [words_append_blank hc, words_of_isWord h, hskip, List.singleton_append]

/-- Words with one space between them are read as they are. -/
theorem words_intercalate_space {ws : List (List Char)} (h : ∀ word ∈ ws, IsWord word) :
    words ([' '].intercalate ws) = ws := by
  induction ws with
  | nil => rfl
  | cons word rest ih =>
    obtain ⟨hword, hrest⟩ := List.forall_mem_cons.1 h
    cases rest with
    | nil => rw [List.intercalate_singleton, words_of_isWord hword]
    | cons next rest =>
      rw [List.intercalate_cons_cons, List.append_assoc, List.singleton_append,
        words_append_blank (by decide), words_of_isWord hword, ih hrest, List.singleton_append]

theorem words_of_spaced {ws : List (List Char)} {cs : List Char} (h : Spaced ws cs) :
    words cs = ws := by
  induction h with
  | gap hgap => exact words_of_isGap hgap
  | word hgap hword hends hrest ih =>
    rw [List.append_assoc, words_gap_append hgap, words_word_append hword hends, ih]

/-- The words before some blanks and the words behind them are found apart. -/
theorem words_append_gap {gap : List Char} (hne : gap ≠ []) (h : IsGap gap)
    (before after : List Char) : words (before ++ gap ++ after) = words before ++ words after := by
  cases gap with
  | nil => exact absurd rfl hne
  | cons c rest =>
    obtain ⟨hc, hrest⟩ := List.forall_mem_cons.1 h
    rw [List.append_assoc, List.cons_append, words_append_blank hc, words_gap_append hrest]

theorem Spaced.cons_blank {c : Char} (hc : isBlank c = true) {ws : List (List Char)}
    {cs : List Char} (h : Spaced ws cs) : Spaced ws (c :: cs) := by
  cases h with
  | gap hgap => exact .gap (List.forall_mem_cons.2 ⟨hc, hgap⟩)
  | word hgap hword hends hrest =>
    rw [← List.cons_append, ← List.cons_append]
    exact .word (List.forall_mem_cons.2 ⟨hc, hgap⟩) hword hends hrest

theorem spaced_wordsFrom {run : List Char} (hrun : ∀ c ∈ run, isBlank c = false)
    (cs : List Char) : Spaced (wordsFrom run cs) (run ++ cs) := by
  have hgap : IsGap [] := fun c hc => absurd hc List.not_mem_nil
  induction cs generalizing run with
  | nil =>
    by_cases hempty : run = []
    · subst hempty
      exact .gap hgap
    · rw [wordsFrom, if_neg (by simpa using hempty)]
      exact .word hgap ⟨hempty, hrun⟩ (fun c hc => by cases hc) (.gap hgap)
  | cons c rest ih =>
    cases hc : isBlank c with
    | true =>
      rw [wordsFrom_cons_of_blank hc]
      have hrest : Spaced (wordsFrom [] rest) (c :: rest) :=
        (ih fun c hc => absurd hc List.not_mem_nil).cons_blank hc
      by_cases hempty : run = []
      · subst hempty
        exact hrest
      · rw [if_neg (by simpa using hempty)]
        refine .word hgap ⟨hempty, hrun⟩ (fun b hb => ?_) hrest
        obtain rfl := Option.some.inj hb
        exact hc
    | false =>
      rw [wordsFrom_cons_of_not_blank hc, List.append_cons run c rest]
      exact ih (List.forall_mem_append.2 ⟨hrun, List.forall_mem_singleton.2 hc⟩)

/-- The words of a text are those that it is written from. -/
theorem words_eq_iff_spaced {ws : List (List Char)} {cs : List Char} :
    words cs = ws ↔ Spaced ws cs := by
  refine ⟨?_, words_of_spaced⟩
  rintro rfl
  exact spaced_wordsFrom (fun c hc => absurd hc List.not_mem_nil) cs

theorem words_eq_nil_iff {cs : List Char} : words cs = [] ↔ IsGap cs := by
  constructor
  · intro h
    cases words_eq_iff_spaced.1 h with
    | gap hgap => exact hgap
  · exact words_of_isGap

end LookupEngine.Text
