import LookupEngine.Text.Split
/-!
# Cutting and joining

Cutting at a character undoes joining with it, and every text is the join of its pieces.  So the
pieces of a text are known by how the text is written, without a look at how it is cut.
-/

namespace LookupEngine.Text

theorem splitAny_eq_splitOnP (p : Char → Bool) (cs : List Char) :
    splitAny p cs = cs.splitOnP p := by
  induction cs with
  | nil => rfl
  | cons c rest ih =>
    rw [splitAny, List.splitOnP_cons_eq_if_modifyHead, ih]
    cases hrest : rest.splitOnP p with
    | nil => exact absurd hrest (List.splitOnP_ne_nil p rest)
    | cons piece pieces => rfl

theorem splitAny_append {p : Char → Bool} {c : Char} (hc : p c = true) (front back : List Char) :
    splitAny p (front ++ c :: back) = splitAny p front ++ splitAny p back := by
  simp only [splitAny_eq_splitOnP]
  exact List.splitOnP_append_cons front back hc

theorem splitAny_of_forall_not {p : Char → Bool} {cs : List Char}
    (h : ∀ c ∈ cs, ¬ p c = true) : splitAny p cs = [cs] := by
  rw [splitAny_eq_splitOnP]
  exact List.splitOnP_eq_singleton fun c hc => by simpa using h c hc

/-- A piece has only characters of the text, and none at which the text is cut. -/
theorem of_mem_splitAny {p : Char → Bool} {cs piece : List Char} (h : piece ∈ splitAny p cs) :
    ∀ c ∈ piece, c ∈ cs ∧ ¬ p c = true := by
  induction cs generalizing piece with
  | nil =>
    rw [splitAny, List.mem_singleton] at h
    rw [h]
    exact fun c hc => absurd hc List.not_mem_nil
  | cons first rest ih =>
    have hlater : ∀ other ∈ splitAny p rest, ∀ c ∈ other, c ∈ first :: rest ∧ ¬ p c = true :=
      fun other hother c hc => (ih hother c hc).imp_left (List.mem_cons_of_mem first)
    rw [splitAny] at h
    by_cases hfirst : p first = true
    · rw [if_pos hfirst, List.mem_cons] at h
      rcases h with rfl | h
      · exact fun c hc => absurd hc List.not_mem_nil
      · exact hlater piece h
    · rw [if_neg hfirst] at h
      cases hrest : splitAny p rest with
      | nil => exact absurd hrest (splitAny_ne_nil p rest)
      | cons head pieces =>
        rw [hrest] at h hlater
        rcases List.mem_cons.1 h with rfl | h
        · intro c hc
          rcases List.mem_cons.1 hc with rfl | hc
          · exact ⟨List.mem_cons_self, hfirst⟩
          · exact hlater head List.mem_cons_self c hc
        · exact hlater piece (List.mem_cons_of_mem head h)

/-- A text is some pieces with `mark` between them and in none of them. -/
structure Joins (mark : Char) (pieces : List (List Char)) (text : List Char) : Prop where
  ne_nil : pieces ≠ []
  plain : ∀ piece ∈ pieces, mark ∉ piece
  text_eq : [mark].intercalate pieces = text

theorem splitAny_eq_splitOn (mark : Char) (cs : List Char) :
    splitAny (· = mark) cs = cs.splitOn mark := by
  rw [splitAny_eq_splitOnP, List.splitOn_eq_splitOnP]
  congr 1

/-- The pieces of a text are those that it is joined from. -/
theorem splitAny_eq_iff_joins {mark : Char} {pieces : List (List Char)} {text : List Char} :
    splitAny (· = mark) text = pieces ↔ Joins mark pieces text := by
  constructor
  · rintro rfl
    refine ⟨splitAny_ne_nil _ text, ?_, ?_⟩
    · intro piece hpiece hmark
      exact (of_mem_splitAny hpiece mark hmark).2 (decide_eq_true rfl)
    · rw [splitAny_eq_splitOn, List.intercalate_splitOn]
  · rintro ⟨hne, hplain, rfl⟩
    rw [splitAny_eq_splitOn, List.splitOn_intercalate mark hplain hne]

/-- A text is some pieces with a mark between any two of them. -/
inductive Interposed (isMark : Char → Bool) : List (List Char) → List Char → Prop
  | nil : Interposed isMark [] []
  | single (piece : List Char) : Interposed isMark [piece] piece
  | cons {piece next text : List Char} {c : Char} {pieces : List (List Char)}
    (hmark : isMark c = true) (hrest : Interposed isMark (next :: pieces) text) :
    Interposed isMark (piece :: next :: pieces) (piece ++ c :: text)

/-- A text is some pieces with a mark between any two of them and in none of them. -/
structure JoinsAt (isMark : Char → Bool) (pieces : List (List Char)) (text : List Char) :
    Prop where
  ne_nil : pieces ≠ []
  plain : ∀ piece ∈ pieces, ∀ c ∈ piece, ¬ isMark c = true
  interposed : Interposed isMark pieces text

theorem interposed_splitAny (p : Char → Bool) (text : List Char) :
    Interposed p (splitAny p text) text := by
  induction text with
  | nil => exact .single []
  | cons c rest ih =>
    rw [splitAny]
    cases hpieces : splitAny p rest with
    | nil => exact absurd hpieces (splitAny_ne_nil p rest)
    | cons piece pieces =>
      rw [hpieces] at ih
      split
      · next hmark => exact .cons hmark ih
      -- A character that is no mark only makes the first piece longer.
      · cases ih with
        | single => exact .single _
        | cons hmark hrest => exact .cons hmark hrest

theorem splitAny_of_interposed {p : Char → Bool} {pieces : List (List Char)} {text : List Char}
    (hne : pieces ≠ []) (hplain : ∀ piece ∈ pieces, ∀ c ∈ piece, ¬ p c = true)
    (h : Interposed p pieces text) : splitAny p text = pieces := by
  induction h with
  | nil => exact absurd rfl hne
  | single piece => exact splitAny_of_forall_not (List.forall_mem_singleton.1 hplain)
  | cons hmark hrest ih =>
    obtain ⟨hpiece, hpieces⟩ := List.forall_mem_cons.1 hplain
    rw [splitAny_append hmark, splitAny_of_forall_not hpiece,
      ih (List.cons_ne_nil _ _) hpieces, List.singleton_append]

/-- However the marks are mixed, the pieces of a text are those that it is joined from. -/
theorem splitAny_eq_iff_joinsAt {p : Char → Bool} {pieces : List (List Char)}
    {text : List Char} : splitAny p text = pieces ↔ JoinsAt p pieces text := by
  constructor
  · rintro rfl
    exact ⟨splitAny_ne_nil p text, fun piece hpiece c hc => (of_mem_splitAny hpiece c hc).2,
      interposed_splitAny p text⟩
  · rintro ⟨hne, hplain, h⟩
    exact splitAny_of_interposed hne hplain h

theorem interposed_intercalate {p : Char → Bool} {c : Char} (hc : p c = true)
    (pieces : List (List Char)) : Interposed p pieces ([c].intercalate pieces) := by
  induction pieces with
  | nil => exact .nil
  | cons piece rest ih =>
    cases rest with
    | nil =>
      rw [List.intercalate_singleton]
      exact .single piece
    | cons next rest =>
      rw [List.intercalate_cons_cons, List.append_assoc, List.singleton_append]
      exact .cons hc ih

/-! ## The first mark -/

theorem splitOnce_append {mark : Char} {before : List Char} (h : mark ∉ before)
    (after : List Char) : splitOnce mark (before ++ mark :: after) = some (before, after) := by
  induction before with
  | nil => rw [List.nil_append, splitOnce, if_pos rfl]
  | cons c before ih =>
    rw [List.mem_cons, not_or] at h
    obtain ⟨hc, hbefore⟩ := h
    rw [List.cons_append, splitOnce, if_neg (Ne.symm hc), ih hbefore]
    rfl

theorem not_mem_of_splitOnce {mark : Char} {cs before after : List Char}
    (h : splitOnce mark cs = some (before, after)) : mark ∉ before := by
  induction cs generalizing before with
  | nil => cases h
  | cons c rest ih =>
    rw [splitOnce] at h
    split at h
    · obtain ⟨rfl, -⟩ := Prod.mk.inj (Option.some.inj h)
      exact List.not_mem_nil
    · next hc =>
      obtain ⟨⟨front, back⟩, hrest, heq⟩ := Option.map_eq_some_iff.1 h
      obtain ⟨rfl, rfl⟩ := Prod.mk.inj heq
      rw [List.mem_cons, not_or]
      exact ⟨Ne.symm hc, ih hrest⟩

theorem splitOnce_eq_none_iff {mark : Char} {cs : List Char} :
    splitOnce mark cs = none ↔ mark ∉ cs := by
  constructor
  · intro hnone hmem
    obtain ⟨before, after, rfl, hbefore⟩ := List.eq_append_cons_of_mem hmem
    rw [splitOnce_append hbefore] at hnone
    cases hnone
  · intro hmark
    rw [Option.eq_none_iff_forall_not_mem]
    intro cut hcut
    rw [splitOnce_eq_some hcut] at hmark
    exact hmark (List.mem_append_right _ List.mem_cons_self)

end LookupEngine.Text
