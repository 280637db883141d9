import Mathlib.Data.List.Basic
import LookupEngine.Proofs.Text.Split
/-!
# Lines and their ends

A text that is written as lines is read as just these lines, however each of them ends: with a
line feed, with a carriage return and a line feed, or, if it is the last and not empty, with
nothing.  Of any text, each line feed ends one line, and what follows the last one is a line too
unless nothing does.
-/

namespace LookupEngine.Text

/-- A line as it stands in a text: no line feed, and no carriage return where it ends. -/
structure IsLine (line : List Char) : Prop where
  no_feed : '\n' ∉ line
  no_return : line.getLast? ≠ some '\r'

theorem isLine_iff_all {line : List Char} :
    (!line.contains '\n' && line.getLast? != some '\r') = true ↔ IsLine line := by
  simp only [Bool.and_eq_true, Bool.not_eq_true', List.contains_eq_mem, decide_eq_false_iff_not,
    bne_iff_ne]
  exact ⟨fun ⟨hfeed, hreturn⟩ => ⟨hfeed, hreturn⟩, fun h => ⟨h.no_feed, h.no_return⟩⟩

instance (line : List Char) : Decidable (IsLine line) := decidable_of_iff _ isLine_iff_all

/-- What ends a line. -/
inductive IsEnd : List Char → Prop
  | feed : IsEnd ['\n']
  | returnFeed : IsEnd ['\r', '\n']

/-- A text is written as some lines.  The last may have no end if it is not empty. -/
inductive Lined : List (List Char) → List Char → Prop
  | nil : Lined [] []
  | last {line : List Char} (hline : IsLine line) (hne : line ≠ []) : Lined [line] line
  | cons {line ending text : List Char} {lines : List (List Char)} (hline : IsLine line)
    (hending : IsEnd ending) (hrest : Lined lines text) :
    Lined (line :: lines) (line ++ ending ++ text)

/-- How many lines a text has. -/
def countLines (text : List Char) : Nat :=
  text.count '\n' + if text = [] ∨ text.getLast? = some '\n' then 0 else 1

theorem dropReturn_concat (line : List Char) : dropReturn (line ++ ['\r']) = line := by
  rw [dropReturn, List.reverse_append]
  exact List.reverse_reverse line

theorem dropReturn_of_getLast? {line : List Char} (h : line.getLast? ≠ some '\r') :
    dropReturn line = line := by
  rw [dropReturn]
  split
  · next rest hline =>
    rw [List.getLast?_eq_head?_reverse, hline] at h
    exact absurd rfl h
  · rfl

theorem mem_of_mem_dropReturn {c : Char} {line : List Char} (h : c ∈ dropReturn line) :
    c ∈ line := by
  rw [dropReturn] at h
  split at h
  · next rest hline =>
    rw [← List.mem_reverse, hline]
    exact List.mem_cons_of_mem _ (List.mem_reverse.1 h)
  · exact h

theorem splitAny_feed_of_not_mem {line : List Char} (h : '\n' ∉ line) :
    splitAny (· = '\n') line = [line] := by
  apply splitAny_of_forall_not
  rintro c hc hfeed
  exact h (of_decide_eq_true hfeed ▸ hc)

/-- Without a line feed, a text is one line, or none if it is empty. -/
theorem linesOf_of_not_mem {line : List Char} (h : '\n' ∉ line) :
    linesOf line = if line.isEmpty then [] else [line] := by
  rw [linesOf, splitAny_feed_of_not_mem h]
  rfl

/-- A line feed ends a line, wherever it stands. -/
theorem linesOf_append_feed {line : List Char} (h : '\n' ∉ line) (text : List Char) :
    linesOf (line ++ '\n' :: text) = dropReturn line :: linesOf text := by
  rw [linesOf, splitAny_append (decide_eq_true rfl), splitAny_feed_of_not_mem h, linesOf,
    List.singleton_append, List.reverse_cons]
  cases hpieces : (splitAny (· = '\n') text).reverse with
  | nil => exact absurd (List.reverse_eq_nil_iff.1 hpieces) (splitAny_ne_nil _ text)
  | cons last ended =>
    rw [List.cons_append]
    dsimp only
    rw [List.map_append, List.map_singleton, List.reverse_concat, List.cons_append]

theorem linesOf_append_end {line ending : List Char} (hline : IsLine line)
    (hending : IsEnd ending) (text : List Char) :
    linesOf (line ++ ending ++ text) = line :: linesOf text := by
  cases hending with
  | feed =>
    rw [List.append_assoc, List.singleton_append, linesOf_append_feed hline.no_feed,
      dropReturn_of_getLast? hline.no_return]
  | returnFeed =>
    have hfeed : '\n' ∉ line ++ ['\r'] := by
      rw [List.mem_append, not_or]
      exact ⟨hline.no_feed, by decide⟩
    have htext : line ++ ['\r', '\n'] ++ text = line ++ ['\r'] ++ '\n' :: text := by simp
    rw [htext, linesOf_append_feed hfeed, dropReturn_concat]

/-- The lines of a text are those that it is written as. -/
theorem linesOf_of_lined {lines : List (List Char)} {text : List Char} (h : Lined lines text) :
    linesOf text = lines := by
  induction h with
  | nil => rfl
  | last hline hne => rw [linesOf_of_not_mem hline.no_feed, if_neg (by simpa using hne)]
  | cons hline hending hrest ih => rw [linesOf_append_end hline hending, ih]

/-- Every text is taken apart at its line feeds, from the first on. -/
theorem induction_on_feeds {motive : List Char → Prop}
    (last : ∀ line, '\n' ∉ line → motive line)
    (cons : ∀ line text, '\n' ∉ line → motive text → motive (line ++ '\n' :: text))
    (text : List Char) : motive text := by
  induction hlength : text.length using Nat.strongRecOn generalizing text with
  | ind length ih =>
    by_cases hfeed : '\n' ∈ text
    · obtain ⟨line, rest, rfl, hline⟩ := List.eq_append_cons_of_mem hfeed
      refine cons line rest hline (ih rest.length ?_ rest rfl)
      rw [← hlength, List.length_append, List.length_cons]
      omega
    · exact last text hfeed

theorem exists_end (line : List Char) :
    ∃ ending, IsEnd ending ∧ line ++ ['\n'] = dropReturn line ++ ending := by
  by_cases hreturn : line.getLast? = some '\r'
  · obtain ⟨front, rfl⟩ := List.getLast?_eq_some_iff.1 hreturn
    exact ⟨['\r', '\n'], .returnFeed, by rw [dropReturn_concat, List.append_assoc]; rfl⟩
  · exact ⟨['\n'], .feed, by rw [dropReturn_of_getLast? hreturn]⟩

/-- A text is written as its lines, unless one of them still has a carriage return at its end. -/
theorem lined_linesOf {text : List Char} (h : ∀ line ∈ linesOf text, IsLine line) :
    Lined (linesOf text) text := by
  induction text using induction_on_feeds with
  | last line hline =>
    by_cases hne : line = []
    · subst hne
      exact .nil
    · have hlines : linesOf line = [line] := by
        rw [linesOf_of_not_mem hline, if_neg (by simpa using hne)]
      rw [hlines, List.forall_mem_singleton] at h
      rw [hlines]
      exact .last h hne
  | cons line text hline ih =>
    rw [linesOf_append_feed hline] at h ⊢
    obtain ⟨hfirst, hrest⟩ := List.forall_mem_cons.1 h
    obtain ⟨ending, hending, hsplit⟩ := exists_end line
    have htext : line ++ '\n' :: text = dropReturn line ++ ending ++ text := by
      rw [← hsplit, List.append_assoc, List.singleton_append]
    rw [htext]
    exact .cons hfirst hending (ih hrest)

/-- What it means to be written as some lines, in terms of how a text is read. -/
theorem lined_iff {lines : List (List Char)} {text : List Char} :
    Lined lines text ↔ linesOf text = lines ∧ ∀ line ∈ lines, IsLine line := by
  constructor
  · intro h
    refine ⟨linesOf_of_lined h, ?_⟩
    induction h with
    | nil => exact fun line hline => absurd hline List.not_mem_nil
    | last hline hne => exact List.forall_mem_singleton.2 hline
    | cons hline hending hrest ih => exact List.forall_mem_cons.2 ⟨hline, ih⟩
  · rintro ⟨rfl, h⟩
    exact lined_linesOf h

theorem countLines_append_feed {line : List Char} (h : '\n' ∉ line) (text : List Char) :
    countLines (line ++ '\n' :: text) = countLines text + 1 := by
  have hcount : (line ++ '\n' :: text).count '\n' = text.count '\n' + 1 := by
    rw [List.count_append, List.count_eq_zero.2 h, List.count_cons_self, Nat.zero_add]
  cases text with
  | nil =>
    rw [countLines, hcount]
    simp [countLines]
  | cons c rest =>
    have hlast : (line ++ '\n' :: c :: rest).getLast? = (c :: rest).getLast? := by
      rw [List.getLast?_append_cons, List.getLast?_cons_cons]
    have hne : line ++ '\n' :: c :: rest ≠ [] := by simp
    rw [countLines, countLines, hcount, hlast]
    simp only [hne, List.cons_ne_nil, false_or]
    omega

theorem length_linesOf (text : List Char) : (linesOf text).length = countLines text := by
  induction text using induction_on_feeds with
  | last line hline =>
    rw [linesOf_of_not_mem hline, countLines, List.count_eq_zero.2 hline]
    by_cases hne : line = []
    · subst hne
      rfl
    · have hlast : line.getLast? ≠ some '\n' := fun hlast => hline (List.mem_of_mem_getLast? hlast)
      simp [hne, hlast]
  | cons line text hline ih =>
    rw [linesOf_append_feed hline, List.length_cons, ih, countLines_append_feed hline]

theorem not_mem_of_mem_linesOf {line text : List Char} (h : line ∈ linesOf text) :
    '\n' ∉ line := by
  induction text using induction_on_feeds with
  | last whole hwhole =>
    rw [linesOf_of_not_mem hwhole] at h
    split at h
    · cases h
    · rwa [List.mem_singleton.1 h]
  | cons first text hfirst ih =>
    rw [linesOf_append_feed hfirst] at h
    rcases List.mem_cons.1 h with rfl | hlater
    · exact fun hmem => hfirst (mem_of_mem_dropReturn hmem)
    · exact ih hlater

end LookupEngine.Text
