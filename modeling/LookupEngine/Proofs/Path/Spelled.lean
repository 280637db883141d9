import Mathlib.Data.List.Induction
import LookupEngine.Proofs.Path.Steps
/-!
# Absolute paths by their names

An absolute path is spelled by putting a slash before each of its names.  A slash at the end adds
no name, and a repeated slash adds none either, so that a path inside a directory is known by the
names of the directory and those that follow them.
-/

namespace LookupEngine.Path

/-- A name on a path. -/
structure IsName (name : List Char) : Prop where
  ne_nil : name ≠ []
  no_slash : '/' ∉ name

instance (name : List Char) : Decidable (IsName name) :=
  decidable_of_iff (name ≠ [] ∧ '/' ∉ name) ⟨fun h => ⟨h.1, h.2⟩, fun h => ⟨h.1, h.2⟩⟩

/-- The names that a path holds, `.` and `..` among them. -/
def pieces (path : List Char) : List (List Char) :=
  (Text.splitAny (· = '/') path).filter (!·.isEmpty)

/-- The names of an absolute path with a slash before each. -/
def spelled (names : List (List Char)) : List Char := names.flatMap fun name => '/' :: name

/-- The path of some names inside a directory. -/
def below (dir : String) (names : List (List Char)) : String :=
  String.ofList (spelled (pieces dir.toList ++ names))

theorem spelled_append (front back : List (List Char)) :
    spelled (front ++ back) = spelled front ++ spelled back := List.flatMap_append

theorem spelled_concat (names : List (List Char)) (name : List Char) :
    spelled (names ++ [name]) = spelled names ++ '/' :: name := by
  rw [spelled_append]
  simp only [spelled, List.flatMap_cons, List.flatMap_nil, List.append_nil]

theorem splitAny_no_slash {name : List Char} (h : '/' ∉ name) :
    Text.splitAny (· = '/') name = [name] := by
  apply Text.splitAny_of_forall_not
  intro c hc heq
  obtain rfl : c = '/' := of_decide_eq_true heq
  exact h hc

theorem splitAny_append_slash (front back : List Char) :
    Text.splitAny (· = '/') (front ++ '/' :: back) =
      Text.splitAny (· = '/') front ++ Text.splitAny (· = '/') back :=
  Text.splitAny_append (by decide) front back

theorem splitAny_spelled {names : List (List Char)} (h : ∀ name ∈ names, '/' ∉ name) :
    Text.splitAny (· = '/') (spelled names) = [] :: names := by
  induction names using List.reverseRecOn with
  | nil => rfl
  | append_singleton names name ih =>
    rw [List.forall_mem_append, List.forall_mem_singleton] at h
    rw [spelled_concat, splitAny_append_slash, ih h.1, splitAny_no_slash h.2, List.cons_append]

theorem filter_of_isName {names : List (List Char)} (h : ∀ name ∈ names, IsName name) :
    names.filter (!·.isEmpty) = names := by
  rw [List.filter_eq_self]
  intro name hname
  simpa using (h name hname).ne_nil

/-- The names of a spelled path are those it was spelled from. -/
theorem pieces_spelled {names : List (List Char)} (h : ∀ name ∈ names, IsName name) :
    pieces (spelled names) = names := by
  rw [pieces, splitAny_spelled fun name hname => (h name hname).no_slash,
    List.filter_cons_of_neg (by simp), filter_of_isName h]

theorem no_slash_of_mem_splitAny {path name : List Char}
    (h : name ∈ Text.splitAny (· = '/') path) : '/' ∉ name :=
  fun hslash => (Text.of_mem_splitAny h '/' hslash).2 (decide_eq_true rfl)

theorem pieces_append_slash (front back : List Char) :
    pieces (front ++ '/' :: back) = pieces front ++ pieces back := by
  rw [pieces, splitAny_append_slash, List.filter_append]
  rfl

theorem isName_of_mem_pieces {path name : List Char} (h : name ∈ pieces path) : IsName name := by
  rw [pieces, List.mem_filter] at h
  exact ⟨by simpa using h.2, no_slash_of_mem_splitAny h.1⟩

theorem getLast?_spelled_ne {names : List (List Char)} (h : ∀ name ∈ names, IsName name) :
    (spelled names).getLast? ≠ some '/' := by
  induction names using List.reverseRecOn with
  | nil => simp [spelled]
  | append_singleton names name _ =>
    rw [List.forall_mem_append, List.forall_mem_singleton] at h
    rw [spelled_concat, List.getLast?_append_of_ne_nil _ (by simp),
      List.getLast?_cons_of_ne_nil h.2.ne_nil]
    intro hlast
    exact h.2.no_slash (List.mem_of_getLast? hlast)

/-! ## Writing a path -/

theorem isAbsoluteChars_iff {cs : List Char} :
    isAbsoluteChars cs = true ↔ ∃ rest, cs = '/' :: rest := by
  constructor
  · intro h
    unfold isAbsoluteChars at h
    split at h
    · next rest => exact ⟨rest, rfl⟩
    · cases h
  · rintro ⟨rest, rfl⟩
    rfl

/-- The path has these names, perhaps with a slash at its end.  The root has no other form. -/
inductive Spells (path : String) (names : List (List Char)) : Prop
  | bare (hne : names ≠ []) (h : path.toList = spelled names)
  | slashed (h : path.toList = spelled names ++ ['/'])

theorem spells_root : Spells "/" [] := .slashed rfl

section

variable {path : String} {found : List (List Char)}

theorem Spells.isAbsolute (h : Spells path found) : isAbsolute path = true := by
  rw [Path.isAbsolute]
  cases h with
  | bare hne h =>
    obtain ⟨name, rest, rfl⟩ := List.exists_cons_of_ne_nil hne
    rw [h]
    rfl
  | slashed h =>
    rw [h]
    cases found <;> rfl

theorem Spells.ne_dot (h : Spells path found) : path ≠ "." := by
  rintro rfl
  exact absurd h.isAbsolute (by decide)

theorem isAbsoluteChars_of_isName {name : List Char} (h : IsName name) :
    isAbsoluteChars name = false := by
  rw [← Bool.not_eq_true, isAbsoluteChars_iff]
  rintro ⟨rest, rfl⟩
  exact h.no_slash List.mem_cons_self

theorem Spells.join (h : Spells path found) (hfound : ∀ name ∈ found, IsName name)
    {name : List Char} (hname : IsName name) :
    (join path (String.ofList name)).toList = spelled (found ++ [name]) := by
  rw [Path.join, String.toList_ofList, String.toList_ofList, joinChars,
    isAbsoluteChars_of_isName hname, spelled_concat]
  cases h with
  | bare hne h =>
    obtain ⟨first, rest, rfl⟩ := List.exists_cons_of_ne_nil hne
    rw [h, if_neg (by simp [spelled]), if_neg (getLast?_spelled_ne hfound)]
  | slashed h =>
    rw [h, if_neg (by simp), if_pos (by simp), List.append_assoc]
    rfl

/-- An empty name only leaves a slash at the end. -/
theorem Spells.join_empty (h : Spells path found) (hfound : ∀ name ∈ found, IsName name) :
    (Path.join path "").toList = spelled found ++ ['/'] := by
  rw [Path.join, String.toList_ofList, joinChars]
  cases h with
  | bare hne h =>
    obtain ⟨first, rest, rfl⟩ := List.exists_cons_of_ne_nil hne
    rw [h, if_neg (by simp [spelled, isAbsoluteChars]), if_neg (getLast?_spelled_ne hfound)]
    rfl
  | slashed h =>
    rw [h, if_neg (by simp [isAbsoluteChars]), if_pos (by simp)]
    exact List.append_nil _

end

theorem names_spelled {found : List (List Char)} (h : ∀ name ∈ found, IsName name) :
    names (spelled found) = found := by
  have hpieces := pieces_spelled h
  rw [pieces] at hpieces
  rw [names, hpieces, if_neg (getLast?_spelled_ne h)]

theorem names_spelled_slash {found : List (List Char)} (h : ∀ name ∈ found, IsName name) :
    names (spelled found ++ ['/']) = found ++ [['.']] := by
  have hpieces := pieces_spelled h
  rw [pieces] at hpieces
  rw [names, splitAny_append_slash, List.filter_append, hpieces, if_pos (by simp)]
  simp [Text.splitAny]

end LookupEngine.Path
