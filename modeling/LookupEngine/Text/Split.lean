/-!
# Cutting text

Cutting at single characters and into lines.  `splitAny` keeps empty pieces, so
joining the pieces restores the text; `lines` gives one piece for each line feed
and one more for what follows the last, unless nothing does.
-/

namespace LookupEngine.Text

/-- The pieces between the characters that satisfy `p`, empty ones included. -/
def splitAny (p : Char → Bool) : List Char → List (List Char)
  | [] => [[]]
  | c :: rest =>
    if p c then [] :: splitAny p rest
    else
      match splitAny p rest with
      | [] => [[c]]
      | piece :: pieces => (c :: piece) :: pieces

theorem splitAny_ne_nil (p : Char → Bool) (cs : List Char) : splitAny p cs ≠ [] := by
  induction cs with
  | nil => simp [splitAny]
  | cons c rest ih =>
    unfold splitAny
    split
    · simp
    · split <;> simp

/-- What stands before and after the first `mark`, if there is one. -/
def splitOnce (mark : Char) : List Char → Option (List Char × List Char)
  | [] => none
  | c :: rest =>
    if c = mark then some ([], rest)
    else (splitOnce mark rest).map fun (before, after) => (c :: before, after)

theorem splitOnce_eq_some {mark : Char} {cs before after : List Char}
    (h : splitOnce mark cs = some (before, after)) : cs = before ++ mark :: after := by
  induction cs generalizing before with
  | nil => simp [splitOnce] at h
  | cons c rest ih =>
    unfold splitOnce at h
    split at h
    · next hc => simp_all
    · obtain ⟨⟨b, a⟩, hb, he⟩ := Option.map_eq_some_iff.1 h
      simp only [Prod.mk.injEq] at he
      obtain ⟨rfl, rfl⟩ := he
      simp [ih hb]

/-- Removes one carriage return at the end. -/
def dropReturn (line : List Char) : List Char :=
  match line.reverse with
  | '\r' :: rest => rest.reverse
  | _ => line

/-- The lines of a text.  Each line feed ends one, together with a carriage return
before it; what follows the last line feed is a line of its own if it is not
empty, and keeps its carriage return. -/
def linesOf (cs : List Char) : List (List Char) :=
  match (splitAny (· = '\n') cs).reverse with
  | [] => []
  | last :: ended =>
    (ended.map dropReturn).reverse ++ (if last.isEmpty then [] else [last])

def lines (s : String) : List String := (linesOf s.toList).map String.ofList

/-- The text without `mark` at its start, if it starts with it. -/
def dropMark? (mark : String) (cs : List Char) : Option (List Char) :=
  go mark.toList cs
where
  go : List Char → List Char → Option (List Char)
    | [], rest => some rest
    | _ :: _, [] => none
    | m :: ms, c :: rest => if m = c then go ms rest else none

end LookupEngine.Text
