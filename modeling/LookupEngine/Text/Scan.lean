import LookupEngine.Text.Split
/-!
# Scanning

A scanner reads something off the front of a text, or fails.  Scanners are put together in
sequence; where a choice is made, the second part starts where the first one did.
-/

namespace LookupEngine.Text

/-- What reads from the front of a text. -/
abbrev Scan (α : Type) := StateT (List Char) Option α

namespace Scan

variable {α : Type}

/-- What is left. -/
def rest : Scan (List Char) := get

def fail : Scan α := fun _ => none

/-- The next character, which stays where it is. -/
def peek? : Scan (Option Char) := do return (← get).head?

/-- Takes one character. -/
def next : Scan Char := fun
  | [] => none
  | c :: rest => some (c, rest)

/-- Takes one character that satisfies `p`. -/
def satisfying (p : Char → Bool) : Scan Char := do
  let c ← next
  if p c then pure c else fail

def char (c : Char) : Scan Unit := do
  let _ ← satisfying (· = c)

/-- Takes `c` if it comes next. -/
def char? (c : Char) : Scan Bool := fun
  | [] => some (false, [])
  | d :: rest => if d = c then some (true, rest) else some (false, d :: rest)

/-- Takes the characters of a word. -/
def word (text : String) : Scan Unit := fun cs => (dropMark? text cs).map fun rest => ((), rest)

/-- Takes characters as long as they satisfy `p`. -/
def while_ (p : Char → Bool) : Scan (List Char) := fun cs =>
  some (cs.takeWhile p, cs.dropWhile p)

/-- At least one character that satisfies `p`, and all that follow it. -/
def while1 (p : Char → Bool) : Scan (List Char) := do
  let found ← while_ p
  if found.isEmpty then fail else pure found

/-- Exactly `n` characters that satisfy `p`. -/
def exactly (n : Nat) (p : Char → Bool) : Scan (List Char) := fun cs =>
  let found := cs.take n
  if found.length = n ∧ found.all p then some (found, cs.drop n) else none

/-- What a scanner reads, if it reads anything. -/
def optional (scan : Scan α) : Scan (Option α) := fun cs =>
  match scan cs with
  | some (value, rest) => some (some value, rest)
  | none => some (none, cs)

/-- The first of two scanners that reads anything. -/
def orElse (first second : Scan α) : Scan α := fun cs =>
  match first cs with
  | some result => some result
  | none => second cs

/-- Demands that the text ends here. -/
def atEnd : Scan Unit := fun
  | [] => some ((), [])
  | _ :: _ => none

/-- What a scanner makes of a whole text. -/
def all? (scan : Scan α) (cs : List Char) : Option α :=
  match scan cs with
  | some (value, []) => some value
  | _ => none

end Scan

end LookupEngine.Text
