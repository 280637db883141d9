import LookupEngine.Number.Digits
import LookupEngine.Text.Split
/-!
# Places in a YAML text

Blocks are told apart by columns, so a place is what is left of the text together with the
column it starts in.  Between two tokens stand blanks, comments and line breaks.  A tab is a
blank only where no key may start, because it must not indent a block.
-/

namespace LookupEngine.Yaml

/-- A place in a text. -/
structure Cursor where
  rest : List Char
  column : Nat
deriving Repr, DecidableEq

def isBreak (c : Char) : Bool :=
  c = '\n' || c = '\r' || c.toNat = 0x85 || c.toNat = 0x2028 || c.toNat = 0x2029

def isBlank (c : Char) : Bool := c = ' ' || c = '\t'

/-- Whether a word ends in front of the text. -/
def endsWord : List Char → Bool
  | [] => true
  | c :: _ => isBlank c || isBreak c

/-- Characters that a text may hold. -/
def isPrintable (c : Char) : Bool :=
  let n := c.toNat
  n = 0x9 || n = 0xA || n = 0xD || (0x20 ≤ n && n ≤ 0x7E) || n = 0x85 ||
    (0xA0 ≤ n && n ≤ 0xFFFD && n ≠ 0xFEFF) || 0x10000 ≤ n

namespace Cursor

def start (cs : List Char) : Cursor := ⟨cs, 0⟩

def atEnd (cursor : Cursor) : Bool := cursor.rest.isEmpty

def peek? (cursor : Cursor) : Option Char := cursor.rest.head?

/-- Passes over characters on one line. -/
def advance (n : Nat) (cursor : Cursor) : Cursor := ⟨cursor.rest.drop n, cursor.column + n⟩

/-- Passes over a line break, of which a carriage return and a line feed are one, and tells
what it stands for. -/
def lineBreak? (cursor : Cursor) : Option (Char × Cursor) :=
  match cursor.rest with
  | '\r' :: '\n' :: rest => some ('\n', ⟨rest, 0⟩)
  | c :: rest =>
    if isBreak c then
      some (if c.toNat = 0x2028 || c.toNat = 0x2029 then c else '\n', ⟨rest, 0⟩)
    else none
  | [] => none

/-- Whether a mark stands here as a word of its own. -/
def isAt (mark : String) (cursor : Cursor) : Bool :=
  match Text.dropMark? mark cursor.rest with
  | some rest => endsWord rest
  | none => false

/-- Whether a document starts or ends here. -/
def atMarker (cursor : Cursor) : Bool :=
  cursor.column = 0 && (cursor.isAt "---" || cursor.isAt "...")

/-- Passes over blanks on one line. -/
def skipBlanks (cursor : Cursor) : Cursor :=
  cursor.advance (cursor.rest.takeWhile isBlank).length

/-- Passes over everything up to the next line break. -/
def skipLine (cursor : Cursor) : Cursor :=
  cursor.advance (cursor.rest.takeWhile fun c => !isBreak c).length

/-- Passes over what stands between two tokens; `flow` tells whether a bracket is open and
`keys` whether a key may start here.  Tells the same of the place behind. -/
def skipGap (flow : Bool) : Nat → Bool → Cursor → Bool × Cursor
  | 0, keys, cursor => (keys, cursor)
  | fuel + 1, keys, cursor =>
    let blank (c : Char) := c = ' ' || ((flow || !keys) && c = '\t')
    let cursor := cursor.advance (cursor.rest.takeWhile blank).length
    let cursor := if cursor.peek? = some '#' then cursor.skipLine else cursor
    match cursor.lineBreak? with
    | some (_, cursor) => skipGap flow fuel (!flow || keys) cursor
    | none => (keys, cursor)

/-- Passes over a gap outside of brackets. -/
def gap (keys : Bool) (cursor : Cursor) : Bool × Cursor :=
  skipGap false (cursor.rest.length + 1) keys cursor

/-- Passes over a gap inside of brackets. -/
def flowGap (cursor : Cursor) : Cursor := (skipGap true (cursor.rest.length + 1) true cursor).2

end Cursor

end LookupEngine.Yaml
