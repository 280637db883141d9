import LookupEngine.Shell.Syntax
/-!
# Misreadings

Why a text cannot be read as shell commands.  The text is cut into tokens, and the first token
that has no place where it stands is to blame, else the end of the text.
-/

namespace LookupEngine.Shell

open Text (Scan)

inductive Misreading where
  | openQuote
  | strayToken (token : String)
  | strayWord
  /-- The text ends too early; something may be missing for sure. -/
  | ended (missing : Option String)
deriving Repr, DecidableEq

namespace Misreading

def message : Misreading → String
  | openQuote => "Syntax error: Unterminated quoted string"
  | strayToken token => s!"Syntax error: \x22{token}\x22 unexpected"
  | strayWord => "Syntax error: word unexpected"
  | ended none => "Syntax error: end of file unexpected"
  | ended (some token) => s!"Syntax error: end of file unexpected (expecting \x22{token}\x22)"

inductive Token where
  | operator (text : String)
  | word (text : String)
  | newline
  /-- A word that has no end. -/
  | endless
deriving Repr, DecidableEq

/-- Operators, the longest first. -/
def operators : List String := [";;", "&&", "||", ">>", ">&", ";", "&", "|", "<", ">", "(", ")"]

/-- One token, if any is left. -/
def token : Scan (Option Token) := do
  skipBlanks
  match ← Scan.peek? with
  | none => pure none
  | some '\n' => do
    let _ ← Scan.next
    pure (some .newline)
  | some _ =>
    let cs ← Scan.rest
    match operators.find? fun text => (Text.dropMark? text cs).isSome with
    | some text => do
      Scan.word text
      pure (some (.operator text))
    | none =>
      let before ← Scan.rest
      match ← Scan.optional word with
      | none => do
        set ([] : List Char)
        pure (some .endless)
      | some _ =>
        let after ← Scan.rest
        pure (some (.word (String.ofList (before.take (before.length - after.length)))))

def tokensSteps : Nat → List Char → List Token
  | 0, _ => []
  | steps + 1, cs =>
    match token cs with
    | some (some found, rest) => found :: tokensSteps steps rest
    | _ => []

def tokens (cs : List Char) : List Token := tokensSteps (cs.length + 1) cs

/-- What is open, the innermost first, by what is missing there, and whether a command has to
come now. -/
structure Place where
  missing : List String
  atStart : Bool
  needsCommand : Bool

namespace Place

def inside (place : Place) (missing : String) : Place := ⟨missing :: place.missing, true, true⟩

/-- Goes on with another part of what is open. -/
def next (place : Place) (missing : String) : Place := ⟨missing :: place.missing.tail, true, true⟩

def closed (place : Place) : Place := ⟨place.missing.tail, false, false⟩

def within (place : Place) : Place := { place with atStart := false, needsCommand := false }

end Place

/-- What the words with a meaning of their own open, continue and close. -/
def keyword? (place : Place) (text : String) : Option (Except Misreading Place) :=
  let demands (missing : String) (next : Place) : Except Misreading Place :=
    if place.missing.head? = some missing then .ok next else .error (.strayToken text)
  match text with
  | "if" => some (.ok (place.inside "then"))
  | "while" => some (.ok (place.inside "do"))
  | "until" => some (.ok (place.inside "do"))
  | "for" => some (.ok { place.inside "do" with atStart := false, needsCommand := false })
  | "\x7b" => some (.ok (place.inside "\x7d"))
  | "!" => some (.ok place)
  | "then" => some (demands "then" (place.next "fi"))
  | "elif" => some (demands "fi" (place.next "then"))
  | "else" => some (demands "fi" (place.next "fi"))
  | "fi" => some (demands "fi" place.closed)
  | "do" => some (demands "do" (place.next "done"))
  | "done" => some (demands "done" place.closed)
  | "\x7d" => some (demands "\x7d" place.closed)
  | _ => none

/-- Follows the tokens up to the one that is to blame. -/
def follow (place : Place) : List Token → Misreading
  | [] => .ended place.missing.head?
  | .endless :: _ => .openQuote
  | .newline :: rest => follow { place with atStart := true } rest
  | .word text :: rest =>
    if !place.atStart then follow place.within rest
    else
      match keyword? place text with
      | some (.ok place) => follow place rest
      | some (.error misreading) => misreading
      | none => follow place.within rest
  | .operator text :: rest =>
    match text with
    | "(" => if place.atStart then follow (place.inside ")") rest else .strayToken text
    | ")" =>
      if place.missing.head? = some ")" && !place.needsCommand then follow place.closed rest
      else .strayToken text
    | "<" | ">" | ">>" | ">&" =>
      match rest with
      | .word _ :: rest => follow place.within rest
      | .operator text :: _ => .strayToken text
      | .newline :: _ => .strayWord
      | .endless :: _ => .openQuote
      | [] => .ended none
    | ";;" => .strayToken text
    | _ =>
      if place.atStart then .strayToken text
      else follow { place with atStart := true, needsCommand := text ≠ ";" && text ≠ "&" } rest

/-- Whether the quotes of a word are what has no end. -/
def hasOpenQuote (cs : List Char) : Bool :=
  match cs.filter fun c => c = '\x27' || c = '\x22' with
  | [] => false
  | first :: _ => cs.count first % 2 = 1

/-- What is wrong with a text. -/
def of (cs : List Char) : Misreading :=
  match follow ⟨[], true, false⟩ (tokens cs) with
  | .openQuote => if hasOpenQuote cs then .openQuote else .ended (some ")")
  | misreading => misreading

end Misreading

end LookupEngine.Shell
