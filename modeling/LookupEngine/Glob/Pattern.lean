import LookupEngine.Text.Split
/-!
# Glob patterns

A pattern is a list of tokens.  A star stands for any characters, a question mark for one,
brackets for one of some, or after `!` for one of all others.  Two stars stand for any
directories and have to be a component of their own.  Nothing is escaped, so a bracket that
is not closed spoils the pattern.
-/

namespace LookupEngine.Glob

/-- One item between brackets. -/
inductive Specifier where
  | single (c : Char)
  | range (first last : Char)
deriving Repr, DecidableEq

inductive Token where
  | literal (c : Char)
  | anyChar
  | anySequence
  | anyDirectories
  | within (specifiers : List Specifier)
  | except (specifiers : List Specifier)
deriving Repr, DecidableEq

abbrev Pattern := List Token

/-- Why a text is no pattern, with the position at which it stops to be one. -/
inductive Problem where
  | wildcards (position : Nat)
  | directories (position : Nat)
  | brackets (position : Nat)
deriving Repr, DecidableEq

namespace Problem

def text (position : Nat) (what : String) : String :=
  s!"Pattern syntax error near position {position}: {what}"

def message : Problem → String
  | wildcards position => text position "wildcards are either regular `*` or recursive `**`"
  | directories position =>
    text position "recursive wildcards must form a single path component"
  | brackets position => text position "invalid range pattern"

end Problem

/-- The items between brackets.  A hyphen between two characters makes a range of them. -/
def specifiers : List Char → List Specifier
  | first :: '-' :: last :: rest => .range first last :: specifiers rest
  | c :: rest => .single c :: specifiers rest
  | [] => []

/-- What brackets hold, and what follows them.  The first character after the bracket is
never the closing one. -/
def brackets? (cs : List Char) : Option (Token × List Char) :=
  match cs with
  | '!' :: first :: rest =>
    (Text.splitOnce ']' rest).map fun (inside, rest) =>
      (.except (specifiers (first :: inside)), rest)
  | first :: rest =>
    if first = '!' then none
    else
      (Text.splitOnce ']' rest).map fun (inside, rest) =>
        (.within (specifiers (first :: inside)), rest)
  | [] => none

theorem splitOnce_length {mark : Char} {cs before after : List Char}
    (h : Text.splitOnce mark cs = some (before, after)) : after.length < cs.length := by
  have := Text.splitOnce_eq_some h
  subst this
  simp only [List.length_append, List.length_cons]
  omega

theorem brackets?_length {cs rest : List Char} {token : Token}
    (h : brackets? cs = some (token, rest)) : rest.length < cs.length := by
  unfold brackets? at h
  split at h
  · obtain ⟨⟨_, _⟩, hs, he⟩ := Option.map_eq_some_iff.1 h
    simp only [Prod.mk.injEq] at he
    have := splitOnce_length hs
    rw [← he.2]
    simp only [List.length_cons]
    omega
  · split at h
    · simp at h
    · obtain ⟨⟨_, _⟩, hs, he⟩ := Option.map_eq_some_iff.1 h
      simp only [Prod.mk.injEq] at he
      have := splitOnce_length hs
      rw [← he.2]
      simp only [List.length_cons]
      omega
  · simp at h

/-- Puts a token behind those before; directories that follow directories add nothing. -/
def push (done : List Token) (token : Token) : List Token :=
  if token = .anyDirectories ∧ done.head? = some .anyDirectories ∧ done.length > 1 then done
  else token :: done

/-- Whether two stars may stand after a character. -/
def startsComponent (before : Option Char) : Bool := before.all (· = '/')

/-- Reads tokens.  `total` is the length of the whole text, `before` the character in front of
the rest, and `done` holds the tokens read so far, the latest first. -/
def tokens (total : Nat) (before : Option Char) (done : List Token) (cs : List Char) :
    Except Problem Pattern :=
  let position := total - cs.length
  match cs with
  | [] => .ok done.reverse
  | '?' :: rest => tokens total (some '?') (.anyChar :: done) rest
  | '*' :: '*' :: '*' :: _ => .error (.wildcards (position + 2))
  | '*' :: '*' :: '/' :: rest =>
    if startsComponent before then tokens total (some '/') (push done .anyDirectories) rest
    else .error (.directories (position - 1))
  | ['*', '*'] =>
    if startsComponent before then .ok (push done .anyDirectories).reverse
    else .error (.directories (position - 1))
  | '*' :: '*' :: _ =>
    .error (.directories (if startsComponent before then position + 2 else position - 1))
  | '*' :: rest => tokens total (some '*') (.anySequence :: done) rest
  | '[' :: rest =>
    match hb : brackets? rest with
    | some (token, after) =>
      have := brackets?_length hb
      tokens total (some ']') (token :: done) after
    | none => .error (.brackets position)
  | c :: rest => tokens total (some c) (.literal c :: done) rest
termination_by cs.length

/-- Reads a pattern. -/
def Pattern.parse (cs : List Char) : Except Problem Pattern := tokens cs.length none [] cs

/-- Whether a pattern stands for any directories. -/
def Pattern.isRecursive (pattern : Pattern) : Bool := pattern.contains .anyDirectories

/-- The text that is the only one a pattern matches, if it has no wildcards. -/
def Pattern.literal? : Pattern → Option (List Char)
  | [] => some []
  | .literal c :: rest => (Pattern.literal? rest).map (c :: ·)
  | _ => none

def Specifier.holds (c : Char) : Specifier → Bool
  | single own => c = own
  | range first last => first ≤ c && c ≤ last

def Token.matchesChar (c : Char) : Token → Bool
  | literal own => c = own
  | anyChar => true
  | within specifiers => specifiers.any (Specifier.holds c)
  | except specifiers => !specifiers.any (Specifier.holds c)
  | anySequence => false
  | anyDirectories => false

/-- Whether a name matches a pattern. -/
def Pattern.matchesName : Pattern → List Char → Bool
  | [], [] => true
  | [], _ :: _ => false
  | .anySequence :: rest, [] => matchesName rest []
  | .anySequence :: rest, c :: cs => matchesName rest (c :: cs) || matchesName (.anySequence :: rest) cs
  | _ :: _, [] => false
  | token :: rest, c :: cs => token.matchesChar c && matchesName rest cs
termination_by pattern cs => (cs.length, pattern.length)

end LookupEngine.Glob
