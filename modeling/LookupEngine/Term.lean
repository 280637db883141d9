import LookupEngine.Number.Integer
import LookupEngine.Text.Entries
/-!
# Terms

A term is a line of words.  A word that holds exactly one `=` after a non-empty
key is an option, the last of several with one key counts.  The first word is the
positional one unless it is an option itself.  Every other word is ignored, so
reading a term never fails.
-/

namespace LookupEngine

structure Term where
  positional : Option String
  options : Entries String
deriving Repr, DecidableEq

namespace Term

/-- The key and value of a word that holds exactly one `=`, after a non-empty key. -/
def pair? (word : List Char) : Option (String × String) :=
  match Text.splitOnce '=' word with
  | some (key, value) =>
    if key.isEmpty || value.contains '=' then none
    else some (String.ofList key, String.ofList value)
  | none => none

/-- The options among some words. -/
def optionsOf (words : List (List Char)) : Entries String :=
  Entries.ofList (words.filterMap pair?)

/-- The first word, unless it is an option. -/
def positionalOf : List (List Char) → Option String
  | [] => none
  | first :: _ => if (pair? first).isSome then none else some (String.ofList first)

def ofWords (words : List (List Char)) : Term := ⟨positionalOf words, optionsOf words⟩

/-- Reads a term. -/
def parse (text : String) : Term := ofWords (Text.words text.toList)

def get? (term : Term) (key : String) : Option String := term.options.find? key

def has (term : Term) (key : String) : Bool := term.options.contains key

/-- An option that reads as an integer. -/
def integer? (term : Term) (key : String) : Option Int := (term.get? key).bind Integer.read?

/-- An option that reads as an integer which is not negative. -/
def natural? (term : Term) (key : String) : Option Nat :=
  (term.integer? key).bind fun n => if 0 ≤ n then some n.toNat else none

end Term

end LookupEngine
