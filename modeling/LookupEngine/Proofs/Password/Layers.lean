import LookupEngine.Proofs.Password.Alphabet
import LookupEngine.Proofs.Password.Recall
import LookupEngine.Proofs.Settings.Layers
/-!
# What a password is made of

The length and the characters of a password come from the term, else from the options, else from
the settings.  A length that is no number is passed over, but characters count wherever they are
given, even none at all.  A term is refused exactly if it comes to no length or to no characters,
and any other has a password whatever the random numbers are.
-/

namespace LookupEngine.Lookup.Password

open Settings (Ranked ranked_iff)

/-! ## The layers -/

/-- How a term is answered that comes to a length and to some characters. -/
structure Answers (text : String) (length : Nat) (chars : String) (result : Except Failure Spec) :
    Prop where
  fails_iff : (∃ failure, result = .error failure) ↔ length = 0 ∨ ∀ c, ¬ Expands chars.toList c
  failure : ∀ failure, result = .error failure →
    failure = .invalidTerm text (if length = 0 then .emptyPassword else .emptyAlphabet)
  makes : ∀ spec, result = .ok spec → ∀ world, ∃ password,
    (make spec).perform world = (.ok password, drawnFor world spec) ∧
      password.length = length ∧ ∀ c ∈ password.toList, Expands chars.toList c

end LookupEngine.Lookup.Password
