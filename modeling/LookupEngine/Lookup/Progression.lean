import LookupEngine.Json.Value
import LookupEngine.Lookup.Card
import LookupEngine.Machine.World
/-!
# Numeric sequences

The lookup `sequence` writes out the sequence of each term, one value after the other.  All
terms of a call together have no more values than one sequence may have.
-/

namespace LookupEngine.Lookup.Progression

/-- The values of a sequence, written by its template if it has one.  A sequence without
values never looks at its template. -/
def valuesOf (spec : Sequence.Spec) : Except Sequence.Problem (List Value) :=
  match spec.values with
  | [] => .ok []
  | values =>
    match spec.template? with
    | .error problem => .error problem
    | .ok none => .ok (values.map Value.int)
    | .ok (some template) => .ok (values.map fun n => .string (template.render n))

/-- The values of one term, where `total` values came before them, and how many there are
now. -/
def expand (total : Nat) (term : String) : Except Failure (List Value × Nat) :=
  match Sequence.Spec.parse term with
  | .error problem => .error (.invalidTerm term (.sequence problem))
  | .ok spec =>
    let total := total + spec.valueCount
    if total > Sequence.limit then .error (.invalidTerm term (.sequence .tooManyInTotal))
    else
      match valuesOf spec with
      | .error problem => .error (.invalidTerm term (.sequence problem))
      | .ok values => .ok (values, total)

/-- The values of all terms. -/
def expandAll (total : Nat) : List String → Action World (List Value)
  | [] => pure []
  | term :: rest => do
    Action.check World.isCancelled
    let (values, total) ← Action.ofExcept (expand total term)
    let others ← expandAll total rest
    pure (values ++ others)

def run (terms : List String) : Action World (List Value) := expandAll 0 terms

def card : Card :=
  .builtin "sequence" "Generates numeric sequences"
    ["start=1 end=5 stride=2", "1-3", "4-16/2:host%02d", "start=10 count=3"]
    [.withDefault "start" "First value" "int" "1",
      .withDefault "end" "Last value, inclusive" "int" "1",
      .plain "count" "Number of values, instead of end" "int",
      .withDefault "stride" "Step between values" "int" "1",
      .plain "format" "printf-style template" "string"]

end LookupEngine.Lookup.Progression
