import LookupEngine.Json.Reader
/-!
# Records

Reading a document whose fields are known by name.  The fields may come in any order, a field
that is missing is nothing, one that is there twice spoils the record, and one nobody knows
is ignored.  In JSON a record may also be an array of its fields in order.
-/

namespace LookupEngine

namespace Record

variable {Node : Type}

/-- The only field of a name, if there is one. -/
def field? (fields : List (String × Node)) (name : String) : Option (Option Node) :=
  match fields.filter fun (field : String × Node) => field.1 = name with
  | [] => some none
  | [field] => some (some field.2)
  | _ => none

/-- Picks named fields out of all fields. -/
def pick? (names : List String) (fields : List (String × Node)) : Option (List (Option Node)) :=
  names.mapM (field? fields)

/-- Gives the items of a list to names in order. -/
def inOrder (names : List String) (items : List Node) : List (Option Node) :=
  (List.range names.length).map fun i => items[i]?

end Record

namespace Json

/-- The fields of an object under the texts of their keys. -/
def namedFields? : List (List Char × Source) → Option (List (String × Source))
  | [] => some []
  | (key, node) :: rest =>
    match text? key, namedFields? rest with
    | some key, some rest => some ((key, node) :: rest)
    | _, _ => none

/-- The fields of a record with the given names, in that order. -/
def record? (names : List String) : Source → Option (List (Option Source))
  | .object fields => (namedFields? fields).bind (Record.pick? names)
  | .array items =>
    if items.length ≤ names.length then some (Record.inOrder names items) else none
  | _ => none

end Json

end LookupEngine
