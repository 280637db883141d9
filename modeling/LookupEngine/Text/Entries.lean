/-!
# Entries sorted by key

A finite map from strings, kept as a list in increasing order of its keys.  Keys
compare by code point, which is also the order of their bytes.  Two such lists
are equal exactly when the maps are, so no other notion of equality is needed.
-/

namespace LookupEngine

/-- Pairs of a key and what it stands for. -/
abbrev Entries (α : Type) := List (String × α)

namespace Entries

variable {α : Type}

/-- Puts `value` under `key`, in place of what was there. -/
def insert (key : String) (value : α) : Entries α → Entries α
  | [] => [(key, value)]
  | (k, v) :: rest =>
    if key < k then (key, value) :: (k, v) :: rest
    else if key = k then (key, value) :: rest
    else (k, v) :: insert key value rest

def find? (key : String) : Entries α → Option α
  | [] => none
  | (k, v) :: rest => if k = key then some v else find? key rest

def erase (key : String) : Entries α → Entries α
  | [] => []
  | (k, v) :: rest => if k = key then rest else (k, v) :: erase key rest

def contains (key : String) (entries : Entries α) : Bool := (find? key entries).isSome

def keys (entries : Entries α) : List String := entries.map Prod.fst

/-- The map of a list of pairs; of several with one key the last counts. -/
def ofList (pairs : List (String × α)) : Entries α :=
  pairs.foldl (fun entries (key, value) => insert key value entries) []

/-- The keys increase, so none is there twice. -/
def Sorted (entries : Entries α) : Prop := entries.Pairwise fun a b => a.1 < b.1

@[simp]
theorem find?_insert_self (key : String) (value : α) (entries : Entries α) :
    find? key (insert key value entries) = some value := by
  induction entries with
  | nil => simp [insert, find?]
  | cons entry rest ih =>
    obtain ⟨k, v⟩ := entry
    unfold insert
    split
    · simp [find?]
    · split
      · simp [find?]
      · next hne => simp [find?, Ne.symm hne, ih]

theorem find?_insert_of_ne {key other : String} (h : other ≠ key) (value : α)
    (entries : Entries α) : find? other (insert key value entries) = find? other entries := by
  induction entries with
  | nil => simp [insert, find?, Ne.symm h]
  | cons entry rest ih =>
    obtain ⟨k, v⟩ := entry
    unfold insert
    split
    · simp [find?, Ne.symm h]
    · split
      · next he => subst he; simp [find?, Ne.symm h]
      · simp [find?, ih]

end Entries

end LookupEngine
