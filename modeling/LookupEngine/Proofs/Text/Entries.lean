import Mathlib.Data.List.Induction
import Mathlib.Data.List.Pairwise
import Mathlib.Data.String.Basic
import LookupEngine.Text.Entries
/-!
# Entries as finite maps

What is found in sorted entries after an insertion or a removal, what their keys are, and what the
entries of a list of pairs hold.  Each key stands there once, so the keys in order and the map
itself determine the entries.
-/

namespace LookupEngine.Entries

variable {α : Type}

@[simp]
theorem find?_nil (key : String) : find? key ([] : Entries α) = none := rfl

theorem find?_insert (key other : String) (value : α) (entries : Entries α) :
    find? other (insert key value entries) =
      if key = other then some value else find? other entries := by
  by_cases h : key = other
  · subst h
    rw [if_pos rfl, find?_insert_self]
  · rw [if_neg h, find?_insert_of_ne (Ne.symm h)]

theorem mem_insert {key : String} {value : α} {entries : Entries α} {entry : String × α}
    (h : entry ∈ insert key value entries) : entry = (key, value) ∨ entry ∈ entries := by
  induction entries with
  | nil => exact .inl (List.mem_singleton.1 h)
  | cons first rest ih =>
    obtain ⟨k, v⟩ := first
    rw [insert] at h
    split at h
    · exact List.mem_cons.1 h
    split at h
    · exact (List.mem_cons.1 h).imp_right (List.mem_cons_of_mem _)
    · rcases List.mem_cons.1 h with rfl | hrest
      · exact .inr List.mem_cons_self
      · exact (ih hrest).imp_right (List.mem_cons_of_mem _)

theorem mem_of_find? {key : String} {value : α} {entries : Entries α}
    (h : find? key entries = some value) : (key, value) ∈ entries := by
  induction entries with
  | nil => cases h
  | cons first rest ih =>
    obtain ⟨k, v⟩ := first
    rw [find?] at h
    split at h
    · next hkey =>
      cases h
      exact hkey ▸ List.mem_cons_self
    · exact List.mem_cons_of_mem _ (ih h)

theorem mem_keys_iff {key : String} {entries : Entries α} :
    key ∈ keys entries ↔ (find? key entries).isSome = true := by
  induction entries with
  | nil => simp [keys]
  | cons first rest ih =>
    obtain ⟨k, v⟩ := first
    rw [keys, List.map_cons, List.mem_cons, ← keys, ih, find?]
    by_cases hk : k = key
    · simp [hk]
    · simp [hk, Ne.symm hk]

theorem forall_find?_eq_none_iff {entries : Entries α} :
    (∀ key, find? key entries = none) ↔ entries = [] := by
  constructor
  · intro h
    cases entries with
    | nil => rfl
    | cons first rest =>
      have hfirst := h first.1
      rw [find?, if_pos rfl] at hfirst
      cases hfirst
  · rintro rfl key
    rfl

theorem find?_eq_none_of_forall_lt {key : String} {entries : Entries α}
    (h : ∀ entry ∈ entries, key < entry.1) : find? key entries = none := by
  rw [← Option.not_isSome_iff_eq_none, ← mem_keys_iff]
  intro hmem
  obtain ⟨entry, hentry, rfl⟩ := List.mem_map.1 hmem
  exact lt_irrefl _ (h entry hentry)

theorem sorted_nil : Sorted ([] : Entries α) := List.Pairwise.nil

/-- A new key goes before the first greater one, so what was in order stays so. -/
theorem Sorted.insert {entries : Entries α} (h : Sorted entries) (key : String) (value : α) :
    Sorted (insert key value entries) := by
  induction entries with
  | nil => exact List.pairwise_singleton _ _
  | cons first rest ih =>
    obtain ⟨k, v⟩ := first
    obtain ⟨hfirst, hrest⟩ := List.pairwise_cons.1 h
    rw [Entries.insert]
    split
    · next hlt =>
      refine List.pairwise_cons.2 ⟨?_, h⟩
      exact List.forall_mem_cons.2 ⟨hlt, fun entry hentry => lt_trans hlt (hfirst entry hentry)⟩
    split
    · next heq =>
      subst heq
      exact List.pairwise_cons.2 ⟨hfirst, hrest⟩
    · next hlt hne =>
      refine List.pairwise_cons.2 ⟨?_, ih hrest⟩
      intro entry hentry
      rcases mem_insert hentry with rfl | hold
      · exact lt_of_le_of_ne (not_lt.1 hlt) (Ne.symm hne)
      · exact hfirst entry hold

theorem erase_sublist (key : String) (entries : Entries α) :
    (erase key entries).Sublist entries := by
  induction entries with
  | nil => exact List.Sublist.refl _
  | cons first rest ih =>
    obtain ⟨k, v⟩ := first
    rw [erase]
    split
    · exact List.sublist_cons_self _ _
    · exact ih.cons_cons _

theorem Sorted.erase {entries : Entries α} (h : Sorted entries) (key : String) :
    Sorted (erase key entries) :=
  List.Pairwise.sublist (erase_sublist key entries) h

/-- In sorted entries a key stands once, so removing its first entry removes the key. -/
theorem Sorted.find?_erase {entries : Entries α} (h : Sorted entries) (key other : String) :
    find? other (Entries.erase key entries) =
      if key = other then none else find? other entries := by
  induction entries with
  | nil => simp [Entries.erase]
  | cons first rest ih =>
    obtain ⟨k, v⟩ := first
    obtain ⟨hfirst, hrest⟩ := List.pairwise_cons.1 h
    rw [Entries.erase]
    by_cases hk : k = key
    · subst hk
      rw [if_pos rfl]
      by_cases ho : k = other
      · subst ho
        rw [if_pos rfl, find?_eq_none_of_forall_lt hfirst]
      · rw [if_neg ho, find?, if_neg ho]
    · rw [if_neg hk, find?, ih hrest, find?]
      by_cases ho : k = other
      · subst ho
        rw [if_pos rfl, if_pos rfl, if_neg (Ne.symm hk)]
      · rw [if_neg ho, if_neg ho]

/-- In sorted entries each of them is found under its key. -/
theorem Sorted.find?_of_mem {entries : Entries α} (h : Sorted entries) {entry : String × α}
    (hmem : entry ∈ entries) : find? entry.1 entries = some entry.2 := by
  induction entries with
  | nil => cases hmem
  | cons first rest ih =>
    obtain ⟨hfirst, hrest⟩ := List.pairwise_cons.1 h
    obtain ⟨k, v⟩ := first
    rw [find?]
    rcases List.mem_cons.1 hmem with rfl | hlater
    · rw [if_pos rfl]
    · rw [if_neg (hfirst entry hlater).ne]
      exact ih hrest hlater

theorem Sorted.pairwise_keys {entries : Entries α} (h : Sorted entries) :
    (keys entries).Pairwise (· < ·) :=
  List.pairwise_map.2 h

theorem Sorted.nodup_keys {entries : Entries α} (h : Sorted entries) : (keys entries).Nodup :=
  h.pairwise_keys.imp fun hlt => ne_of_lt hlt

@[simp]
theorem length_keys (entries : Entries α) : (keys entries).length = entries.length :=
  List.length_map _

/-- The last value that some pairs give a key. -/
def lastValue (pairs : List (String × α)) (key : String) : Option α :=
  ((pairs.filter fun pair => pair.1 = key).getLast?).map Prod.snd

theorem ofList_append_singleton (pairs : List (String × α)) (key : String) (value : α) :
    ofList (pairs ++ [(key, value)]) = insert key value (ofList pairs) :=
  List.foldl_append

theorem lastValue_append_singleton (pairs : List (String × α)) (key other : String) (value : α) :
    lastValue (pairs ++ [(key, value)]) other =
      if key = other then some value else lastValue pairs other := by
  by_cases h : key = other <;> simp [lastValue, h]

/-- What the pairs behind give a key counts more than what those in front give it. -/
theorem lastValue_append (front back : List (String × α)) (key : String) :
    lastValue (front ++ back) key = (lastValue back key).or (lastValue front key) := by
  rw [lastValue, List.filter_append, List.getLast?_append, lastValue, lastValue]
  cases (back.filter fun pair => pair.1 = key).getLast? <;> rfl

theorem sorted_ofList (pairs : List (String × α)) : Sorted (ofList pairs) := by
  induction pairs using List.reverseRecOn with
  | nil => exact sorted_nil
  | append_singleton pairs pair ih =>
    rw [ofList_append_singleton]
    exact ih.insert _ _

/-- The map of some pairs gives each key its last value. -/
theorem find?_ofList (pairs : List (String × α)) (key : String) :
    find? key (ofList pairs) = lastValue pairs key := by
  induction pairs using List.reverseRecOn with
  | nil => rfl
  | append_singleton pairs pair ih =>
    rw [ofList_append_singleton, find?_insert, lastValue_append_singleton, ih]

theorem mem_of_mem_ofList {pairs : List (String × α)} {entry : String × α}
    (h : entry ∈ ofList pairs) : entry ∈ pairs := by
  induction pairs using List.reverseRecOn with
  | nil => cases h
  | append_singleton pairs pair ih =>
    rw [ofList_append_singleton] at h
    rcases mem_insert h with rfl | hold
    · exact List.mem_append_right pairs (List.mem_singleton_self _)
    · exact List.mem_append_left _ (ih hold)

theorem insert_map {β : Type} (f : α → β) (key : String) (value : α) (entries : Entries α) :
    insert key (f value) (entries.map fun entry => (entry.1, f entry.2)) =
      (insert key value entries).map fun entry => (entry.1, f entry.2) := by
  induction entries with
  | nil => rfl
  | cons first rest ih =>
    obtain ⟨k, v⟩ := first
    rw [List.map_cons, insert, insert, ih]
    split
    · rfl
    split <;> rfl

/-- What is done to each value alone can be done before or after the map is made. -/
theorem ofList_map {β : Type} (f : α → β) (pairs : List (String × α)) :
    ofList (pairs.map fun pair => (pair.1, f pair.2)) =
      (ofList pairs).map fun entry => (entry.1, f entry.2) := by
  induction pairs using List.reverseRecOn with
  | nil => rfl
  | append_singleton pairs pair ih =>
    rw [List.map_append, List.map_singleton, ofList_append_singleton, ofList_append_singleton, ih,
      insert_map]

/-- An entry with a new key is one entry more. -/
theorem insert_perm {key : String} {entries : Entries α} (h : key ∉ keys entries) (value : α) :
    (insert key value entries).Perm ((key, value) :: entries) := by
  induction entries with
  | nil => exact List.Perm.refl _
  | cons first rest ih =>
    obtain ⟨k, v⟩ := first
    have hne : key ≠ k := List.ne_of_not_mem_cons h
    have hrest : key ∉ keys rest := List.not_mem_of_not_mem_cons h
    rw [insert, if_neg hne]
    split
    · exact List.Perm.refl _
    · exact ((ih hrest).cons (k, v)).trans (List.Perm.swap _ _ _)

/-- Pairs with different keys are all there in the end. -/
theorem ofList_perm {pairs : List (String × α)} (h : (keys pairs).Nodup) :
    (ofList pairs).Perm pairs := by
  induction pairs using List.reverseRecOn with
  | nil => exact List.Perm.refl _
  | append_singleton pairs pair ih =>
    rw [keys, List.map_append, List.nodup_append] at h
    obtain ⟨hpairs, -, hdisjoint⟩ := h
    have hperm := ih hpairs
    have hnew : pair.1 ∉ keys (ofList pairs) := by
      intro hmem
      exact hdisjoint _ ((hperm.map Prod.fst).mem_iff.1 hmem) _ (List.mem_singleton_self _) rfl
    rw [ofList_append_singleton]
    exact (insert_perm hnew pair.2).trans ((hperm.cons pair).trans
      (List.perm_append_singleton pair pairs).symm)

/-- Entries are what their pairs make in any order. -/
theorem Sorted.ofList_of_perm {entries : Entries α} (h : Sorted entries)
    {pairs : List (String × α)} (hperm : pairs.Perm entries) : ofList pairs = entries := by
  have hnodup : (keys pairs).Nodup := (hperm.map Prod.fst).nodup_iff.2 h.nodup_keys
  refine List.Perm.eq_of_pairwise ?_ (sorted_ofList pairs) h ((ofList_perm hnodup).trans hperm)
  exact fun one other _ _ hlt hgt => absurd hlt hgt.not_gt

end LookupEngine.Entries
