import LookupEngine.Proofs.Json.Values
/-!
# What texts mean

A value is the meaning of what was written for it, as long as no more containers are open at once
than a reader allows.  The other way around, whatever a text means is a value as it is held: its
integers are words, its objects have each key once, and its containers are no deeper than
allowed.
-/

namespace LookupEngine.Json

open Value

namespace Source

theorem itemsToValues?_sourceItems {depth : Nat} {items : List Value}
    (h : ∀ item ∈ items, toValue? depth item.source = some item) :
    itemsToValues? depth (sourceItems items) = some items := by
  induction items with
  | nil => rfl
  | cons item rest ih =>
    obtain ⟨hitem, hrest⟩ := List.forall_mem_cons.1 h
    rw [sourceItems, itemsToValues?, hitem]
    simp only [ih hrest, Option.map_some]

/-- The fields of an object are put in order, whatever order they are written in. -/
theorem fieldsToValues?_sourceFields {depth : Nat} {fields : List (String × Value)}
    (h : ∀ field ∈ fields, toValue? depth field.2.source = some field.2)
    (done : Entries Value) :
    fieldsToValues? depth (sourceFields fields) done =
      some (fields.foldl (fun entries (key, value) => entries.insert key value) done) := by
  induction fields generalizing done with
  | nil => rfl
  | cons field rest ih =>
    obtain ⟨hfield, hrest⟩ := List.forall_mem_cons.1 h
    obtain ⟨key, item⟩ := field
    dsimp only at hfield
    rw [sourceFields, fieldsToValues?, text?_escape, hfield]
    exact ih hrest _

/-- A value is the meaning of what was written for it. -/
theorem toValue?_source {v : Value} (hexact : v.IsExact) (hnormal : v.IsNormal) {depth : Nat}
    (hwithin : v.Within depth) : toValue? depth v.source = some v := by
  induction hexact generalizing depth with
  | null => rfl
  | bool b => rfl
  | integer n =>
    cases hnormal with
    | integer hword => rw [source, toValue?, number?_numeralOf hword, Option.map_some]
  | string s => rw [source, toValue?, text?_escape, Option.map_some]
  | array hitems ih =>
    cases hnormal with
    | array hnormals =>
      cases hwithin with
      | array hwithins =>
        have hread := itemsToValues?_sourceItems fun item hitem =>
          ih item hitem (hnormals item hitem) (hwithins item hitem)
        simp only [source, toValue?, hread, Option.map_some]
  | object hfields ih =>
    cases hnormal with
    | object hsorted hnormals =>
      cases hwithin with
      | object hwithins =>
        have hread := fieldsToValues?_sourceFields
          (fun field hfield => ih field hfield (hnormals field hfield) (hwithins field hfield)) []
        have hsame := hsorted.ofList_of_perm (List.Perm.refl _)
        rw [Entries.ofList] at hsame
        simp only [source, toValue?, hread, hsame, Option.map_some]

mutual

/-- What a text means is a value as it is held, no deeper than allowed. -/
theorem normal_of_toValue? {depth : Nat} {v : Value} :
    ∀ {s : Source}, toValue? depth s = some v → v.IsNormal ∧ v.Within depth
  | .null, h => by
    cases h
    exact ⟨.null, .null depth⟩
  | .bool b, h => by
    cases h
    exact ⟨.bool b, .bool depth b⟩
  | .number numeral, h => by
    rw [toValue?] at h
    obtain ⟨n, hn, rfl⟩ := Option.map_eq_some_iff.1 h
    refine ⟨?_, .number depth n⟩
    cases n with
    | integer n => exact .integer (isWord_of_number? hn)
    | float x => exact .float x
  | .string escaped, h => by
    rw [toValue?] at h
    obtain ⟨text, -, rfl⟩ := Option.map_eq_some_iff.1 h
    exact ⟨.string text, .string depth text⟩
  | .array items, h => by
    cases depth with
    | zero =>
      rw [toValue?] at h
      cases h
    | succ depth =>
      rw [toValue?] at h
      obtain ⟨found, hfound, rfl⟩ := Option.map_eq_some_iff.1 h
      have hitems := normal_of_itemsToValues? hfound
      exact ⟨.array fun item hitem => (hitems item hitem).1,
        .array fun item hitem => (hitems item hitem).2⟩
  | .object fields, h => by
    cases depth with
    | zero =>
      rw [toValue?] at h
      cases h
    | succ depth =>
      rw [toValue?] at h
      obtain ⟨found, hfound, rfl⟩ := Option.map_eq_some_iff.1 h
      obtain ⟨hsorted, hfields⟩ := normal_of_fieldsToValues? hfound Entries.sorted_nil
        (List.forall_mem_nil _)
      exact ⟨.object hsorted fun field hfield => (hfields field hfield).1,
        .object fun field hfield => (hfields field hfield).2⟩

theorem normal_of_itemsToValues? {depth : Nat} {found : List Value} :
    ∀ {items : List Source}, itemsToValues? depth items = some found →
      ∀ v ∈ found, v.IsNormal ∧ v.Within depth
  | [], h => by
    cases h
    exact List.forall_mem_nil _
  | item :: rest, h => by
    rw [itemsToValues?] at h
    split at h
    · cases h
    · next first hfirst =>
      obtain ⟨others, hothers, rfl⟩ := Option.map_eq_some_iff.1 h
      exact List.forall_mem_cons.2
        ⟨normal_of_toValue? hfirst, normal_of_itemsToValues? hothers⟩

theorem normal_of_fieldsToValues? {depth : Nat} {done found : Entries Value} :
    ∀ {fields : List (List Char × Source)}, fieldsToValues? depth fields done = some found →
      done.Sorted → (∀ field ∈ done, field.2.IsNormal ∧ field.2.Within depth) →
      found.Sorted ∧ ∀ field ∈ found, field.2.IsNormal ∧ field.2.Within depth
  | [], h, hsorted, hdone => by
    cases h
    exact ⟨hsorted, hdone⟩
  | (key, item) :: rest, h, hsorted, hdone => by
    rw [fieldsToValues?] at h
    split at h
    · cases h
    split at h
    · cases h
    · next v hv =>
      refine normal_of_fieldsToValues? h (hsorted.insert _ _) ?_
      intro field hfield
      rcases Entries.mem_insert hfield with rfl | hold
      · exact normal_of_toValue? hv
      · exact hdone field hold

end

end Source

/-- A value is read back from its text. -/
theorem parse?_print {v : Value} (hexact : v.IsExact) (hnormal : v.IsNormal)
    (hwithin : v.Within deepest) : parse? (print v) = some v := by
  rw [parse?, Source.parse?_print hexact, Option.bind_some,
    Source.toValue?_source hexact hnormal hwithin]

/-- A text may nest 127 arrays, and no more. -/
example : (parse? (String.ofList (List.replicate 127 '[' ++ List.replicate 127 ']'))).isSome ∧
    parse? (String.ofList (List.replicate 128 '[' ++ List.replicate 128 ']')) = none := by
  decide +kernel

end LookupEngine.Json
