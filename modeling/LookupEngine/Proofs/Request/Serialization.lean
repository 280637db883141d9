import LookupEngine.Proofs.Json.Meaning
import LookupEngine.Request
/-!
# Requests and their texts

A request without floating-point numbers is read back from every text written for it, in whatever
order the text has its variables, its options and the three of them.  Whatever text a request was
read from before, with fields missing, reordered or unknown, or as an array, the request is the
same when it is written out and read once more.
-/

namespace LookupEngine

/-- A field is found in any order of the fields. -/
theorem Record.field?_of_perm {Node : Type} {fields others : List (String × Node)}
    (hperm : fields.Perm others) (name : String) {node : Node}
    (h : field? others name = some (some node)) : field? fields name = some (some node) := by
  rw [field?] at h
  split at h
  · cases h
  · next field hothers =>
    have hfields := hperm.filter fun (field : String × Node) => field.1 = name
    rw [hothers, List.perm_singleton] at hfields
    rw [field?, hfields]
    exact h
  · cases h

theorem Json.namedFields?_sourceFields (fields : List (String × Value)) :
    namedFields? (Value.sourceFields fields) =
      some (fields.map fun field => (field.1, field.2.source)) := by
  induction fields with
  | nil => rfl
  | cons field rest ih =>
    obtain ⟨key, item⟩ := field
    simp only [Value.sourceFields, namedFields?, text?_escape, ih, List.map_cons]

namespace Request

/-- A request as it is held. -/
structure IsNormal (request : Request) : Prop where
  vars : (Value.object request.vars).IsNormal
  options : (Value.object request.options).IsNormal

/-- A request in which no number is a floating-point one. -/
structure IsExact (request : Request) : Prop where
  vars : (Value.object request.vars).IsExact
  options : (Value.object request.options).IsExact

/-- The three fields of a request. -/
def fields (request : Request) : List (String × Value) :=
  [("terms", .ofStrings request.terms), ("variables", .object request.vars),
    ("options", .object request.options)]

/-- The texts that a request may be written to.  Its variables and its options are kept in no
particular order, so a text may have them in any, and the three fields as well. -/
inductive Serializes (request : Request) : String → Prop
  | intro {vars options fields : List (String × Value)} (hvars : vars.Perm request.vars)
      (hoptions : options.Perm request.options)
      (hfields : fields.Perm (Request.fields ⟨request.terms, vars, options⟩)) :
      Serializes request (Json.print (.object fields))

theorem exists_toValue_eq (request : Request) :
    ∃ fields, request.toValue = .object fields ∧ fields.Perm request.fields := by
  refine ⟨_, rfl, (Entries.ofList_perm ?_).trans ?_⟩
  · simp [Entries.keys]
  · exact @List.perm_append_comm _ [_] _

theorem serializes_print (request : Request) : request.Serializes request.print := by
  obtain ⟨fields, hvalue, hperm⟩ := request.exists_toValue_eq
  rw [print, hvalue]
  exact .intro (List.Perm.refl _) (List.Perm.refl _) hperm

theorem forall_mem_fields_iff (request : Request) {p : Value → Prop} :
    (∀ field ∈ request.fields, p field.2) ↔
      p (.ofStrings request.terms) ∧ p (.object request.vars) ∧ p (.object request.options) := by
  simp only [fields, List.forall_mem_cons, List.not_mem_nil, false_imp_iff, implies_true, and_true]

/-- Terms are an array of strings, so only variables and options can be deep. -/
theorem within_toValue_iff (request : Request) (depth : Nat) :
    request.toValue.Within (depth + 2) ↔
      (Value.object request.vars).Within (depth + 1) ∧
        (Value.object request.options).Within (depth + 1) := by
  obtain ⟨fields, hvalue, hperm⟩ := request.exists_toValue_eq
  have hterms := Value.within_ofStrings depth request.terms
  rw [hvalue]
  constructor
  · intro hwithin
    have hfields := hwithin.of_object
    simp only [hperm.mem_iff] at hfields
    exact (request.forall_mem_fields_iff.1 hfields).2
  · intro hparts
    refine .object fun field hfield => ?_
    exact request.forall_mem_fields_iff.2 ⟨hterms, hparts⟩ field (hperm.mem_iff.1 hfield)

/-! ## Reading the parts -/

theorem readTerms?_ofStrings (terms : List String) :
    readTerms? (Value.ofStrings terms).source = some terms := by
  rw [Value.ofStrings, Value.source, readTerms?]
  induction terms with
  | nil => rfl
  | cons term rest ih =>
    simp only [List.map_cons, Value.sourceItems, Value.source, List.mapM_cons,
      Json.text?_escape, ih]
    rfl

/-- An object is read back whatever the order is in which its fields are written. -/
theorem readFields?_source {entries : Entries Value} (hexact : (Value.object entries).IsExact)
    (hnormal : (Value.object entries).IsNormal)
    (hwithin : (Value.object entries).Within (Json.deepest - 1))
    {fields : List (String × Value)} (hperm : fields.Perm entries) :
    readFields? (Value.object fields).source = some entries := by
  have hread : ∀ field ∈ fields,
      Json.Source.toValue? (Json.deepest - 2) field.2.source = some field.2 := by
    intro field hfield
    have hmem := hperm.mem_iff.1 hfield
    exact Json.Source.toValue?_source (hexact.of_object field hmem) (hnormal.of_object field hmem)
      (hwithin.of_object field hmem)
  rw [Value.source, readFields?, Json.Source.fieldsToValues?_sourceFields hread]
  exact congrArg some (hnormal.sorted_of_object.ofList_of_perm hperm)

/-- The three parts are found in any order of the fields. -/
theorem ofSource?_source {request : Request} {vars options fields : List (String × Value)}
    (hfields : fields.Perm (Request.fields ⟨request.terms, vars, options⟩)) :
    ofSource? (Value.object fields).source =
      ofParts? (some (Value.ofStrings request.terms).source) (some (Value.object vars).source)
        (some (Value.object options).source) := by
  have hnamed := hfields.map fun field : String × Value => (field.1, field.2.source)
  have hpick : Record.pick? ["terms", "variables", "options"]
      (fields.map fun field => (field.1, field.2.source)) =
        some [some (Value.ofStrings request.terms).source, some (Value.object vars).source,
          some (Value.object options).source] := by
    have hterms := Record.field?_of_perm hnamed "terms" rfl
    have hvars := Record.field?_of_perm hnamed "variables" rfl
    have hoptions := Record.field?_of_perm hnamed "options" rfl
    rw [Record.pick?]
    simp only [List.mapM_cons, List.mapM_nil, hterms, hvars, hoptions]
    rfl
  rw [Value.source, ofSource?, Json.record?, Json.namedFields?_sourceFields, Option.bind_some,
    hpick]

theorem parse?_of_serializes {request : Request} (hexact : request.IsExact)
    (hnormal : request.IsNormal) (hwithin : request.toValue.Within Json.deepest) {text : String}
    (htext : request.Serializes text) : parse? text = some request := by
  obtain ⟨hvarsWithin, hoptionsWithin⟩ := (request.within_toValue_iff 125).1 hwithin
  cases htext with
  | @intro vars options fields hvars hoptions hfields =>
    have hparts := (forall_mem_fields_iff ⟨request.terms, vars, options⟩).2
      ⟨Value.isExact_ofStrings request.terms, hexact.vars.of_perm hvars,
        hexact.options.of_perm hoptions⟩
    have hvarsRead := readFields?_source hexact.vars hnormal.vars hvarsWithin hvars
    have hoptionsRead :=
      readFields?_source hexact.options hnormal.options hoptionsWithin hoptions
    rw [parse?, Json.Source.parse?_print ((Value.IsExact.object hparts).of_perm hfields),
      Option.bind_some, ofSource?_source hfields, ofParts?]
    simp only [Option.bind_some, Option.map_some, Option.getD_some, readTerms?_ofStrings,
      hvarsRead, hoptionsRead]

/-! ## What is read -/

theorem normal_of_readFields? {source : Json.Source} {entries : Entries Value}
    (h : readFields? source = some entries) :
    (Value.object entries).IsNormal ∧ (Value.object entries).Within (Json.deepest - 1) := by
  cases source with
  | object fields =>
    obtain ⟨hsorted, hfields⟩ :=
      Json.Source.normal_of_fieldsToValues? h Entries.sorted_nil (List.forall_mem_nil _)
    exact ⟨.object hsorted fun field hfield => (hfields field hfield).1,
      .object fun field hfield => (hfields field hfield).2⟩
  | _ => cases h

/-- A part that is missing has no entries. -/
theorem normal_of_part {part : Option Json.Source} {entries : Entries Value}
    (h : (part.map readFields?).getD (some []) = some entries) :
    (Value.object entries).IsNormal ∧ (Value.object entries).Within (Json.deepest - 1) := by
  cases part with
  | none =>
    cases h
    exact ⟨.object Entries.sorted_nil (List.forall_mem_nil _),
      .object (List.forall_mem_nil _)⟩
  | some source => exact normal_of_readFields? h

theorem normal_of_ofParts? {terms vars options : Option Json.Source} {request : Request}
    (h : ofParts? terms vars options = some request) :
    request.IsNormal ∧ request.toValue.Within Json.deepest := by
  rw [ofParts?] at h
  split at h
  · next hterms hvars hoptions =>
    cases h
    obtain ⟨hvarsNormal, hvarsWithin⟩ := normal_of_part hvars
    obtain ⟨hoptionsNormal, hoptionsWithin⟩ := normal_of_part hoptions
    exact ⟨⟨hvarsNormal, hoptionsNormal⟩,
      (within_toValue_iff _ 125).2 ⟨hvarsWithin, hoptionsWithin⟩⟩
  · cases h

/-- Whatever was read is a request as it is held, no deeper than a reader allows. -/
theorem normal_of_parse? {text : String} {request : Request} (h : parse? text = some request) :
    request.IsNormal ∧ request.toValue.Within Json.deepest := by
  obtain ⟨source, -, hsource⟩ := Option.bind_eq_some_iff.1 h
  rw [ofSource?] at hsource
  split at hsource
  · exact normal_of_ofParts? hsource
  · cases hsource

/-- A request without floating-point numbers is read back from each of its texts, if a reader
allows for its depth.  What was read from any text is such a request, so it is read again from each
text that it is written to. -/
theorem parse?_serialized {request : Request} (hexact : request.IsExact) :
    request.Serializes request.print ∧
      (request.IsNormal → request.toValue.Within Json.deepest →
        ∀ text, request.Serializes text → parse? text = some request) ∧
      ∀ text, parse? text = some request →
        request.IsNormal ∧ request.toValue.Within Json.deepest ∧
          ∀ again, request.Serializes again → parse? again = some request := by
  refine ⟨request.serializes_print, ?_, ?_⟩
  · intro hnormal hwithin text htext
    exact parse?_of_serializes hexact hnormal hwithin htext
  · intro text hread
    obtain ⟨hnormal, hwithin⟩ := normal_of_parse? hread
    refine ⟨hnormal, hwithin, fun again hagain => ?_⟩
    exact parse?_of_serializes hexact hnormal hwithin hagain

/-- A request with the least and the greatest integer and a container in a container. -/
def extremes : Request where
  terms := ["\"hé\n"]
  vars := [("π", .array [.int (-9223372036854775808), .int 18446744073709551615, .array []])]
  options := []

theorem isExact_extremes : extremes.IsExact where
  vars := by
    refine .object (List.forall_mem_singleton.2 (.array ?_))
    simp only [List.forall_mem_cons]
    exact ⟨.integer _, .integer _, .array (List.forall_mem_nil _), List.forall_mem_nil _⟩
  options := .object (List.forall_mem_nil _)

theorem isNormal_extremes : extremes.IsNormal where
  vars := by
    refine .object (List.pairwise_singleton _ _) (List.forall_mem_singleton.2 (.array ?_))
    simp only [List.forall_mem_cons]
    exact ⟨.integer (by decide), .integer (by decide),
      .array (List.forall_mem_nil _), List.forall_mem_nil _⟩
  options := .object Entries.sorted_nil (List.forall_mem_nil _)

theorem within_extremes : extremes.toValue.Within Json.deepest := by
  refine (extremes.within_toValue_iff 125).2 ⟨?_, ?_⟩
  · refine .object (List.forall_mem_singleton.2 (.array ?_))
    simp only [List.forall_mem_cons]
    exact ⟨.number _ _, .number _ _, .array (List.forall_mem_nil _), List.forall_mem_nil _⟩
  · exact .object (List.forall_mem_nil _)

theorem parse?_serialized_extremes :
    parse? extremes.print = some extremes ∧
      ∀ again, extremes.Serializes again → parse? again = some extremes := by
  obtain ⟨hprint, hwritten, hagain⟩ := parse?_serialized isExact_extremes
  have hread := hwritten isNormal_extremes within_extremes _ hprint
  exact ⟨hread, (hagain _ hread).2.2⟩

end Request

end LookupEngine
