import LookupEngine.Proofs.Json.Escaping
import LookupEngine.Proofs.Json.Numerals
import LookupEngine.Proofs.Text.Entries
/-!
# Values and their texts

A value without floating-point numbers is read back from its text.  The grammar finds in the text
what was written, piece by piece, and gives it the meaning that it had; objects get their fields
back whatever the order is in which these are written.
-/

namespace LookupEngine

namespace Value

/-- A value as it is held: integers are words, and objects have each key once, in order. -/
inductive IsNormal : Value → Prop
  | null : IsNormal .null
  | bool (b : Bool) : IsNormal (.bool b)
  | integer {n : Int} (hword : Integer.IsWord n) : IsNormal (.number (.integer n))
  | float (x : Binary64) : IsNormal (.number (.float x))
  | string (s : String) : IsNormal (.string s)
  | array {items : List Value} (hitems : ∀ item ∈ items, IsNormal item) :
      IsNormal (.array items)
  | object {fields : List (String × Value)} (hsorted : Entries.Sorted fields)
      (hfields : ∀ field ∈ fields, IsNormal field.2) : IsNormal (.object fields)

/-- A value in which no number is a floating-point one. -/
inductive IsExact : Value → Prop
  | null : IsExact .null
  | bool (b : Bool) : IsExact (.bool b)
  | integer (n : Int) : IsExact (.number (.integer n))
  | string (s : String) : IsExact (.string s)
  | array {items : List Value} (hitems : ∀ item ∈ items, IsExact item) : IsExact (.array items)
  | object {fields : List (String × Value)} (hfields : ∀ field ∈ fields, IsExact field.2) :
      IsExact (.object fields)

/-- A value whose text has at most `depth` containers open at once. -/
inductive Within : Nat → Value → Prop
  | null (depth : Nat) : Within depth .null
  | bool (depth : Nat) (b : Bool) : Within depth (.bool b)
  | number (depth : Nat) (n : Number) : Within depth (.number n)
  | string (depth : Nat) (s : String) : Within depth (.string s)
  | array {depth : Nat} {items : List Value} (hitems : ∀ item ∈ items, Within depth item) :
      Within (depth + 1) (.array items)
  | object {depth : Nat} {fields : List (String × Value)}
      (hfields : ∀ field ∈ fields, Within depth field.2) : Within (depth + 1) (.object fields)

theorem isExact_ofStrings (items : List String) : (ofStrings items).IsExact := by
  refine .array fun item hitem => ?_
  obtain ⟨text, -, rfl⟩ := List.mem_map.1 hitem
  exact .string text

theorem within_ofStrings (depth : Nat) (items : List String) :
    (ofStrings items).Within (depth + 1) := by
  refine .array fun item hitem => ?_
  obtain ⟨text, -, rfl⟩ := List.mem_map.1 hitem
  exact .string depth text

theorem Within.of_object {depth : Nat} {fields : List (String × Value)}
    (h : Within (depth + 1) (.object fields)) : ∀ field ∈ fields, field.2.Within depth := by
  cases h with
  | object hfields => exact hfields

theorem IsNormal.of_object {fields : List (String × Value)} (h : IsNormal (.object fields)) :
    ∀ field ∈ fields, field.2.IsNormal := by
  cases h with
  | object _ hfields => exact hfields

theorem IsNormal.sorted_of_object {fields : List (String × Value)} (h : IsNormal (.object fields)) :
    Entries.Sorted fields := by
  cases h with
  | object hsorted _ => exact hsorted

theorem IsExact.of_perm {fields others : List (String × Value)} (h : IsExact (.object others))
    (hperm : fields.Perm others) : IsExact (.object fields) := by
  cases h with
  | object hothers => exact .object fun field hfield => hothers field (hperm.mem_iff.1 hfield)

theorem IsExact.of_object {fields : List (String × Value)} (h : IsExact (.object fields)) :
    ∀ field ∈ fields, field.2.IsExact := by
  cases h with
  | object hfields => exact hfields

mutual

/-- What the grammar finds in the text of a value. -/
def source : Value → Json.Source
  | .null => .null
  | .bool b => .bool b
  | .number (.integer n) => .number (Json.numeralOf n)
  | .number (.float _) => .null
  | .string s => .string (Json.escape s.toList)
  | .array items => .array (sourceItems items)
  | .object fields => .object (sourceFields fields)

def sourceItems : List Value → List Json.Source
  | [] => []
  | item :: rest => source item :: sourceItems rest

def sourceFields : List (String × Value) → List (List Char × Json.Source)
  | [] => []
  | (key, item) :: rest => (Json.escape key.toList, source item) :: sourceFields rest

end

end Value

namespace Json

open Value

/-! ## Texts -/

theorem skipBlanks_cons {c : Char} (h : isBlank c = false) (rest : List Char) :
    skipBlanks (c :: rest) = c :: rest := by
  rw [skipBlanks, List.dropWhile_cons, h]
  rfl

theorem length_le_writeItems {items : List Value}
    (h : ∀ item ∈ items, ∀ tail, tail.length < (writeInto item tail).length)
    (tail : List Char) : tail.length ≤ (writeItems items tail).length := by
  induction items with
  | nil => exact Nat.le_refl _
  | cons item rest ih =>
    obtain ⟨hitem, hrest⟩ := List.forall_mem_cons.1 h
    cases rest with
    | nil => exact (hitem tail).le
    | cons next rest =>
      have hlater := ih hrest
      have hfirst := hitem (',' :: writeItems (next :: rest) tail)
      rw [List.length_cons] at hfirst
      rw [writeItems]
      omega

theorem length_le_writeFields {fields : List (String × Value)}
    (h : ∀ field ∈ fields, ∀ tail, tail.length < (writeInto field.2 tail).length)
    (tail : List Char) : tail.length ≤ (writeFields fields tail).length := by
  induction fields with
  | nil => exact Nat.le_refl _
  | cons field rest ih =>
    obtain ⟨hfield, hrest⟩ := List.forall_mem_cons.1 h
    obtain ⟨key, item⟩ := field
    cases rest with
    | nil =>
      have hitem := hfield tail
      simp only [writeFields, quoteInto, List.length_cons, List.length_append] at hitem ⊢
      omega
    | cons next rest =>
      have hlater := ih hrest
      have hitem := hfield (',' :: writeFields (next :: rest) tail)
      simp only [writeFields, quoteInto, List.length_cons, List.length_append] at hitem hlater ⊢
      omega

/-- A value takes up some of its text. -/
theorem length_lt_writeInto {v : Value} (h : v.IsExact) (tail : List Char) :
    tail.length < (writeInto v tail).length := by
  induction h generalizing tail with
  | null =>
    simp only [writeInto, List.length_cons]
    omega
  | bool b =>
    cases b <;> simp only [writeInto, List.length_cons] <;> omega
  | integer n =>
    obtain ⟨c, rest, hwrite, -⟩ := exists_writeChars_eq_cons n
    simp only [writeInto, Number.write, hwrite, List.length_append, List.length_cons]
    omega
  | string s =>
    simp only [writeInto, quoteInto, List.length_append, List.length_cons]
    omega
  | array hitems ih =>
    have hlength := length_le_writeItems ih (']' :: tail)
    rw [writeInto, List.length_cons]
    rw [List.length_cons] at hlength
    omega
  | object hfields ih =>
    have hlength := length_le_writeFields ih ('\x7d' :: tail)
    rw [writeInto, List.length_cons]
    rw [List.length_cons] at hlength
    omega

/-- The first character of a value can be told from blanks and from what closes an array. -/
theorem exists_writeInto_eq_cons {v : Value} (h : v.IsExact) (tail : List Char) :
    ∃ c rest, writeInto v tail = c :: rest ∧ isBlank c = false ∧ c ≠ ']' := by
  cases h with
  | null => exact ⟨_, _, rfl, rfl, by decide⟩
  | bool b => cases b <;> exact ⟨_, _, rfl, rfl, by decide⟩
  | integer n =>
    obtain ⟨c, rest, hwrite, hc⟩ := exists_writeChars_eq_cons n
    refine ⟨c, rest ++ tail, ?_, isBlank_of_startsNumber hc, ne_of_startsNumber hc (by decide)⟩
    rw [writeInto, Number.write, hwrite, List.cons_append]
  | string s => exact ⟨_, _, rfl, rfl, by decide⟩
  | array hitems => exact ⟨_, _, rfl, rfl, by decide⟩
  | object hfields => exact ⟨_, _, rfl, rfl, by decide⟩

theorem exists_writeItems_eq_cons {item : Value} (h : item.IsExact) (rest : List Value)
    (tail : List Char) :
    ∃ c others, writeItems (item :: rest) tail = c :: others ∧ isBlank c = false ∧ c ≠ ']' := by
  cases rest with
  | nil => exact exists_writeInto_eq_cons h tail
  | cons next rest => exact exists_writeInto_eq_cons h _

theorem exists_writeFields_eq_cons (field : String × Value) (rest : List (String × Value))
    (tail : List Char) : ∃ others, writeFields (field :: rest) tail = '\x22' :: others := by
  cases rest <;> exact ⟨_, rfl⟩

/-- What is written for a value is what the grammar finds there. -/
def Found (v : Value) : Prop :=
  ∀ tail fuel, EndsNumber tail → 2 * (writeInto v tail).length + 2 ≤ fuel →
    Source.value? fuel (writeInto v tail) = some (v.source, tail)

/-- There is always fuel for one step. -/
theorem found_of_succ {v : Value}
    (h : ∀ tail fuel, EndsNumber tail → 2 * (writeInto v tail).length + 1 ≤ fuel →
      Source.value? (fuel + 1) (writeInto v tail) = some (v.source, tail)) : Found v := by
  intro tail fuel hends hfuel
  cases fuel with
  | zero => omega
  | succ fuel => exact h tail fuel hends (by omega)

theorem endsNumber_comma (rest : List Char) : EndsNumber (',' :: rest) :=
  .cons (by decide) (by decide) (by decide)

theorem endsNumber_bracket (rest : List Char) : EndsNumber (']' :: rest) :=
  .cons (by decide) (by decide) (by decide)

theorem endsNumber_brace (rest : List Char) : EndsNumber ('\x7d' :: rest) :=
  .cons (by decide) (by decide) (by decide)

theorem items?_writeItems {item : Value} {rest : List Value}
    (hexact : ∀ v ∈ item :: rest, v.IsExact) (hfound : ∀ v ∈ item :: rest, Found v)
    (tail : List Char) {fuel : Nat}
    (hfuel : 2 * (writeItems (item :: rest) (']' :: tail)).length + 3 ≤ fuel)
    (done : List Source) :
    Source.items? fuel (writeItems (item :: rest) (']' :: tail)) done =
      some (done.reverse ++ sourceItems (item :: rest), tail) := by
  induction rest generalizing item fuel done with
  | nil =>
    obtain ⟨fuel, rfl⟩ : ∃ less, fuel = less + 1 := ⟨fuel - 1, by omega⟩
    rw [writeItems] at hfuel ⊢
    have hitem := hfound item List.mem_cons_self (']' :: tail) fuel (endsNumber_bracket tail)
      (by omega)
    rw [Source.items?, hitem]
    simp only [skipBlanks_cons (c := ']') rfl, List.reverse_cons, sourceItems]
  | cons next rest ih =>
    obtain ⟨fuel, rfl⟩ : ∃ less, fuel = less + 1 := ⟨fuel - 1, by omega⟩
    obtain ⟨hitemExact, hrestExact⟩ := List.forall_mem_cons.1 hexact
    obtain ⟨hitemFound, hrestFound⟩ := List.forall_mem_cons.1 hfound
    rw [writeItems] at hfuel ⊢
    have hitem := hitemFound (',' :: writeItems (next :: rest) (']' :: tail)) fuel
      (endsNumber_comma _) (by omega)
    have hlength := length_lt_writeInto hitemExact (',' :: writeItems (next :: rest) (']' :: tail))
    rw [List.length_cons] at hlength
    have hless : 2 * (writeItems (next :: rest) (']' :: tail)).length + 3 ≤ fuel := by omega
    rw [Source.items?, hitem]
    simp only [skipBlanks_cons (c := ',') rfl, ih hrestExact hrestFound hless, sourceItems,
      List.reverse_cons, List.append_assoc, List.singleton_append]

theorem fields?_writeFields {field : String × Value} {rest : List (String × Value)}
    (hexact : ∀ f ∈ field :: rest, f.2.IsExact) (hfound : ∀ f ∈ field :: rest, Found f.2)
    (tail : List Char) {fuel : Nat}
    (hfuel : 2 * (writeFields (field :: rest) ('\x7d' :: tail)).length + 3 ≤ fuel)
    (done : List (List Char × Source)) :
    Source.fields? fuel (writeFields (field :: rest) ('\x7d' :: tail)) done =
      some (done.reverse ++ sourceFields (field :: rest), tail) := by
  induction rest generalizing field fuel done with
  | nil =>
    obtain ⟨fuel, rfl⟩ : ∃ less, fuel = less + 1 := ⟨fuel - 1, by omega⟩
    obtain ⟨key, item⟩ := field
    rw [writeFields, quoteInto] at hfuel ⊢
    simp only [List.length_cons, List.length_append] at hfuel
    have hitem := hfound (key, item) List.mem_cons_self ('\x7d' :: tail) fuel
      (endsNumber_brace tail) (by dsimp only; omega)
    rw [Source.fields?]
    simp only [skipBlanks_cons (c := '\x22') rfl, quoted?_escape, skipBlanks_cons (c := ':') rfl,
      hitem, skipBlanks_cons (c := '\x7d') rfl, List.reverse_cons, sourceFields]
  | cons next rest ih =>
    obtain ⟨fuel, rfl⟩ : ∃ less, fuel = less + 1 := ⟨fuel - 1, by omega⟩
    obtain ⟨key, item⟩ := field
    obtain ⟨hitemExact, hrestExact⟩ := List.forall_mem_cons.1 hexact
    obtain ⟨hitemFound, hrestFound⟩ := List.forall_mem_cons.1 hfound
    rw [writeFields, quoteInto] at hfuel ⊢
    simp only [List.length_cons, List.length_append] at hfuel
    have hitem := hitemFound (',' :: writeFields (next :: rest) ('\x7d' :: tail)) fuel
      (endsNumber_comma _) (by dsimp only; omega)
    have hlength := length_lt_writeInto hitemExact
      (',' :: writeFields (next :: rest) ('\x7d' :: tail))
    rw [List.length_cons] at hlength
    have hless : 2 * (writeFields (next :: rest) ('\x7d' :: tail)).length + 3 ≤ fuel := by
      dsimp only at hlength
      omega
    rw [Source.fields?]
    simp only [skipBlanks_cons (c := '\x22') rfl, quoted?_escape, skipBlanks_cons (c := ':') rfl,
      hitem, skipBlanks_cons (c := ',') rfl, ih hrestExact hrestFound hless, sourceFields,
      List.reverse_cons, List.append_assoc, List.singleton_append]

theorem value?_number {c : Char} {rest : List Char} (hc : StartsNumber c) (fuel : Nat) :
    Source.value? (fuel + 1) (c :: rest) =
      (Numeral.read? (c :: rest)).map fun (numeral, rest) => (.number numeral, rest) := by
  rw [Source.value?.eq_def]
  dsimp only
  rw [skipBlanks_cons (isBlank_of_startsNumber hc)]
  split
  · next heq => cases heq
  · next heq => exact absurd (List.cons.inj heq).1 (ne_of_startsNumber hc (by decide))
  · next heq => exact absurd (List.cons.inj heq).1 (ne_of_startsNumber hc (by decide))
  · next heq => exact absurd (List.cons.inj heq).1 (ne_of_startsNumber hc (by decide))
  · next heq => exact absurd (List.cons.inj heq).1 (ne_of_startsNumber hc (by decide))
  · next heq => exact absurd (List.cons.inj heq).1 (ne_of_startsNumber hc (by decide))
  · next heq => exact absurd (List.cons.inj heq).1 (ne_of_startsNumber hc (by decide))
  · rfl

theorem found_array {items : List Value} (hexact : ∀ v ∈ items, v.IsExact)
    (hfound : ∀ v ∈ items, Found v) : Found (.array items) := by
  refine found_of_succ fun tail fuel _ hfuel => ?_
  rw [writeInto, List.length_cons] at hfuel
  rw [writeInto, Source.value?]
  simp only [skipBlanks_cons (c := '[') rfl]
  cases items with
  | nil => simp only [writeItems, skipBlanks_cons (c := ']') rfl, source, sourceItems]
  | cons item rest =>
    have hless : 2 * (writeItems (item :: rest) (']' :: tail)).length + 3 ≤ fuel := by omega
    have hitems := items?_writeItems hexact hfound tail hless []
    obtain ⟨c, others, hwrite, hblank, hbracket⟩ :=
      exists_writeItems_eq_cons (hexact item List.mem_cons_self) rest (']' :: tail)
    rw [hwrite] at hitems ⊢
    rw [skipBlanks_cons hblank]
    split
    · next heq => exact absurd (List.cons.inj heq).1 hbracket
    · rw [hitems]
      rfl

theorem found_object {fields : List (String × Value)} (hexact : ∀ f ∈ fields, f.2.IsExact)
    (hfound : ∀ f ∈ fields, Found f.2) : Found (.object fields) := by
  refine found_of_succ fun tail fuel _ hfuel => ?_
  rw [writeInto, List.length_cons] at hfuel
  rw [writeInto, Source.value?]
  simp only [skipBlanks_cons (c := '\x7b') rfl]
  cases fields with
  | nil => simp only [writeFields, skipBlanks_cons (c := '\x7d') rfl, source, sourceFields]
  | cons field rest =>
    have hless : 2 * (writeFields (field :: rest) ('\x7d' :: tail)).length + 3 ≤ fuel := by omega
    have hfields := fields?_writeFields hexact hfound tail hless []
    obtain ⟨others, hwrite⟩ := exists_writeFields_eq_cons field rest ('\x7d' :: tail)
    rw [hwrite] at hfields ⊢
    rw [skipBlanks_cons (c := '\x22') rfl]
    split
    · next heq => exact absurd (List.cons.inj heq).1 (by decide)
    · rw [hfields]
      rfl

/-- The grammar finds in the text of a value what was written, whatever comes behind it. -/
theorem found_of_isExact {v : Value} (h : v.IsExact) : Found v := by
  induction h with
  | null =>
    refine found_of_succ fun tail fuel _ _ => ?_
    rw [writeInto, Source.value?]
    simp only [skipBlanks_cons (c := 'n') rfl, source]
  | bool b =>
    refine found_of_succ fun tail fuel _ _ => ?_
    cases b with
    | true =>
      rw [writeInto, Source.value?]
      simp only [skipBlanks_cons (c := 't') rfl, source]
    | false =>
      rw [writeInto, Source.value?]
      simp only [skipBlanks_cons (c := 'f') rfl, source]
  | integer n =>
    refine found_of_succ fun tail fuel hends _ => ?_
    obtain ⟨c, rest, hwrite, hc⟩ := exists_writeChars_eq_cons n
    have hread := Numeral.read?_writeChars n hends
    rw [writeInto, Number.write]
    rw [hwrite, List.cons_append] at hread ⊢
    rw [value?_number hc, hread]
    rfl
  | string s =>
    refine found_of_succ fun tail fuel _ _ => ?_
    rw [writeInto, quoteInto, Source.value?]
    simp only [skipBlanks_cons (c := '\x22') rfl, quoted?_escape, Option.map_some, source]
  | array hitems ih => exact found_array hitems ih
  | object hfields ih => exact found_object hfields ih

/-- The whole text of a value is what was written for it. -/
theorem Source.parse?_print {v : Value} (h : v.IsExact) :
    Source.parse? (print v) = some v.source := by
  have hfound := found_of_isExact h [] (2 * (writeInto v []).length + 2) .nil (Nat.le_refl _)
  rw [Source.parse?, print, String.toList_ofList]
  simp only [hfound]
  rfl

end Json

end LookupEngine
