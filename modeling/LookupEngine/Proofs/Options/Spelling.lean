import Mathlib.Data.List.Forall2
import LookupEngine.Options
import LookupEngine.Proofs.Text.Blank
import LookupEngine.Proofs.Text.Entries
import LookupEngine.Proofs.Text.Split
import LookupEngine.Proofs.Text.Words
/-!
# Two spellings of an option

A list can be given as an array or as a text with commas and semicolons, and a map as an object or
as a text of keys and values.  Both spellings are read alike: each entry of an array, an object or
a text says something or nothing, and what is read is what the entries say, in their order.  An
entry that says nothing is passed over, whatever stands beside it.
-/

namespace LookupEngine.Options

/-! ## Entries that say something -/

/-- What some entries say, in order, those that say nothing being passed over. -/
inductive Keeps {α β : Type} (Gives : α → β → Prop) (IsSilent : α → Prop) : List α → List β → Prop
  | nil : Keeps Gives IsSilent [] []
  | gives {entry : α} {item : β} {entries : List α} {items : List β} (h : Gives entry item)
    (hrest : Keeps Gives IsSilent entries items) :
    Keeps Gives IsSilent (entry :: entries) (item :: items)
  | silent {entry : α} {entries : List α} {items : List β} (h : IsSilent entry)
    (hrest : Keeps Gives IsSilent entries items) : Keeps Gives IsSilent (entry :: entries) items

/-- A value that stands for a text. -/
inductive Tells : Value → String → Prop
  | string (s : String) : Tells (.string s) s
  | yes : Tells (.bool true) "true"
  | no : Tells (.bool false) "false"
  | number (n : Number) : Tells (.number n) (String.ofList n.write)

/-- A value that stands for no text. -/
inductive IsStructure : Value → Prop
  | null : IsStructure .null
  | array (items : List Value) : IsStructure (.array items)
  | object (fields : List (String × Value)) : IsStructure (.object fields)

/-- An item between two marks is not empty and may have blanks around it. -/
def HoldsItem (piece : List Char) (item : String) : Prop :=
  item ≠ "" ∧ Text.Trims piece item.toList

/-- A key, which is not empty, and a value with a colon between them and any blanks around each.
The value may hold more colons. -/
def HoldsPair (piece : List Char) (pair : String × String) : Prop :=
  ∃ key value, piece = key ++ ':' :: value ∧ ':' ∉ key ∧ pair.1 ≠ "" ∧
    Text.Trims key pair.1.toList ∧ Text.Trims value pair.2.toList

/-- A piece without a colon, or with nothing but blanks before it. -/
def IsNoPair (piece : List Char) : Prop :=
  ':' ∉ piece ∨ ∃ key value, piece = key ++ ':' :: value ∧ Text.IsGap key

/-- The marks between the items of a text. -/
def isListMark (c : Char) : Bool := c = ',' || c = ';'

/-- The marks between the pairs of a text. -/
def isPairMark (c : Char) : Bool := c = ','

/-- The values that spell a list: arrays, and texts with any mixture of commas and semicolons. -/
inductive SpellsList : List String → Value → Prop
  | array {items : List String} {values : List Value} (h : Keeps Tells IsStructure values items) :
    SpellsList items (.array values)
  | text {items : List String} {pieces : List (List Char)} {text : String}
    (hpieces : Text.JoinsAt isListMark pieces text.toList)
    (h : Keeps HoldsItem Text.IsGap pieces items) :
    SpellsList items (.string text)

/-- The values that spell a list of pairs: objects, and texts with commas between the pairs. -/
inductive SpellsPairs : List (String × String) → Value → Prop
  | object {pairs : List (String × String)} {fields : List (String × Value)}
    (h : Keeps (fun field pair => field.1 = pair.1 ∧ Tells field.2 pair.2)
      (fun field => IsStructure field.2) fields pairs) : SpellsPairs pairs (.object fields)
  | text {pairs : List (String × String)} {pieces : List (List Char)} {text : String}
    (hpieces : Text.JoinsAt isPairMark pieces text.toList)
    (h : Keeps HoldsPair IsNoPair pieces pairs) : SpellsPairs pairs (.string text)

/-- Reading the entries one by one gives what they say. -/
theorem filterMap_eq_iff_keeps {α β : Type} {read : α → Option β} {Gives : α → β → Prop}
    {IsSilent : α → Prop} (hgives : ∀ entry item, read entry = some item ↔ Gives entry item)
    (hsilent : ∀ entry, read entry = none ↔ IsSilent entry) {entries : List α} {items : List β} :
    entries.filterMap read = items ↔ Keeps Gives IsSilent entries items := by
  constructor
  · rintro rfl
    induction entries with
    | nil => exact .nil
    | cons entry rest ih =>
      cases hread : read entry with
      | none =>
        rw [List.filterMap_cons_none hread]
        exact .silent ((hsilent entry).1 hread) ih
      | some item =>
        rw [List.filterMap_cons_some hread]
        exact .gives ((hgives entry item).1 hread) ih
  · intro h
    induction h with
    | nil => rfl
    | gives h hrest ih => rw [List.filterMap_cons_some ((hgives _ _).2 h), ih]
    | silent h hrest ih => rw [List.filterMap_cons_none ((hsilent _).2 h), ih]

/-! ## What one entry says -/

theorem toText_number (n : Number) : (Value.number n).toText = String.ofList n.write :=
  congrArg String.ofList (List.append_nil n.write)

theorem scalarText?_eq_some_iff (v : Value) (text : String) :
    scalarText? v = some text ↔ Tells v text := by
  constructor
  · intro h
    cases v with
    | null => cases h
    | bool b =>
      obtain rfl := Option.some.inj h
      cases b with
      | true => exact .yes
      | false => exact .no
    | number n =>
      obtain rfl := Option.some.inj h
      exact toText_number n ▸ .number n
    | string s =>
      obtain rfl := Option.some.inj h
      exact .string s
    | array items => cases h
    | object fields => cases h
  · intro h
    cases h with
    | string s => rfl
    | yes => rfl
    | no => rfl
    | number n => exact congrArg some (toText_number n)

theorem scalarText?_eq_none_iff (v : Value) : scalarText? v = none ↔ IsStructure v := by
  constructor
  · intro h
    cases v with
    | null => exact .null
    | array items => exact .array items
    | object fields => exact .object fields
    | bool b => cases h
    | number n => cases h
    | string s => cases h
  · intro h
    cases h <;> rfl

/-- The item of a piece, unless it is blank. -/
def itemOfPiece? (piece : List Char) : Option String :=
  if (Text.trimChars piece).isEmpty then none else some (String.ofList (Text.trimChars piece))

theorem itemsOfText_eq (text : String) :
    itemsOfText text = (Text.splitAny isListMark text.toList).filterMap itemOfPiece? := by
  rw [itemsOfText, List.filterMap_map]
  rfl

theorem itemOfPiece?_eq_some_iff (piece : List Char) (item : String) :
    itemOfPiece? piece = some item ↔ HoldsItem piece item := by
  rw [itemOfPiece?, HoldsItem, ← Text.trimChars_eq_iff_trims]
  constructor
  · intro h
    split at h
    · cases h
    · next hne =>
      obtain rfl := Option.some.inj h
      rw [List.isEmpty_iff] at hne
      exact ⟨fun hempty => hne (String.ofList_eq_empty_iff.1 hempty), String.toList_ofList.symm⟩
  · rintro ⟨hne, htrim⟩
    rw [htrim, if_neg, String.ofList_toList]
    rwa [List.isEmpty_iff, String.toList_eq_nil_iff]

theorem itemOfPiece?_eq_none_iff (piece : List Char) :
    itemOfPiece? piece = none ↔ Text.IsGap piece := by
  rw [itemOfPiece?, Text.IsGap, ← Text.trimChars_eq_nil_iff, ← List.isEmpty_iff]
  split <;> simp_all

theorem pairOfText?_append {key : List Char} (hkey : ':' ∉ key) (value : List Char) :
    pairOfText? (key ++ ':' :: value) =
      if (Text.trimChars key).isEmpty then none
      else some (String.ofList (Text.trimChars key), String.ofList (Text.trimChars value)) := by
  rw [pairOfText?, Text.splitOnce_append hkey]

theorem pairOfText?_of_not_mem {piece : List Char} (h : ':' ∉ piece) :
    pairOfText? piece = none := by
  rw [pairOfText?, Text.splitOnce_eq_none_iff.2 h]

theorem pairOfText?_eq_some_iff (piece : List Char) (pair : String × String) :
    pairOfText? piece = some pair ↔ HoldsPair piece pair := by
  constructor
  · intro h
    cases hsplit : Text.splitOnce ':' piece with
    | none =>
      rw [pairOfText?, hsplit] at h
      cases h
    | some cut =>
      obtain ⟨key, value⟩ := cut
      have hkey := Text.not_mem_of_splitOnce hsplit
      obtain rfl := Text.splitOnce_eq_some hsplit
      rw [pairOfText?_append hkey] at h
      split at h
      · cases h
      · next hne =>
        obtain rfl := Option.some.inj h
        refine ⟨key, value, rfl, hkey, ?_, ?_, ?_⟩
        · rwa [ne_eq, String.ofList_eq_empty_iff, ← List.isEmpty_iff]
        · exact Text.trimChars_eq_iff_trims.1 String.toList_ofList.symm
        · exact Text.trimChars_eq_iff_trims.1 String.toList_ofList.symm
  · rintro ⟨key, value, rfl, hkey, hne, htrim, hvalue⟩
    rw [pairOfText?_append hkey, Text.trimChars_eq_iff_trims.2 htrim,
      Text.trimChars_eq_iff_trims.2 hvalue, String.ofList_toList, String.ofList_toList, if_neg]
    rwa [List.isEmpty_iff, String.toList_eq_nil_iff]

theorem pairOfText?_eq_none_iff (piece : List Char) :
    pairOfText? piece = none ↔ IsNoPair piece := by
  constructor
  · intro h
    by_cases hcolon : ':' ∈ piece
    · obtain ⟨key, value, rfl, hkey⟩ := List.eq_append_cons_of_mem hcolon
      rw [pairOfText?_append hkey] at h
      split at h
      · next hempty =>
        exact .inr ⟨key, value, rfl, Text.trimChars_eq_nil_iff.1 (List.isEmpty_iff.1 hempty)⟩
      · cases h
    · exact .inl hcolon
  · rintro (hcolon | ⟨key, value, rfl, hblank⟩)
    · exact pairOfText?_of_not_mem hcolon
    · have hkey : ':' ∉ key := fun hmem => absurd (hblank ':' hmem) (by decide)
      rw [pairOfText?_append hkey, Text.trimChars_of_blank hblank]
      rfl

/-! ## What an option spells -/

/-- What is read from the pieces of a text is what they say, however the text is cut. -/
theorem filterMap_splitAny_eq_iff {β : Type} {read : List Char → Option β}
    {Gives : List Char → β → Prop} {IsSilent : List Char → Prop}
    (hgives : ∀ piece item, read piece = some item ↔ Gives piece item)
    (hsilent : ∀ piece, read piece = none ↔ IsSilent piece) {isMark : Char → Bool}
    {text : List Char} {items : List β} :
    (Text.splitAny isMark text).filterMap read = items ↔
      ∃ pieces, Text.JoinsAt isMark pieces text ∧ Keeps Gives IsSilent pieces items := by
  constructor
  · intro h
    exact ⟨_, Text.splitAny_eq_iff_joinsAt.1 rfl, (filterMap_eq_iff_keeps hgives hsilent).1 h⟩
  · rintro ⟨pieces, hpieces, h⟩
    rw [Text.splitAny_eq_iff_joinsAt.2 hpieces]
    exact (filterMap_eq_iff_keeps hgives hsilent).2 h

theorem itemsOfText_eq_iff {text : String} {items : List String} :
    itemsOfText text = items ↔ SpellsList items (.string text) := by
  rw [itemsOfText_eq, filterMap_splitAny_eq_iff itemOfPiece?_eq_some_iff itemOfPiece?_eq_none_iff]
  constructor
  · rintro ⟨pieces, hpieces, h⟩
    exact .text hpieces h
  · intro h
    cases h with
    | text hpieces h => exact ⟨_, hpieces, h⟩

theorem pairsOfText_eq_iff {text : String} {pairs : List (String × String)} :
    (Text.splitAny isPairMark text.toList).filterMap pairOfText? = pairs ↔
      SpellsPairs pairs (.string text) := by
  rw [filterMap_splitAny_eq_iff pairOfText?_eq_some_iff pairOfText?_eq_none_iff]
  constructor
  · rintro ⟨pieces, hpieces, h⟩
    exact .text hpieces h
  · intro h
    cases h with
    | text hpieces h => exact ⟨_, hpieces, h⟩

theorem scalars_eq_iff {values : List Value} {items : List String} :
    values.filterMap scalarText? = items ↔ SpellsList items (.array values) := by
  rw [filterMap_eq_iff_keeps scalarText?_eq_some_iff scalarText?_eq_none_iff]
  constructor
  · exact .array
  · intro h
    cases h with
    | array h => exact h

/-- The pair of a field, unless its value stands for no text. -/
def pairOfField? (field : String × Value) : Option (String × String) :=
  (scalarText? field.2).map fun text => (field.1, text)

theorem fields_eq_iff {fields : List (String × Value)} {pairs : List (String × String)} :
    fields.filterMap pairOfField? = pairs ↔ SpellsPairs pairs (.object fields) := by
  have hgives (field : String × Value) (pair : String × String) :
      pairOfField? field = some pair ↔ field.1 = pair.1 ∧ Tells field.2 pair.2 := by
    rw [pairOfField?, Option.map_eq_some_iff, ← scalarText?_eq_some_iff]
    constructor
    · rintro ⟨text, htext, rfl⟩
      exact ⟨rfl, htext⟩
    · rintro ⟨hkey, htext⟩
      exact ⟨pair.2, htext, Prod.ext hkey rfl⟩
  have hsilent (field : String × Value) : pairOfField? field = none ↔ IsStructure field.2 := by
    rw [pairOfField?, Option.map_eq_none_iff, scalarText?_eq_none_iff]
  rw [filterMap_eq_iff_keeps hgives hsilent]
  constructor
  · exact .object
  · intro h
    cases h with
    | object h => exact h

theorem list?_eq_some_iff {options : Options} {key : String} {items : List String} :
    options.list? key = some items ↔
      ∃ value, options.find? key = some value ∧ SpellsList items value := by
  rw [list?]
  cases hfind : options.find? key with
  | none => simp
  | some value =>
    simp only [Option.some.injEq, exists_eq_left']
    cases value with
    | array values => exact Option.some_inj.trans scalars_eq_iff
    | string text => exact Option.some_inj.trans itemsOfText_eq_iff
    | _ => exact iff_of_false nofun nofun

theorem pairs?_eq_some_iff {options : Options} {key : String} {pairs : List (String × String)} :
    options.pairs? key = some pairs ↔
      ∃ value, options.find? key = some value ∧ SpellsPairs pairs value := by
  rw [pairs?]
  cases hfind : options.find? key with
  | none => simp
  | some value =>
    simp only [Option.some.injEq, exists_eq_left']
    cases value with
    | object fields => exact Option.some_inj.trans fields_eq_iff
    | string text => exact Option.some_inj.trans pairsOfText_eq_iff
    | _ => exact iff_of_false nofun nofun

/-! ## Both spellings of a list and of a map -/

/-- A text that can be an item in either spelling. -/
structure IsItem (item : String) : Prop where
  ne_empty : item ≠ ""
  trimmed : Text.IsTrimmed item.toList
  plain : ∀ c ∈ item.toList, ¬ isListMark c = true

/-- A key and a value that can be a pair in either spelling. -/
structure IsPair (pair : String × String) : Prop where
  key_ne_empty : pair.1 ≠ ""
  key_trimmed : Text.IsTrimmed pair.1.toList
  key_plain : ∀ c ∈ pair.1.toList, ¬ isPairMark c = true
  key_colon : ':' ∉ pair.1.toList
  value_trimmed : Text.IsTrimmed pair.2.toList
  value_plain : ∀ c ∈ pair.2.toList, ¬ isPairMark c = true

theorem isItem_iff_all {item : String} :
    (item != "" && decide (Text.IsTrimmed item.toList) &&
      item.toList.all fun c => !isListMark c) = true ↔ IsItem item := by
  simp only [Bool.and_eq_true, bne_iff_ne, decide_eq_true_eq, List.all_eq_true,
    Bool.not_eq_true', ← Bool.not_eq_true]
  constructor
  · rintro ⟨⟨hne, htrimmed⟩, hplain⟩
    exact ⟨hne, htrimmed, hplain⟩
  · rintro ⟨hne, htrimmed, hplain⟩
    exact ⟨⟨hne, htrimmed⟩, hplain⟩

instance (item : String) : Decidable (IsItem item) := decidable_of_iff _ isItem_iff_all

theorem isPair_iff_all {pair : String × String} :
    (pair.1 != "" && decide (Text.IsTrimmed pair.1.toList) &&
      pair.1.toList.all (fun c => !isPairMark c) && !pair.1.toList.contains ':' &&
      decide (Text.IsTrimmed pair.2.toList) && pair.2.toList.all fun c => !isPairMark c) = true ↔
      IsPair pair := by
  simp only [Bool.and_eq_true, bne_iff_ne, decide_eq_true_eq, List.all_eq_true,
    Bool.not_eq_true', ← Bool.not_eq_true, List.contains_iff_mem]
  constructor
  · rintro ⟨⟨⟨⟨⟨hne, hkey⟩, hplain⟩, hcolon⟩, hvalue⟩, hvalues⟩
    exact ⟨hne, hkey, hplain, hcolon, hvalue, hvalues⟩
  · rintro ⟨hne, hkey, hplain, hcolon, hvalue, hvalues⟩
    exact ⟨⟨⟨⟨⟨hne, hkey⟩, hplain⟩, hcolon⟩, hvalue⟩, hvalues⟩

instance (pair : String × String) : Decidable (IsPair pair) := decidable_of_iff _ isPair_iff_all

/-- A key and a value with a colon between them. -/
def pairText (pair : String × String) : List Char := pair.1.toList ++ ':' :: pair.2.toList

/-- Some pairs with commas between them. -/
def joinedPairs (pairs : List (String × String)) : String :=
  String.ofList ([','].intercalate (pairs.map pairText))

theorem not_isListMark_of_isBlank {c : Char} (h : Text.isBlank c = true) :
    ¬ isListMark c = true := by
  rw [isListMark, Bool.or_eq_true, decide_eq_true_eq, decide_eq_true_eq]
  rintro (rfl | rfl)
  · exact absurd h (by decide)
  · exact absurd h (by decide)

theorem plain_of_trims {item : String} {piece : List Char} (hitem : IsItem item)
    (hpiece : Text.Trims piece item.toList) : ∀ c ∈ piece, ¬ isListMark c = true := by
  obtain ⟨before, after, rfl, hbefore, hafter, -⟩ := hpiece
  refine List.forall_mem_append.2 ⟨List.forall_mem_append.2 ⟨?_, hitem.plain⟩, ?_⟩
  · exact fun c hc => not_isListMark_of_isBlank (hbefore c hc)
  · exact fun c hc => not_isListMark_of_isBlank (hafter c hc)

section

variable {α β : Type} {Gives Gives' : α → β → Prop} {IsSilent : α → Prop} {entries : List α}
  {items : List β}

theorem Keeps.of_forall₂ (h : List.Forall₂ (fun item entry => Gives entry item) items entries) :
    Keeps Gives IsSilent entries items := by
  induction h with
  | nil => exact .nil
  | cons h hrest ih => exact .gives h ih

theorem Keeps.imp (h : Keeps Gives IsSilent entries items)
    (himp : ∀ item ∈ items, ∀ entry, Gives entry item → Gives' entry item) :
    Keeps Gives' IsSilent entries items := by
  induction h with
  | nil => exact .nil
  | gives h hrest ih =>
    obtain ⟨hitem, hitems⟩ := List.forall_mem_cons.1 himp
    exact .gives (hitem _ h) (ih hitems)
  | silent h hrest ih => exact .silent h (ih himp)

theorem Keeps.gives_or_silent (h : Keeps Gives IsSilent entries items) :
    ∀ entry ∈ entries, (∃ item ∈ items, Gives entry item) ∨ IsSilent entry := by
  induction h with
  | nil => exact fun entry hentry => absurd hentry List.not_mem_nil
  | gives h hrest ih =>
    refine List.forall_mem_cons.2 ⟨.inl ⟨_, List.mem_cons_self, h⟩, fun entry hentry => ?_⟩
    exact (ih entry hentry).imp_left fun ⟨item, hitem, hgives⟩ =>
      ⟨item, List.mem_cons_of_mem _ hitem, hgives⟩
  | silent h hrest ih => exact List.forall_mem_cons.2 ⟨.inr h, ih⟩

end

/-- A text without any piece has one that says nothing, so pieces without marks may be none. -/
theorem exists_joinsAt_of_interposed {β : Type} {Gives : List Char → β → Prop}
    {IsSilent : List Char → Prop} (hsilent : IsSilent []) {isMark : Char → Bool}
    {pieces : List (List Char)} {items : List β} {text : List Char}
    (hkeeps : Keeps Gives IsSilent pieces items)
    (hplain : ∀ piece ∈ pieces, ∀ c ∈ piece, ¬ isMark c = true)
    (htext : Text.Interposed isMark pieces text) :
    ∃ pieces, Text.JoinsAt isMark pieces text ∧ Keeps Gives IsSilent pieces items := by
  cases pieces with
  | nil =>
    cases htext
    refine ⟨[[]], ⟨List.cons_ne_nil _ _, ?_, .single []⟩, .silent hsilent hkeeps⟩
    exact List.forall_mem_singleton.2 fun c hc => absurd hc List.not_mem_nil
  | cons piece rest => exact ⟨_, ⟨List.cons_ne_nil _ _, hplain, htext⟩, hkeeps⟩

theorem spellsList_ofStrings (items : List String) : SpellsList items (.ofStrings items) := by
  refine .array (Keeps.of_forall₂ ?_)
  rw [List.forall₂_map_right_iff]
  exact List.forall₂_same.2 fun item _ => .string item

theorem spellsList_string {items : List String} {pieces : List (List Char)} {text : String}
    (hitems : ∀ item ∈ items, IsItem item)
    (hpieces : Keeps (fun piece item => Text.Trims piece item.toList) Text.IsGap pieces items)
    (htext : Text.Interposed isListMark pieces text.toList) : SpellsList items (.string text) := by
  have hplain : ∀ piece ∈ pieces, ∀ c ∈ piece, ¬ isListMark c = true := by
    intro piece hpiece
    rcases hpieces.gives_or_silent piece hpiece with ⟨item, hitem, htrims⟩ | hgap
    · exact plain_of_trims (hitems item hitem) htrims
    · exact fun c hc => not_isListMark_of_isBlank (hgap c hc)
  -- The items are not empty, so a piece with blanks around one is not taken for a blank piece.
  have hholds : Keeps HoldsItem Text.IsGap pieces items :=
    hpieces.imp fun item hitem _ htrims => ⟨(hitems item hitem).ne_empty, htrims⟩
  have hsilent : Text.IsGap [] := fun c hc => absurd hc List.not_mem_nil
  obtain ⟨cut, hcut, hkeeps⟩ := exists_joinsAt_of_interposed hsilent hholds hplain htext
  exact .text hcut hkeeps

theorem spellsPairs_ofFields (pairs : List (String × String)) :
    SpellsPairs (Entries.ofList pairs)
      (.ofFields (pairs.map fun pair => (pair.1, .string pair.2))) := by
  rw [Value.ofFields, Entries.ofList_map]
  refine .object (Keeps.of_forall₂ ?_)
  rw [List.forall₂_map_right_iff]
  exact List.forall₂_same.2 fun pair _ => ⟨rfl, .string pair.2⟩

theorem holdsPair_pairText {pair : String × String} (h : IsPair pair) :
    HoldsPair (pairText pair) pair := by
  refine ⟨pair.1.toList, pair.2.toList, rfl, h.key_colon, h.key_ne_empty, ?_, ?_⟩
  · exact Text.trimChars_eq_iff_trims.1 ((Text.trimChars_eq_self_iff _).2 h.key_trimmed)
  · exact Text.trimChars_eq_iff_trims.1 ((Text.trimChars_eq_self_iff _).2 h.value_trimmed)

theorem plain_pairText {pair : String × String} (h : IsPair pair) :
    ∀ c ∈ pairText pair, ¬ isPairMark c = true :=
  List.forall_mem_append.2 ⟨h.key_plain, List.forall_mem_cons.2 ⟨by decide, h.value_plain⟩⟩

theorem spellsPairs_joinedPairs {pairs : List (String × String)}
    (h : ∀ pair ∈ pairs, IsPair pair) : SpellsPairs pairs (.string (joinedPairs pairs)) := by
  have hholds : Keeps HoldsPair IsNoPair (pairs.map pairText) pairs := by
    apply Keeps.of_forall₂
    rw [List.forall₂_map_right_iff]
    exact List.forall₂_same.2 fun pair hpair => holdsPair_pairText (h pair hpair)
  have hplain : ∀ piece ∈ pairs.map pairText, ∀ c ∈ piece, ¬ isPairMark c = true :=
    List.forall_mem_map.2 fun pair hpair => plain_pairText (h pair hpair)
  have hsilent : IsNoPair [] := .inl List.not_mem_nil
  obtain ⟨cut, hcut, hkeeps⟩ := exists_joinsAt_of_interposed hsilent hholds hplain
    (Text.interposed_intercalate (c := ',') rfl (pairs.map pairText))
  refine .text ?_ hkeeps
  rwa [joinedPairs, String.toList_ofList]

/-- An option is read as a list, or as pairs, exactly if its value spells them, where entries that
say nothing make no difference.  In particular a list of items is read from its array and from any
text that joins the items with commas, semicolons and blanks, and a map is read in the order of
its keys from its object, in whatever order the fields are stated, and from the text of its
pairs. -/
theorem spellings_are_read_alike (options : Options) (key : String) :
    (∀ items, options.list? key = some items ↔
      ∃ value, options.find? key = some value ∧ SpellsList items value) ∧
    (∀ pairs, options.pairs? key = some pairs ↔
      ∃ value, options.find? key = some value ∧ SpellsPairs pairs value) ∧
    (∀ items pieces text, (∀ item ∈ items, IsItem item) →
      Keeps (fun piece item => Text.Trims piece item.toList) Text.IsGap pieces items →
      Text.Interposed isListMark pieces text.toList →
      options.find? key = some (.ofStrings items) ∨ options.find? key = some (.string text) →
      options.list? key = some items) ∧
    ∀ stated, (∀ pair ∈ stated, IsPair pair) →
      (Entries.ofList stated).Sorted ∧
      (options.find? key = some (.ofFields (stated.map fun pair => (pair.1, .string pair.2))) ∨
        options.find? key = some (.string (joinedPairs (Entries.ofList stated))) →
        options.pairs? key = some (Entries.ofList stated)) := by
  refine ⟨fun items => list?_eq_some_iff, fun pairs => pairs?_eq_some_iff, ?_, ?_⟩
  · rintro items pieces text hitems hpieces htext (hfind | hfind)
    · exact list?_eq_some_iff.2 ⟨_, hfind, spellsList_ofStrings items⟩
    · exact list?_eq_some_iff.2 ⟨_, hfind, spellsList_string hitems hpieces htext⟩
  · intro stated hstated
    refine ⟨Entries.sorted_ofList stated, ?_⟩
    have hpairs : ∀ pair ∈ Entries.ofList stated, IsPair pair :=
      fun pair hpair => hstated pair (Entries.mem_of_mem_ofList hpair)
    rintro (hfind | hfind)
    · exact pairs?_eq_some_iff.2 ⟨_, hfind, spellsPairs_ofFields stated⟩
    · exact pairs?_eq_some_iff.2 ⟨_, hfind, spellsPairs_joinedPairs hpairs⟩

/-- Some hosts with both marks and blank pieces between them, and the text of some headers. -/
def mixedOptions : Options :=
  [("headers", .string "Accept:,Authorization:Bearer: x y,X-Id:7"),
    ("hosts", .string " web 1 ;db:2,; ,\tcache")]

def someHosts : List String := ["web 1", "db:2", "cache"]

def hostPieces : List (List Char) := [" web 1 ", "db:2", "", " ", "\tcache"].map String.toList

def statedHeaders : List (String × String) :=
  [("X-Id", "7"), ("Authorization", "Bearer: x y"), ("Accept", "")]

theorem spellings_are_read_alike_mixed :
    (∀ item ∈ someHosts, IsItem item) ∧ (∀ pair ∈ statedHeaders, IsPair pair) ∧
      mixedOptions.list? "hosts" = some someHosts ∧
      mixedOptions.pairs? "headers" =
        some [("Accept", ""), ("Authorization", "Bearer: x y"), ("X-Id", "7")] := by
  have hitems : ∀ item ∈ someHosts, IsItem item := by decide +kernel
  have hpairs : ∀ pair ∈ statedHeaders, IsPair pair := by decide +kernel
  have hpieces : Keeps (fun piece item => Text.Trims piece item.toList) Text.IsGap hostPieces
      someHosts :=
    .gives (by decide +kernel) <| .gives (by decide +kernel) <| .silent (by decide +kernel) <|
      .silent (by decide +kernel) <| .gives (by decide +kernel) .nil
  have hcut : " web 1 ;db:2,; ,\tcache".toList =
      " web 1 ".toList ++ ';' :: ("db:2".toList ++ ',' :: ("".toList ++ ';' :: (" ".toList ++
        ',' :: "\tcache".toList))) := by
    decide +kernel
  have htext : Text.Interposed isListMark hostPieces " web 1 ;db:2,; ,\tcache".toList :=
    hcut ▸ .cons rfl (.cons rfl (.cons rfl (.cons rfl (.single _))))
  have hheaders : Entries.ofList statedHeaders =
      [("Accept", ""), ("Authorization", "Bearer: x y"), ("X-Id", "7")] := by
    decide +kernel
  have hjoined : "Accept:,Authorization:Bearer: x y,X-Id:7" =
      joinedPairs (Entries.ofList statedHeaders) := by
    decide +kernel
  obtain ⟨-, -, hlist, -⟩ := spellings_are_read_alike mixedOptions "hosts"
  obtain ⟨-, -, -, hmap⟩ := spellings_are_read_alike mixedOptions "headers"
  exact ⟨hitems, hpairs, hlist _ _ _ hitems hpieces htext (.inr rfl),
    hheaders ▸ (hmap _ hpairs).2 (.inr (hjoined ▸ rfl))⟩

end LookupEngine.Options
