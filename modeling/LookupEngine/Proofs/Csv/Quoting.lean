import Mathlib.Data.List.Basic
import LookupEngine.Csv
import LookupEngine.Proofs.Text.Utf8
/-!
# Tables in quotes

A table in which every field stands in quotes is read record by record as it was written,
whatever its fields hold.  Nothing is read beyond the end of a record before the next one is
asked for, so a search that ends at a record knows nothing of what follows it.
-/

namespace LookupEngine.Csv

/-- A character inside of quotes; a quote stands there twice. -/
def quotedChar (c : Char) : List Char := if c = '\x22' then ['\x22', '\x22'] else [c]

/-- A field in quotes. -/
def quotedField (field : String) : List Char :=
  '\x22' :: field.toList.flatMap quotedChar ++ ['\x22']

/-- The fields of a row in quotes, joined by the delimiter, and a line feed. -/
def quotedRow (delimiter : Char) (row : List String) : List Char :=
  [delimiter].intercalate (row.map quotedField) ++ ['\n']

/-- What follows the first field of a row. -/
def furtherFields (delimiter : Char) (row : List String) : List Char :=
  row.flatMap (fun text => delimiter :: quotedField text) ++ ['\n']

/-- A table in which every field stands in quotes. -/
def quotedTable (delimiter : Char) (rows : List (List String)) : List Char :=
  rows.flatMap (quotedRow delimiter)

/-- A delimiter that can be told from quotes and from the end of a row. -/
structure IsDelimiter (delimiter : Char) : Prop where
  ascii : delimiter.toNat < 0x80
  ne_quote : delimiter ≠ '\x22'
  ne_return : delimiter ≠ '\r'
  ne_lineFeed : delimiter ≠ '\n'

section

variable {d : UInt8} {cursor : Cursor} {field : Bytes} {fields : List Bytes} {b : UInt8}
  {rest : Bytes} {state next : State} {line byte : Nat}

theorem readFrom_of_skip (h : move d state b = .skip next) :
    readFrom d cursor field fields (b :: rest) state line byte =
      readFrom d cursor field fields rest next (if b = lineFeed then line + 1 else line)
        (byte + 1) := by
  rw [readFrom]
  simp only [h]

theorem readFrom_of_copy (h : move d state b = .copy next) :
    readFrom d cursor field fields (b :: rest) state line byte =
      readFrom d cursor (b :: field) fields rest next (if b = lineFeed then line + 1 else line)
        (byte + 1) := by
  rw [readFrom]
  simp only [h]

theorem readFrom_of_endField (h : move d state b = .endField) :
    readFrom d cursor field fields (b :: rest) state line byte =
      readFrom d cursor [] (field.reverse :: fields) rest .startField
        (if b = lineFeed then line + 1 else line) (byte + 1) := by
  rw [readFrom]
  simp only [h]

theorem readFrom_of_endRecord (h : move d state b = .endRecord next) :
    readFrom d cursor field fields (b :: rest) state line byte =
      some ((field.reverse :: fields).reverse,
        ⟨rest, next, cursor.record + 1, if b = lineFeed then line + 1 else line, byte + 1⟩) := by
  rw [readFrom]
  simp only [h]

/-- Bytes without a quote are copied as they are. -/
theorem readFrom_plain {bytes : Bytes} (hbytes : ∀ b ∈ bytes, b ≠ quote) (field rest : Bytes)
    (line byte : Nat) :
    ∃ line' byte', readFrom d cursor field fields (bytes ++ rest) .inQuotes line byte =
      readFrom d cursor (bytes.reverse ++ field) fields rest .inQuotes line' byte' := by
  induction bytes generalizing field line byte with
  | nil => exact ⟨line, byte, rfl⟩
  | cons b bytes ih =>
    obtain ⟨hb, hrest⟩ := List.forall_mem_cons.1 hbytes
    have hmove : move d .inQuotes b = .copy .inQuotes := by rw [move, if_neg hb]
    obtain ⟨line', byte', hread⟩ :=
      ih hrest (b :: field) (if b = lineFeed then line + 1 else line) (byte + 1)
    refine ⟨line', byte', ?_⟩
    rw [List.cons_append, readFrom_of_copy hmove, hread, List.reverse_cons, List.append_assoc,
      List.singleton_append]

theorem readFrom_quotedChar (c : Char) (field rest : Bytes) (line byte : Nat) :
    ∃ line' byte',
      readFrom d cursor field fields (Utf8.encodeChars (quotedChar c) ++ rest) .inQuotes
          line byte =
        readFrom d cursor ((String.utf8EncodeChar c).reverse ++ field) fields rest .inQuotes
          line' byte' := by
  by_cases hc : c = '\x22'
  · subst hc
    exact ⟨line, byte + 1 + 1, rfl⟩
  · rw [quotedChar, if_neg hc, Utf8.encodeChars_cons, Utf8.encodeChars_nil, List.append_nil]
    refine readFrom_plain (fun b hb hquote => hc ?_) field rest line byte
    subst hquote
    exact Char.toNat_inj.1 (Utf8.plain_of_mem_utf8EncodeChar hb (by decide))

theorem readFrom_quotedChars (cs : List Char) (field rest : Bytes) (line byte : Nat) :
    ∃ line' byte',
      readFrom d cursor field fields (Utf8.encodeChars (cs.flatMap quotedChar) ++ rest) .inQuotes
          line byte =
        readFrom d cursor ((Utf8.encodeChars cs).reverse ++ field) fields rest .inQuotes
          line' byte' := by
  induction cs generalizing field line byte with
  | nil => exact ⟨line, byte, rfl⟩
  | cons c cs ih =>
    obtain ⟨line₁, byte₁, hfirst⟩ := readFrom_quotedChar c field
      (Utf8.encodeChars (cs.flatMap quotedChar) ++ rest) line byte
    obtain ⟨line₂, byte₂, hrest⟩ := ih ((String.utf8EncodeChar c).reverse ++ field) line₁ byte₁
    refine ⟨line₂, byte₂, ?_⟩
    rw [List.flatMap_cons, Utf8.encodeChars_append, List.append_assoc, hfirst, hrest,
      Utf8.encodeChars_cons, List.reverse_append, List.append_assoc]

/-- Where a field starts, one in quotes is read up to its last quote. -/
theorem readFrom_quotedField (hstart : move d state quote = .skip .inQuotes) (text : String)
    (rest : Bytes) (line byte : Nat) :
    ∃ line' byte',
      readFrom d cursor [] fields (Utf8.encodeChars (quotedField text) ++ rest) state line byte =
        readFrom d cursor (Utf8.encode text).reverse fields rest .afterQuote line' byte' := by
  have hquote : String.utf8EncodeChar '\x22' = [quote] := rfl
  have hend : move d .inQuotes quote = .skip .afterQuote := rfl
  obtain ⟨line', byte', hread⟩ :=
    @readFrom_quotedChars d cursor fields text.toList [] (quote :: rest) line (byte + 1)
  have hbytes : Utf8.encodeChars (quotedField text) ++ rest =
      quote :: (Utf8.encodeChars (text.toList.flatMap quotedChar) ++ quote :: rest) := by
    rw [quotedField, List.cons_append, Utf8.encodeChars_cons, Utf8.encodeChars_append,
      Utf8.encodeChars_cons, Utf8.encodeChars_nil, hquote]
    simp
  refine ⟨line', byte' + 1, ?_⟩
  rw [hbytes, readFrom_of_skip hstart]
  refine hread.trans ?_
  rw [readFrom_of_skip hend, List.append_nil, ← Utf8.encode_eq_encodeChars]
  rfl

end

section

variable {delimiter : Char}

/-- Different plain characters have different bytes. -/
theorem IsDelimiter.byte_ne (h : IsDelimiter delimiter) {c : Char} (hc : c.toNat < 0x80)
    (hne : delimiter ≠ c) : UInt8.ofNat delimiter.toNat ≠ UInt8.ofNat c.toNat := by
  intro heq
  rw [← UInt8.toNat_inj, Utf8.toNat_ofNat_of_lt (Nat.lt_trans h.ascii (by decide)),
    Utf8.toNat_ofNat_of_lt (Nat.lt_trans hc (by decide))] at heq
  exact hne (Char.toNat_inj.1 heq)

theorem IsDelimiter.move_afterQuote (h : IsDelimiter delimiter) :
    move (UInt8.ofNat delimiter.toNat) .afterQuote (UInt8.ofNat delimiter.toNat) = .endField := by
  have hquote : UInt8.ofNat delimiter.toNat ≠ quote := h.byte_ne (by decide) h.ne_quote
  rw [move, if_neg hquote, plainMove, if_pos rfl]

theorem IsDelimiter.move_lineFeed (h : IsDelimiter delimiter) :
    move (UInt8.ofNat delimiter.toNat) .afterQuote lineFeed = .endRecord .startRecord := by
  have hfeed : lineFeed ≠ UInt8.ofNat delimiter.toNat :=
    Ne.symm (h.byte_ne (by decide) h.ne_lineFeed)
  rw [move, if_neg (by decide), plainMove, if_neg hfeed]
  rfl

theorem intercalate_cons_eq_append_flatMap {α : Type} (sep : α) (first : List α)
    (rest : List (List α)) :
    [sep].intercalate (first :: rest) = first ++ rest.flatMap (sep :: ·) := by
  induction rest generalizing first with
  | nil => simp
  | cons second rest ih =>
    rw [List.intercalate_cons_cons, ih, List.flatMap_cons]
    simp

theorem quotedRow_cons (delimiter : Char) (text : String) (row : List String) :
    quotedRow delimiter (text :: row) =
      quotedField text ++ furtherFields delimiter row := by
  rw [quotedRow, List.map_cons, intercalate_cons_eq_append_flatMap, List.flatMap_map,
    List.append_assoc, furtherFields]

theorem furtherFields_cons (delimiter : Char) (text : String) (row : List String) :
    furtherFields delimiter (text :: row) =
      delimiter :: (quotedField text ++ furtherFields delimiter row) := by
  rw [furtherFields, List.flatMap_cons, List.cons_append, List.cons_append, List.append_assoc,
    ← furtherFields]

/-- After a field the others of its row are read, and then the row ends. -/
theorem readFrom_quotedFields (h : IsDelimiter delimiter) (cursor : Cursor) (row : List String)
    (field : Bytes) (fields : List Bytes) (rest : Bytes) (line byte : Nat) :
    ∃ line' byte',
      readFrom (UInt8.ofNat delimiter.toNat) cursor field fields
          (Utf8.encodeChars (furtherFields delimiter row) ++ rest) .afterQuote line byte =
        some (fields.reverse ++ field.reverse :: row.map Utf8.encode,
          ⟨rest, .startRecord, cursor.record + 1, line', byte'⟩) := by
  induction row generalizing field fields line byte with
  | nil =>
    have hfeed : Utf8.encodeChars (furtherFields delimiter []) = [lineFeed] := rfl
    refine ⟨line + 1, byte + 1, ?_⟩
    rw [hfeed, List.singleton_append, readFrom_of_endRecord h.move_lineFeed]
    simp
  | cons text row ih =>
    have hstart : move (UInt8.ofNat delimiter.toNat) .startField quote = .skip .inQuotes := rfl
    obtain ⟨line₁, byte₁, hfirst⟩ := @readFrom_quotedField (UInt8.ofNat delimiter.toNat) cursor
      (field.reverse :: fields) .startField hstart text
      (Utf8.encodeChars (furtherFields delimiter row) ++ rest)
      (if UInt8.ofNat delimiter.toNat = lineFeed then line + 1 else line) (byte + 1)
    obtain ⟨line₂, byte₂, hrest⟩ :=
      ih (Utf8.encode text).reverse (field.reverse :: fields) line₁ byte₁
    refine ⟨line₂, byte₂, ?_⟩
    rw [furtherFields_cons, Utf8.encodeChars_cons, Utf8.utf8EncodeChar_of_ascii h.ascii,
      List.append_assoc, List.singleton_append, Utf8.encodeChars_append, List.append_assoc,
      readFrom_of_endField h.move_afterQuote, hfirst, hrest]
    simp

theorem encodeChars_quotedRow (delimiter : Char) (text : String) (row : List String) :
    ∃ bytes, Utf8.encodeChars (quotedRow delimiter (text :: row)) = quote :: bytes := by
  rw [quotedRow_cons, quotedField, List.cons_append, List.cons_append, Utf8.encodeChars_cons]
  exact ⟨_, rfl⟩

/-- At the start of a row its fields are read, and what follows it is left. -/
theorem next?_quotedRow (h : IsDelimiter delimiter) {cursor : Cursor} {row : List String}
    {rest : Bytes} (hrow : row ≠ []) (hstate : cursor.state = .startRecord)
    (hleft : cursor.left = Utf8.encodeChars (quotedRow delimiter row) ++ rest) :
    ∃ after, next? (UInt8.ofNat delimiter.toNat) cursor = some (row.map Utf8.encode, after) ∧
      after.state = .startRecord ∧ after.left = rest := by
  obtain ⟨text, row, rfl⟩ := List.exists_cons_of_ne_nil hrow
  -- A table in quotes starts with a quote, and so with no byte order mark.
  have hmark : byteOrderMark.isPrefixOf cursor.left = false := by
    obtain ⟨bytes, hbytes⟩ := encodeChars_quotedRow delimiter text row
    rw [hleft, hbytes]
    rfl
  have hstart : move (UInt8.ofNat delimiter.toNat) .startRecord quote = .skip .inQuotes := rfl
  obtain ⟨line₁, byte₁, hfirst⟩ := @readFrom_quotedField (UInt8.ofNat delimiter.toNat) cursor []
    .startRecord hstart text
    (Utf8.encodeChars (furtherFields delimiter row) ++ rest) cursor.line cursor.byte
  obtain ⟨line₂, byte₂, hrest⟩ :=
    readFrom_quotedFields h cursor row (Utf8.encode text).reverse [] rest line₁ byte₁
  refine ⟨⟨rest, .startRecord, cursor.record + 1, line₂, byte₂⟩, ?_, rfl, rfl⟩
  rw [next?, hmark, Bool.and_false]
  rw [if_neg (by decide), List.drop_zero, hstate, hleft, quotedRow_cons, Utf8.encodeChars_append,
    List.append_assoc, Nat.add_zero, hfirst, hrest]
  simp

end

theorem texts_map_encode (index : Nat) (row : List String) :
    texts index (row.map Utf8.encode) = .ok row := by
  induction row generalizing index with
  | nil => rfl
  | cons text row ih => rw [List.map_cons, texts, Utf8.decode?_encode, ih]; rfl

/-- The bytes of a table in quotes, as far as a search for a key goes: the whole table, or its rows
up to one with the key and anything behind them. -/
inductive QuotedFor (delimiter : Char) (key : String) (rows : List (List String)) : Bytes → Prop
  | whole : QuotedFor delimiter key rows (Utf8.encodeChars (quotedTable delimiter rows))
  | upTo {before after : List (List String)} {row : List String} {rest : Bytes}
      (hrows : rows = before ++ row :: after) (hkey : row.head? = some key) :
      QuotedFor delimiter key rows
        (Utf8.encodeChars (quotedTable delimiter (before ++ [row])) ++ rest)

/-- The column of the first row whose first field is the key. -/
def cell? (key : String) (column : Nat) (rows : List (List String)) : Option String :=
  (rows.find? fun row => row.head? = some key).bind fun row => row[column]?

theorem searchFrom_quotedTable {delimiter : Char} (h : IsDelimiter delimiter) (key : String)
    (column : Nat) {rows : List (List String)} {rest : Bytes} (hrows : ∀ row ∈ rows, row ≠ [])
    (hrest : rest = [] ∨ ∃ row ∈ rows, row.head? = some key) {fuel : Nat}
    (hfuel : rows.length < fuel) {cursor : Cursor} (hstate : cursor.state = .startRecord)
    (hleft : cursor.left = Utf8.encodeChars (quotedTable delimiter rows) ++ rest) :
    searchFrom (UInt8.ofNat delimiter.toNat) key column fuel cursor =
      .ok (cell? key column rows) := by
  induction rows generalizing fuel cursor with
  | nil =>
    obtain ⟨more, rfl⟩ := Nat.exists_eq_succ_of_ne_zero (Nat.ne_of_gt hfuel)
    have hempty : cursor.left = [] := by
      rcases hrest with rfl | ⟨row, hrow, -⟩
      · exact hleft
      · exact absurd hrow List.not_mem_nil
    have hnone : next? (UInt8.ofNat delimiter.toNat) cursor = none := by
      rw [next?, hempty, hstate, List.drop_nil, readFrom]
    rw [searchFrom, hnone]
    rfl
  | cons row rows ih =>
    obtain ⟨more, rfl⟩ := Nat.exists_eq_succ_of_ne_zero (Nat.ne_of_gt (Nat.zero_lt_of_lt hfuel))
    obtain ⟨hrow, hothers⟩ := List.forall_mem_cons.1 hrows
    rw [quotedTable, List.flatMap_cons, Utf8.encodeChars_append, List.append_assoc,
      ← quotedTable] at hleft
    obtain ⟨after, hnext, hafter, hbehind⟩ := next?_quotedRow h hrow hstate hleft
    rw [searchFrom, hnext]
    dsimp only
    rw [texts_map_encode]
    dsimp only
    by_cases hkey : row.head? = some key
    · rw [if_pos hkey, cell?, List.find?_cons_of_pos (by simpa using hkey)]
      rfl
    · rw [if_neg hkey, cell?, List.find?_cons_of_neg (by simpa using hkey), ← cell?]
      refine ih hothers ?_ (Nat.lt_of_succ_lt_succ hfuel) hafter hbehind
      exact hrest.imp_right fun ⟨other, hother, hhead⟩ =>
        ⟨other, (List.mem_cons.1 hother).resolve_left (by rintro rfl; exact hkey hhead), hhead⟩

theorem length_le_quotedTable (delimiter : Char) {rows : List (List String)}
    (hrows : ∀ row ∈ rows, row ≠ []) :
    rows.length ≤ (Utf8.encodeChars (quotedTable delimiter rows)).length := by
  induction rows with
  | nil => exact Nat.zero_le _
  | cons row rows ih =>
    obtain ⟨hrow, hothers⟩ := List.forall_mem_cons.1 hrows
    obtain ⟨text, row, rfl⟩ := List.exists_cons_of_ne_nil hrow
    obtain ⟨bytes, hbytes⟩ := encodeChars_quotedRow delimiter text row
    have hrest := ih hothers
    rw [quotedTable, List.flatMap_cons, Utf8.encodeChars_append, hbytes, ← quotedTable]
    simp only [List.length_cons, List.length_append]
    omega

theorem search_quotedTable {delimiter : Char} (h : IsDelimiter delimiter) (key : String)
    (column : Nat) {rows : List (List String)} {rest : Bytes} (hrows : ∀ row ∈ rows, row ≠ [])
    (hrest : rest = [] ∨ ∃ row ∈ rows, row.head? = some key) :
    search (UInt8.ofNat delimiter.toNat) key column
        (Utf8.encodeChars (quotedTable delimiter rows) ++ rest) =
      .ok (cell? key column rows) := by
  refine searchFrom_quotedTable h key column hrows hrest ?_ rfl rfl
  have hlength := length_le_quotedTable delimiter hrows
  rw [List.length_append]
  omega

theorem cell?_append_of_head? (key : String) (column : Nat) (before after : List (List String))
    {row : List String} (h : row.head? = some key) :
    cell? key column (before ++ row :: after) = cell? key column (before ++ [row]) := by
  have hrow : decide (row.head? = some key) = true := by simpa using h
  simp only [cell?, List.find?_append, List.find?_cons, hrow]

/-- A search finds the column of the first row with the key, whatever follows that row. -/
theorem search_of_quotedFor {delimiter : Char} (h : IsDelimiter delimiter) {key : String}
    (column : Nat) {rows : List (List String)} (hrows : ∀ row ∈ rows, row ≠ []) {bytes : Bytes}
    (hbytes : QuotedFor delimiter key rows bytes) :
    search (UInt8.ofNat delimiter.toNat) key column bytes = .ok (cell? key column rows) := by
  cases hbytes with
  | whole =>
    rw [← List.append_nil (Utf8.encodeChars _)]
    exact search_quotedTable h key column hrows (.inl rfl)
  | @upTo before after row rest hsplit hkey =>
    subst hsplit
    have hupTo : ∀ other ∈ before ++ [row], other ≠ [] := by
      intro other hother
      apply hrows other
      rw [← List.singleton_append, ← List.append_assoc]
      exact List.mem_append_left after hother
    rw [cell?_append_of_head? key column before after hkey]
    exact search_quotedTable h key column hupTo (.inr ⟨row, by simp, hkey⟩)

end LookupEngine.Csv
