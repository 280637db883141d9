import LookupEngine.Machine.Fault
import LookupEngine.Text.Utf8
/-!
# Tables of separated values

Records of fields, read one at a time from bytes.  A field that starts with a quote goes
on to the next quote that stands alone; after it, and in every other field, quotes are
text.  A line feed or a carriage return ends a record, and empty lines are none.  The
line feed after a carriage return belongs to the record after it.
-/

namespace LookupEngine.Csv

/-- What the next byte is taken for. -/
inductive State where
  | startRecord
  | startField
  | inField
  | inQuotes
  /-- After a quote inside a quoted field. -/
  | afterQuote
  /-- After a carriage return that ended a record. -/
  | afterReturn
deriving Repr, DecidableEq

def quote : UInt8 := 0x22
def lineFeed : UInt8 := 0x0A
def carriageReturn : UInt8 := 0x0D

def endsRecord (b : UInt8) : Bool := b = lineFeed || b = carriageReturn

/-- What one byte does. -/
inductive Move where
  | skip (next : State)
  | copy (next : State)
  | endField
  | endRecord (next : State)
deriving Repr, DecidableEq

/-- The end of a record at `b`. -/
def finish (b : UInt8) : Move :=
  .endRecord (if b = carriageReturn then .afterReturn else .startRecord)

/-- A byte of a field that is not quoted. -/
def plainMove (delimiter b : UInt8) : Move :=
  if b = delimiter then .endField else if endsRecord b then finish b else .copy .inField

def fieldMove (delimiter b : UInt8) : Move :=
  if b = quote then .skip .inQuotes else plainMove delimiter b

def recordMove (delimiter b : UInt8) : Move :=
  if endsRecord b then .skip .startRecord else fieldMove delimiter b

def move (delimiter : UInt8) : State → UInt8 → Move
  | .startRecord, b => recordMove delimiter b
  | .startField, b => fieldMove delimiter b
  | .inField, b => plainMove delimiter b
  | .inQuotes, b => if b = quote then .skip .afterQuote else .copy .inQuotes
  | .afterQuote, b => if b = quote then .copy .inQuotes else plainMove delimiter b
  | .afterReturn, b => if b = lineFeed then .skip .startRecord else recordMove delimiter b

/-- A place between two records: what is left, and how much of what came before. -/
structure Cursor where
  left : Bytes
  state : State
  record : Nat
  line : Nat
  byte : Nat
deriving Repr, DecidableEq

def byteOrderMark : Bytes := [0xEF, 0xBB, 0xBF]

/-- The start of a table. -/
def start (bytes : Bytes) : Cursor := ⟨bytes, .startRecord, 0, 1, 0⟩

/-- Reads up to the end of a record.  `field` holds the bytes of the field that is being
read and `fields` the fields before it, both the latest first. -/
def readFrom (delimiter : UInt8) (cursor : Cursor) (field : Bytes) (fields : List Bytes) :
    Bytes → State → Nat → Nat → Option (List Bytes × Cursor)
  | [], state, line, byte =>
    match state with
    | .startRecord => none
    | .afterReturn => none
    | _ => some ((field.reverse :: fields).reverse, ⟨[], .startRecord, cursor.record + 1, line, byte⟩)
  | b :: rest, state, line, byte =>
    let line := if b = lineFeed then line + 1 else line
    match move delimiter state b with
    | .skip next => readFrom delimiter cursor field fields rest next line (byte + 1)
    | .copy next => readFrom delimiter cursor (b :: field) fields rest next line (byte + 1)
    | .endField =>
      readFrom delimiter cursor [] (field.reverse :: fields) rest .startField line (byte + 1)
    | .endRecord next =>
      some ((field.reverse :: fields).reverse, ⟨rest, next, cursor.record + 1, line, byte + 1⟩)

/-- The next record and the place after it.  A byte order mark at the start of the table is
not part of the first field. -/
def next? (delimiter : UInt8) (cursor : Cursor) : Option (List Bytes × Cursor) :=
  let mark := if cursor.byte = 0 && byteOrderMark.isPrefixOf cursor.left then 3 else 0
  readFrom delimiter cursor [] [] (cursor.left.drop mark) cursor.state cursor.line
    (cursor.byte + mark)

/-- Why a table cannot be searched. -/
inductive Problem where
  | unreadable (fault : Fault)
  /-- A field that is not text: where its record starts and where in the field it goes
  wrong. -/
  | notText (record line field byte index : Nat)
deriving Repr, DecidableEq

namespace Problem

def fieldMessage (field index : Nat) : String :=
  s!"invalid utf-8: invalid UTF-8 in field {field} near byte index {index}"

def message : Problem → String
  | unreadable fault => fault.message
  | notText record line field byte index =>
    s!"CSV parse error: record {record} (line {line}, field: {field}, byte: {byte}): " ++
      fieldMessage field index

/-- The texts of the causes beneath. -/
def causes : Problem → List String
  | unreadable fault => [fault.message]
  | notText _ _ field _ index => [fieldMessage field index]

end Problem

/-- The texts of some fields, or the number of the first that is none. -/
def texts (index : Nat) : List Bytes → Except (Nat × Nat) (List String)
  | [] => .ok []
  | field :: rest =>
    match Utf8.decode? field with
    | none => .error (index, Utf8.validLength field)
    | some text => (texts (index + 1) rest).map (text :: ·)

/-- The column of the first record whose first field is `key`.  A record takes at least one
byte, so fuel of the number of bytes and one more is enough. -/
def searchFrom (delimiter : UInt8) (key : String) (column : Nat) :
    Nat → Cursor → Except Problem (Option String)
  | 0, _ => .ok none
  | fuel + 1, cursor =>
    match next? delimiter cursor with
    | none => .ok none
    | some (fields, after) =>
      match texts 0 fields with
      | .error (field, index) =>
        .error (.notText cursor.record cursor.line field cursor.byte index)
      | .ok row =>
        if row.head? = some key then .ok row[column]?
        else searchFrom delimiter key column fuel after

/-- Searches a table for a key and gives another column of its record. -/
def search (delimiter : UInt8) (key : String) (column : Nat) (bytes : Bytes) :
    Except Problem (Option String) :=
  searchFrom delimiter key column (bytes.length + 1) (start bytes)

end LookupEngine.Csv
