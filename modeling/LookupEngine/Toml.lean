import LookupEngine.Settings.Document
import LookupEngine.Toml.Scalar
/-!
# TOML documents

A document is a list of statements, one a line: a key with its value, the name of a table, or
the name of an array of tables that grows by one.  Statements after the name of a table
belong to it.  A document that says something twice is refused.
-/

namespace LookupEngine.Toml

open Text (Scan)

/-- Containers, or keys of one path, stay below this number. -/
def deepest : Nat := 80

def spaces : Scan Unit := do
  let _ ← Scan.while_ isSpace

def comment : Scan Unit := do
  Scan.char '#'
  let _ ← Scan.while_ isShown

/-- Blanks, comments and line breaks. -/
def gap : Nat → Scan Unit
  | 0 => pure ()
  | fuel + 1 => do
    spaces
    let _ ← Scan.optional comment
    match ← Scan.optional newline with
    | some () => gap fuel
    | none => pure ()

def gaps : Scan Unit := do gap ((← Scan.rest).length + 1)

def isBareKeyChar (c : Char) : Bool := c.isAlphanum || c = '_' || c = '-'

/-- One key: a bare word or a string on one line. -/
def simpleKey : Scan String := do
  let fuel := (← Scan.rest).length + 1
  let key ← Scan.orElse (Scan.while1 isBareKeyChar) do
    let mark ← Scan.next
    if mark = quote then basicString fuel
    else if mark = '\x27' then literalString
    else Scan.fail
  pure (String.ofList key)

/-- The keys after a dot. -/
def furtherKeys : Nat → Scan (List String)
  | 0 => pure []
  | fuel + 1 => do
    spaces
    if ← Scan.char? '.' then
      spaces
      let key ← simpleKey
      return key :: (← furtherKeys fuel)
    else pure []

/-- A path of keys, the last one apart. -/
def keyPath : Scan (List String × String) := do
  spaces
  let first ← simpleKey
  let all := first :: (← furtherKeys (← Scan.rest).length)
  if all.length < deepest then pure (all.dropLast, all.getLastD first) else Scan.fail

/-- The tables of fields in braces do not grow later. -/
def close (fields : Fields) : Value := .table (fieldValues fields)

mutual

/-- A value, with `depth` more containers around it. -/
def value : Nat → Nat → Scan Value
  | 0, _ => Scan.fail
  | fuel + 1, depth => do
    match (← Scan.rest).head? with
    | some '\x22' => do pure (.string (← string))
    | some '\x27' => do pure (.string (← string))
    | some '[' => do
      Scan.char '['
      if depth + 1 < deepest then
        gaps
        pure (.array (← items fuel (depth + 1)))
      else Scan.fail
    | some '\x7b' => do
      Scan.char '\x7b'
      if depth + 1 < deepest then
        spaces
        if ← Scan.char? '\x7d' then pure (.table []) else pure (close (← pairs fuel (depth + 1) []))
      else Scan.fail
    | _ => bare

/-- The items of an array up to its end; a comma may stand after the last one. -/
def items : Nat → Nat → Scan (List Value)
  | 0, _ => Scan.fail
  | fuel + 1, depth => do
    if ← Scan.char? ']' then pure []
    else
      let item ← value fuel depth
      gaps
      if ← Scan.char? ',' then
        gaps
        return item :: (← items fuel depth)
      else
        Scan.char ']'
        pure [item]

/-- The pairs in braces, all on one line. -/
def pairs : Nat → Nat → Fields → Scan Fields
  | 0, _, _ => Scan.fail
  | fuel + 1, depth, fields => do
    let (path, key) ← keyPath
    Scan.char '='
    spaces
    let item ← value fuel depth
    spaces
    match assign? path key (.value item) fields with
    | none => Scan.fail
    | some fields =>
      if ← Scan.char? ',' then pairs fuel depth fields
      else
        Scan.char '\x7d'
        pure fields

end

/-- What is left of a line. -/
def lineEnd : Scan Unit := do
  spaces
  let _ ← Scan.optional comment
  if (← Scan.rest).isEmpty then pure () else newline

/-- A document as far as it is read: its fields, and the table that statements belong to. -/
structure Progress where
  fields : Fields
  table : List String

def Progress.start : Progress := ⟨[], []⟩

def ofOption (result : Option Fields) (table : List String) : Scan Progress :=
  match result with
  | some fields => pure ⟨fields, table⟩
  | none => Scan.fail

/-- The name of a table or of an array of tables. -/
def header (progress : Progress) : Scan Progress := do
  Scan.char '['
  if ← Scan.char? '[' then
    let (path, key) ← keyPath
    Scan.word "]]"
    lineEnd
    ofOption (appendTable? path key progress.fields) (path ++ [key])
  else
    let (path, key) ← keyPath
    Scan.char ']'
    lineEnd
    ofOption (openTable? path key progress.fields) (path ++ [key])

/-- A key with its value. -/
def pair (progress : Progress) : Scan Progress := do
  let fuel := 2 * (← Scan.rest).length + 2
  let (path, key) ← keyPath
  Scan.char '='
  spaces
  let item ← value fuel 0
  lineEnd
  ofOption (within? (assign? path key (.value item)) progress.table progress.fields) progress.table

/-- The statements of a document.  Each takes at least one character. -/
def statements : Nat → Progress → Scan Progress
  | 0, progress => pure progress
  | fuel + 1, progress => do
    gaps
    match (← Scan.rest).head? with
    | none => pure progress
    | some '[' => do statements fuel (← header progress)
    | some _ => do statements fuel (← pair progress)

def byteOrderMark : Char := Char.ofNat 0xFEFF

/-- Reads a document. -/
def parse? (text : String) : Option Value :=
  let cs := match text.toList with
    | c :: rest => if c = byteOrderMark then rest else c :: rest
    | [] => []
  (Scan.all? (statements (cs.length + 1) .start) cs).map fun progress => close progress.fields

/-- Records of TOML; of an array only as many items count as there are names. -/
instance : Document Value where
  record? names
    | .table fields => Record.pick? names fields
    | .array items => some (Record.inOrder names items)
    | _ => none
  natural?
    | .integer n => if 0 ≤ n then some n.toNat else none
    | _ => none
  flag?
    | .boolean b => some b
    | _ => none
  text?
    | .string s => some s
    | _ => none
  optionalText?
    | .string s => some (some s)
    | _ => none

end LookupEngine.Toml
