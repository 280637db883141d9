import LookupEngine.Json.Printer
import LookupEngine.Text.Blank
import LookupEngine.Text.Split
/-!
# Options

The loosely typed options of a lookup.  Asking for an option of one type never fails:
a missing option, or one of a shape that does not read as the type, gives nothing, and
whoever asked falls back to a default.
-/

namespace LookupEngine

abbrev Options := Entries Value

/-- The spellings of a truth value. -/
def Flag.ofWord? (word : String) : Option Bool :=
  if ["true", "yes", "1", "on"].contains word then some true
  else if ["false", "no", "0", "off"].contains word then some false
  else none

/-- Reads a truth value in any case, without the blanks around it. -/
def Flag.parse? (text : String) : Option Bool := Flag.ofWord? (Text.lowerAscii (Text.trim text))

namespace Options

/-- The text of a scalar. -/
def scalarText? (v : Value) : Option String := if v.isScalar then some v.toText else none

def text? (options : Options) (key : String) : Option String :=
  (options.find? key).bind scalarText?

/-- The truth value of an option: a spelling of one, or an integer that may be zero. -/
def flag? (options : Options) (key : String) : Option Bool :=
  match options.find? key with
  | some (.bool b) => some b
  | some (.string s) => Flag.parse? s
  | some (.number n) => n.signed?.map fun n => n != 0
  | _ => none

def flagOr (options : Options) (key : String) (otherwise : Bool) : Bool :=
  (options.flag? key).getD otherwise

/-- The signed word of an option, given as a number or as a numeral. -/
def integer? (options : Options) (key : String) : Option Int :=
  match options.find? key with
  | some (.number n) => n.signed?
  | some (.string s) => Integer.read? s
  | _ => none

def natural? (options : Options) (key : String) : Option Nat :=
  (options.integer? key).bind fun n => if 0 ≤ n then some n.toNat else none

/-- The items of a text: what stands between commas and semicolons, unless it is blank. -/
def itemsOfText (text : String) : List String :=
  ((Text.splitAny (fun c => c = ',' || c = ';') text.toList).map Text.trimChars).filterMap
    fun item => if item.isEmpty then none else some (String.ofList item)

/-- The scalars of an array, or the items of a text. -/
def list? (options : Options) (key : String) : Option (List String) :=
  match options.find? key with
  | some (.array items) => some (items.filterMap scalarText?)
  | some (.string s) => some (itemsOfText s)
  | _ => none

/-- A key and a value around the first colon, unless the key is blank. -/
def pairOfText? (text : List Char) : Option (String × String) :=
  match Text.splitOnce ':' text with
  | none => none
  | some (key, value) =>
    let key := Text.trimChars key
    if key.isEmpty then none
    else some (String.ofList key, String.ofList (Text.trimChars value))

/-- The scalar fields of an object, or the pairs of a text between its commas. -/
def pairs? (options : Options) (key : String) : Option (List (String × String)) :=
  match options.find? key with
  | some (.object fields) =>
    some (fields.filterMap fun (key, value) => (scalarText? value).map fun text => (key, text))
  | some (.string s) => some ((Text.splitAny (· = ',') s.toList).filterMap pairOfText?)
  | _ => none

end Options

end LookupEngine
