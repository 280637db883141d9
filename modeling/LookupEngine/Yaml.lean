import LookupEngine.Settings.Document
import LookupEngine.Yaml.Node
/-!
# YAML documents

A text holds one document, which may be announced by directives and a line `---` and ended by
a line `...`.  A text of comments alone holds an empty one.  How a scalar reads depends on who
asks: every scalar is a text, and only a plain one is a number, a truth value or nothing,
unless a tag says so of a block of lines.
-/

namespace LookupEngine.Yaml

/-- Whether a line is a directive that is understood. -/
def isDirective (line : List Char) : Bool :=
  let words := (Text.splitAny isBlank line).filter fun word => !word.isEmpty
  match words.map String.ofList with
  | "%YAML" :: version :: _ => version = "1.1" || version = "1.2"
  | ["%TAG", _, _] => true
  | _ => false

/-- Passes over directives and gaps, and tells whether there were directives. -/
def directives? : Nat → Bool → Cursor → Option (Bool × Cursor)
  | 0, _, _ => none
  | fuel + 1, found, cursor =>
    let (_, cursor) := cursor.gap true
    if cursor.column = 0 && cursor.peek? = some '%' then
      if isDirective (cursor.rest.takeWhile fun c => !isBreak c) then
        directives? fuel true cursor.skipLine
      else none
    else some (found, cursor)

/-- Passes over the ends of documents; nothing else may follow. -/
def finish? : Nat → Cursor → Option Unit
  | 0, _ => none
  | fuel + 1, cursor =>
    let (_, cursor) := cursor.gap true
    if cursor.atEnd then some ()
    else if cursor.column = 0 && cursor.isAt "..." then finish? fuel (cursor.advance 3)
    else none

/-- Reads the only document of a text. -/
def document? (cs : List Char) : Option Node :=
  let fuel := 4 * cs.length + 8
  match directives? (cs.length + 1) false (Cursor.start cs) with
  | none => none
  | some (announced, cursor) =>
    if cursor.atEnd then if announced then none else some .nothing
    else
      let explicit := cursor.column = 0 && cursor.isAt "---"
      if (announced && !explicit) || (!explicit && cursor.atMarker) then none
      else
        match blockNode? fuel 0 (!explicit) false [] (if explicit then cursor.advance 3 else cursor) with
        | none => none
        | some (node, _, after) => (finish? (after.rest.length + 1) after).map fun _ => node

def byteOrderMark : Char := Char.ofNat 0xFEFF

/-- Reads a text. -/
def parse? (text : String) : Option Node :=
  let cs := match text.toList with
    | c :: rest => if c = byteOrderMark then rest else c :: rest
    | [] => []
  if cs.all isPrintable then document? cs else none

/-- An unsigned number: decimal without leading zeros, or in the base of its mark. -/
def natural? (text : String) : Option Nat :=
  let unsigned := match text.toList with
    | '+' :: rest => rest
    | rest => rest
  let found := match unsigned with
    | '0' :: 'x' :: digits => Digits.read? 16 digits
    | '0' :: 'o' :: digits => Digits.read? 8 digits
    | '0' :: 'b' :: digits => Digits.read? 2 digits
    | '0' :: _ :: _ => none
    | digits => Digits.read? 10 digits
  found.filter (· ≤ Integer.greatestUnsigned)

def flag? (text : String) : Option Bool :=
  if ["true", "True", "TRUE"].contains text then some true
  else if ["false", "False", "FALSE"].contains text then some false
  else none

def isNull (text : String) : Bool := ["", "~", "null", "Null", "NULL"].contains text

/-- The scalars that count as keys of a record. -/
def Node.text? : Node → Option String
  | .scalar _ _ text => some text
  | _ => none

/-- Whether a scalar is read by its form, as one of the kind that `name` stands for. -/
def readsAs (name : String) (tag : Option String) : Style → Bool
  | .plain => true
  | .literal => tag = some (standardTag name)
  | _ => false

/-- A text, or nothing.  What its tag calls nothing has to be written like that. -/
def optionalText? : Node → Option (Option String)
  | .scalar tag .plain text =>
    if tag = some (standardTag "null") then
      if isNull text && !text.isEmpty then some none else none
    else if tag.isNone && isNull text then some none
    else some (some text)
  | .scalar _ _ text => some (some text)
  | _ => none

/-- Records of YAML.  An empty node is a record without fields. -/
instance : Document Node where
  record? names
    | .mapping pairs =>
      (pairs.mapM fun (pair : Node × Node) => pair.1.text?.map fun key => (key, pair.2)).bind
        (Record.pick? names)
    | .scalar _ .plain "" => some (names.map fun _ => none)
    | _ => none
  natural?
    | .scalar tag style text => if readsAs "int" tag style then natural? text else none
    | _ => none
  flag?
    | .scalar tag style text => if readsAs "bool" tag style then flag? text else none
    | _ => none
  text? := Node.text?
  optionalText? := optionalText?

end LookupEngine.Yaml
