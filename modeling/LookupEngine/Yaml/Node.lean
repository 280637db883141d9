import LookupEngine.Text.Entries
import LookupEngine.Yaml.Scalar
/-!
# YAML nodes

A node is a scalar, a sequence or a mapping.  Nodes in brackets are read without regard to
columns; all others form blocks, in which what belongs together starts in one column.  A node
that has been given a name stands wherever the name is used later.
-/

namespace LookupEngine.Yaml

/-- How a scalar is written. -/
inductive Style where
  | plain
  | quoted
  | literal
  | folded
deriving Repr, DecidableEq

inductive Node where
  | scalar (tag : Option String) (style : Style) (text : String)
  | sequence (items : List Node)
  | mapping (pairs : List (Node × Node))
deriving Repr

/-- The names given so far, the latest first. -/
abbrev Names := List (String × Node)

/-- The node where nothing is written. -/
def Node.nothing : Node := .scalar none .plain ""

/-- What stands in front of a node: its tag and its name. -/
structure Properties where
  tag : Option String
  name : Option String

namespace Properties

def none : Properties := ⟨Option.none, Option.none⟩

def isEmpty (properties : Properties) : Bool :=
  properties.tag.isNone && properties.name.isNone

/-- Gives a scalar its tag. -/
def tagged (properties : Properties) : Node → Node
  | .scalar tag style text => .scalar (properties.tag.or tag) style text
  | node => node

/-- Gives a node its tag and its name. -/
def apply (properties : Properties) (names : Names) (node : Node) : Node × Names :=
  let node := properties.tagged node
  match properties.name with
  | some name => (node, (name, node) :: names)
  | Option.none => (node, names)

end Properties

def isNameChar (c : Char) : Bool := c.isAlphanum || c = '_' || c = '-'

/-- Whether a name may end in front of the text. -/
def endsName : List Char → Bool
  | [] => true
  | c :: _ =>
    isBlank c || isBreak c || ['?', ':', ',', ']', '\x7d', '%', '@', '\x60'].contains c

/-- Reads the name after its mark. -/
def name? (cursor : Cursor) : Option (String × Cursor) :=
  let found := cursor.rest.takeWhile isNameChar
  let next := cursor.advance found.length
  if found.isEmpty || !endsName next.rest then none else some (String.ofList found, next)

def isTagChar (c : Char) : Bool :=
  isNameChar c || [';', '/', '?', ':', '@', '&', '=', '+', '$', '.', '%', '!', '~', '*', '\x27', '(', ')'].contains c

/-- The tags that `!!` stands in front of. -/
def standardTag (name : String) : String := "tag:yaml.org,2002:" ++ name

/-- Reads the tag after its mark. -/
def tag? (flow : Bool) (cursor : Cursor) : Option (String × Cursor) :=
  let finish (tag : String) (next : Cursor) : Option (String × Cursor) :=
    if endsWord next.rest || (flow && next.peek? = some ',') then some (tag, next) else none
  match cursor.rest with
  | '<' :: rest =>
    let found := rest.takeWhile fun c => isTagChar c || [',', '[', ']'].contains c
    let next := cursor.advance (found.length + 1)
    if next.peek? = some '>' && !found.isEmpty then finish (String.ofList found) (next.advance 1) else none
  | '!' :: rest =>
    let found := rest.takeWhile isTagChar
    if found.isEmpty then none
    else finish (standardTag (String.ofList found)) (cursor.advance (found.length + 1))
  | rest =>
    let found := rest.takeWhile isTagChar
    if found.contains '!' then none
    else finish ("!" ++ String.ofList found) (cursor.advance found.length)

/-- Reads tag and name in either order. -/
def properties? (flow : Bool) : Nat → Properties → Cursor → Option (Properties × Cursor)
  | 0, properties, cursor => some (properties, cursor)
  | fuel + 1, properties, cursor =>
    let next := if properties.isEmpty then cursor else cursor.skipBlanks
    match next.peek? with
    | some '&' =>
      if properties.name.isSome then none
      else (name? (next.advance 1)).bind fun (name, after) =>
        properties? flow fuel { properties with name } after
    | some '!' =>
      if properties.tag.isSome then none
      else (tag? flow (next.advance 1)).bind fun (tag, after) =>
        properties? flow fuel { properties with tag } after
    | _ => some (properties, cursor)

/-- Reads a scalar that is not a block. -/
def scalar? (flow : Bool) (indent : Nat) (cursor : Cursor) : Option (Node × Cursor) :=
  let fuel := cursor.rest.length + 1
  match cursor.peek? with
  | some '\x27' => (singleQuoted? fuel (cursor.advance 1) []).map fun (cs, next) =>
      (.scalar none .quoted (String.ofList cs), next)
  | some '\x22' => (doubleQuoted? fuel (cursor.advance 1) []).map fun (cs, next) =>
      (.scalar none .quoted (String.ofList cs), next)
  | _ => (plain? flow indent cursor).map fun (cs, next) =>
      (.scalar none .plain (String.ofList cs), next)

/-- Whether two places are in one line. -/
def sameLine (before after : Cursor) : Bool :=
  !((before.rest.take (before.rest.length - after.rest.length)).any isBreak)

/-- The place behind a colon that makes what stands in front of it a key. -/
def colon? (before after : Cursor) : Option Cursor :=
  let next := after.skipBlanks
  match next.rest with
  | ':' :: rest => if endsWord rest && sameLine before next then some (next.advance 1) else none
  | _ => none

/-- The place behind a colon in brackets. -/
def flowColon? (before after : Cursor) : Option Cursor :=
  let next := after.flowGap
  match next.rest with
  | ':' :: _ => if sameLine before next then some (next.advance 1) else none
  | _ => none

mutual

/-- Reads a node in brackets, or nothing in front of one of their marks. -/
def flowNode? : Nat → Names → Cursor → Option (Node × Names × Cursor)
  | 0, _, _ => none
  | fuel + 1, names, cursor =>
    match properties? true 2 .none cursor with
    | none => none
    | some (properties, after) =>
      let next := if properties.isEmpty then after else after.flowGap
      match next.peek? with
      | some '*' =>
        if properties.isEmpty then
          (name? (next.advance 1)).bind fun (name, after) =>
            (names.lookup name).map fun node => (node, names, after)
        else none
      | some '[' =>
        (flowItems? fuel names (next.advance 1) []).map fun (items, names, after) =>
          let (node, names) := properties.apply names (.sequence items)
          (node, names, after)
      | some '\x7b' =>
        (flowPairs? fuel names (next.advance 1) []).map fun (pairs, names, after) =>
          let (node, names) := properties.apply names (.mapping pairs)
          (node, names, after)
      | some c =>
        if c = ',' || c = ']' || c = '\x7d' || c = ':' then
          let (node, names) := properties.apply names .nothing
          some (node, names, next)
        else
          (scalar? true 0 next).map fun (node, after) =>
            let (node, names) := properties.apply names node
            (node, names, after)
      | none => none

/-- Reads what follows a key in brackets. -/
def flowValue? : Nat → Names → Cursor → Cursor → Option (Option Node × Names × Cursor)
  | 0, _, _, _ => none
  | fuel + 1, names, before, after =>
    match flowColon? before after with
    | none => some (none, names, after)
    | some next =>
      (flowNode? fuel names next.flowGap).map fun (node, names, after) => (some node, names, after)

/-- Reads the items between square brackets.  A key with a value is a mapping of its own. -/
def flowItems? : Nat → Names → Cursor → List Node → Option (List Node × Names × Cursor)
  | 0, _, _, _ => none
  | fuel + 1, names, cursor, done =>
    let start := cursor.flowGap
    if start.peek? = some ']' then some (done.reverse, names, start.advance 1)
    else if start.peek? = some ',' then none
    else
      let explicit := start.peek? = some '?'
      let start := if explicit then (start.advance 1).flowGap else start
      match flowNode? fuel names start with
      | none => none
      | some (key, names, after) =>
        match flowValue? fuel names start after with
        | none => none
        | some (value, names, after) =>
          let item := match value with
            | some value => .mapping [(key, value)]
            | none => if explicit then .mapping [(key, .nothing)] else key
          let next := after.flowGap
          match next.peek? with
          | some ',' => flowItems? fuel names (next.advance 1) (item :: done)
          | some ']' => some ((item :: done).reverse, names, next.advance 1)
          | _ => none

/-- Reads the pairs between braces. -/
def flowPairs? : Nat → Names → Cursor → List (Node × Node) →
    Option (List (Node × Node) × Names × Cursor)
  | 0, _, _, _ => none
  | fuel + 1, names, cursor, done =>
    let start := cursor.flowGap
    if start.peek? = some '\x7d' then some (done.reverse, names, start.advance 1)
    else if start.peek? = some ',' then none
    else
      let start := if start.peek? = some '?' then (start.advance 1).flowGap else start
      match flowNode? fuel names start with
      | none => none
      | some (key, names, after) =>
        match flowValue? fuel names start after with
        | none => none
        | some (value, names, after) =>
          let pair := (key, value.getD .nothing)
          let next := after.flowGap
          match next.peek? with
          | some ',' => flowPairs? fuel names (next.advance 1) (pair :: done)
          | some '\x7d' => some ((pair :: done).reverse, names, next.advance 1)
          | _ => none

end

/-- Reads a name that is used, brackets, or a scalar, in a block whose parts are indented by
at least `indent`. -/
def inline? (names : Names) (indent : Nat) (cursor : Cursor) : Option (Node × Names × Cursor) :=
  match cursor.peek? with
  | some '*' =>
    (name? (cursor.advance 1)).bind fun (name, after) =>
      (names.lookup name).map fun node => (node, names, after)
  | some '[' => flowNode? (2 * cursor.rest.length + 2) names cursor
  | some '\x7b' => flowNode? (2 * cursor.rest.length + 2) names cursor
  | _ => (scalar? false indent cursor).map fun (node, after) => (node, names, after)

/-- Whether a word of one character stands here. -/
def isMark (c : Char) (cursor : Cursor) : Bool :=
  match cursor.rest with
  | d :: rest => d = c && endsWord rest
  | [] => false

/-- What is read at a place: a key with the place behind its colon, or a node. -/
inductive Found where
  | key (node : Node) (behind : Cursor)
  | node (node : Node)

mutual

/-- Reads a node of a block whose parts start beyond column `indent`, counted from one.  `keys`
tells whether a key may start here, and `aligned` whether a sequence may start in the column
of the block itself. -/
def blockNode? : Nat → Nat → Bool → Bool → Names → Cursor → Option (Node × Names × Cursor)
  | 0, _, _, _, _, _ => none
  | fuel + 1, indent, keys, aligned, names, cursor =>
    let (keys, start) := cursor.gap keys
    if start.atEnd || start.atMarker then some (.nothing, names, start)
    else if aligned && isMark '-' start && start.column + 1 = indent then
      if keys then (blockItems? fuel indent names start []).map fun (items, names, after) =>
        (.sequence items, names, after)
      else none
    else if start.column < indent then some (.nothing, names, start)
    else if isMark '-' start then
      if keys then
        (blockItems? fuel (start.column + 1) names start []).bind fun (items, names, after) =>
          if after.column > start.column && !after.atEnd then none
          else if after.column = start.column && !after.atEnd && !after.atMarker then none
          else some (.sequence items, names, after)
      else none
    else if isMark '?' start || isMark ':' start then
      if keys then blockMapping? fuel (start.column + 1) names start [] else none
    else if start.peek? = some '|' then
      (block? true indent (start.advance 1)).map fun (cs, after) =>
        (.scalar none .literal (String.ofList cs), names, after)
    else if start.peek? = some '>' then
      (block? false indent (start.advance 1)).map fun (cs, after) =>
        (.scalar none .folded (String.ofList cs), names, after)
    else
      match properties? false 2 .none start with
      | none => none
      | some (properties, after) =>
        let (crossed, next) := after.gap false
        if !properties.isEmpty && (crossed || next.atEnd || ['|', '>'].any (next.peek? = some ·)) then
          (blockNode? fuel indent crossed aligned names next).map fun (node, names, after) =>
            let (node, names) := properties.apply names node
            (node, names, after)
        else
          match inline? names indent (if properties.isEmpty then start else next) with
          | none => none
          | some (node, names, after) =>
            match colon? start after with
            | some _ => if keys then blockMapping? fuel (start.column + 1) names start [] else none
            | none =>
              let (node, names) := properties.apply names node
              some (node, names, (after.gap false).2)

/-- Reads the items of a sequence in the column before `column`. -/
def blockItems? : Nat → Nat → Names → Cursor → List Node → Option (List Node × Names × Cursor)
  | 0, _, _, _, _ => none
  | fuel + 1, column, names, cursor, done =>
    if cursor.column + 1 = column && isMark '-' cursor then
      match blockNode? fuel column true false names (cursor.advance 1) with
      | none => none
      | some (item, names, after) =>
        blockItems? fuel column names (after.gap false).2 (item :: done)
    else some (done.reverse, names, cursor)

/-- Reads the pairs of a mapping in the column before `column`. -/
def blockMapping? : Nat → Nat → Names → Cursor → List (Node × Node) →
    Option (Node × Names × Cursor)
  | 0, _, _, _, _ => none
  | fuel + 1, column, names, cursor, done =>
    if cursor.atEnd || cursor.atMarker || cursor.column + 1 < column then
      some (.mapping done.reverse, names, cursor)
    else if cursor.column + 1 > column then none
    else if isMark '?' cursor then
      match blockNode? fuel column true true names (cursor.advance 1) with
      | none => none
      | some (key, names, after) =>
        let next := (after.gap false).2
        if next.column + 1 = column && isMark ':' next then
          match blockNode? fuel column true true names (next.advance 1) with
          | none => none
          | some (value, names, after) =>
            blockMapping? fuel column names (after.gap false).2 ((key, value) :: done)
        else blockMapping? fuel column names next ((key, .nothing) :: done)
    else if isMark ':' cursor then
      match blockNode? fuel column true true names (cursor.advance 1) with
      | none => none
      | some (value, names, after) =>
        blockMapping? fuel column names (after.gap false).2 ((.nothing, value) :: done)
    else
      match properties? false 2 .none cursor with
      | none => none
      | some (properties, after) =>
        let start := if properties.isEmpty then cursor else after.skipBlanks
        match inline? names column start with
        | none => none
        | some (key, names, after) =>
          match colon? cursor after with
          | none => none
          | some behind =>
            let (key, names) := properties.apply names key
            match blockNode? fuel column false true names behind with
            | none => none
            | some (value, names, after) =>
              blockMapping? fuel column names (after.gap false).2 ((key, value) :: done)

end

end LookupEngine.Yaml
