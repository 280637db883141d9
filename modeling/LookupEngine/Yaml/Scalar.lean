import LookupEngine.Yaml.Cursor
/-!
# YAML scalars

A scalar is plain, in single or double quotes, or a block of lines.  A plain scalar or one in
quotes may go on over several lines, which are folded: a single line break is a blank, and of
several all but the first are kept.
-/

namespace LookupEngine.Yaml

/-- What a gap inside of a scalar folds to: the breaks after the first, or a blank. -/
def fold (breaks : List Char) : List Char :=
  match breaks with
  | [] => []
  | '\n' :: [] => [' ']
  | '\n' :: more => more
  | all => all

/-- Passes over blanks and line breaks inside of a scalar.  Gives the blanks, if there is no
line break, and the line breaks.  No tab may stand in the first `indent` columns of a line. -/
def innerGap? (indent : Nat) : Nat → Cursor → List Char → Option (List Char × List Char × Cursor)
  | 0, _, _ => none
  | fuel + 1, cursor, breaks =>
    let blanks := cursor.rest.takeWhile isBlank
    if !breaks.isEmpty && (blanks.take indent).contains '\t' then none
    else
      let cursor := cursor.skipBlanks
      match cursor.lineBreak? with
      | some (c, cursor) => innerGap? indent fuel cursor (breaks ++ [c])
      | none => some (if breaks.isEmpty then blanks else [], breaks, cursor)

def isFlowMark (c : Char) : Bool := [',', '[', ']', '\x7b', '\x7d'].contains c

/-- Whether a plain scalar ends in front of a colon or a mark of the brackets around it. -/
def endsPlain (flow : Bool) : List Char → Bool
  | [] => true
  | ':' :: rest => endsWord rest
  | c :: _ => isBlank c || isBreak c || (flow && isFlowMark c)

/-- The characters of a plain scalar up to a blank.  Brackets take no colon in front of one of
their marks. -/
def plainRun? (flow : Bool) : Nat → Cursor → List Char → Option (List Char × Cursor)
  | 0, _, _ => none
  | fuel + 1, cursor, found =>
    if endsPlain flow cursor.rest then some (found.reverse, cursor)
    else
      match cursor.rest with
      | ':' :: c :: _ =>
        if flow && (isFlowMark c || c = '?') then none
        else plainRun? flow fuel (cursor.advance 1) (':' :: found)
      | c :: _ => plainRun? flow fuel (cursor.advance 1) (c :: found)
      | [] => none

/-- Reads the rest of a plain scalar behind a gap.  Outside of brackets a further line has to
be indented by at least `indent`. -/
def plainRest? (flow : Bool) (indent : Nat) : Nat → Cursor → List Char → Option (List Char × Cursor)
  | 0, _, _ => none
  | fuel + 1, cursor, found =>
    match innerGap? indent (cursor.rest.length + 1) cursor [] with
    | none => none
    | some (blanks, breaks, next) =>
      let indented := flow || breaks.isEmpty || next.column ≥ indent
      if (blanks.isEmpty && breaks.isEmpty) || next.atMarker || next.peek? = some '#' ||
          !indented || endsPlain flow next.rest then
        some (found, cursor)
      else
        match plainRun? flow (next.rest.length + 1) next [] with
        | none => none
        | some (run, cursor) =>
          plainRest? flow indent fuel cursor (found ++ blanks ++ fold breaks ++ run)

/-- Whether a plain scalar can start here. -/
def startsPlain (flow : Bool) : List Char → Bool
  | [] => false
  | '-' :: rest => !(match rest with | [] => true | c :: _ => isBlank c || isBreak c)
  | c :: rest =>
    if c = '?' || c = ':' then !flow && !endsWord rest
    else
      !(isBlank c || isBreak c ||
        [',', '[', ']', '\x7b', '\x7d', '#', '&', '*', '!', '|', '>', '\x27', '\x22', '%', '@', '\x60'].contains c)

/-- Reads a plain scalar. -/
def plain? (flow : Bool) (indent : Nat) (cursor : Cursor) : Option (List Char × Cursor) :=
  if startsPlain flow cursor.rest then
    match plainRun? flow (cursor.rest.length + 1) cursor [] with
    | none => none
    | some (run, next) => plainRest? flow indent (next.rest.length + 1) next run
  else none

/-- Reads a gap inside of quotes, where no document may start. -/
def quotedGap? (cursor : Cursor) : Option (List Char × Cursor) :=
  match innerGap? 0 (cursor.rest.length + 1) cursor [] with
  | none => none
  | some (blanks, breaks, next) =>
    if next.atMarker then none else some (blanks ++ fold breaks, next)

/-- Reads the rest of a scalar in single quotes, in which a quote is written twice. -/
def singleQuoted? : Nat → Cursor → List Char → Option (List Char × Cursor)
  | 0, _, _ => none
  | fuel + 1, cursor, found =>
    match cursor.rest with
    | [] => none
    | '\x27' :: '\x27' :: _ => singleQuoted? fuel (cursor.advance 2) ('\x27' :: found)
    | '\x27' :: _ => some (found.reverse, cursor.advance 1)
    | c :: _ =>
      if isBlank c || isBreak c then
        match quotedGap? cursor with
        | none => none
        | some (folded, next) => singleQuoted? fuel next (folded.reverse ++ found)
      else singleQuoted? fuel (cursor.advance 1) (c :: found)

/-- The character that a letter after a backslash stands for. -/
def escape? : Char → Option Char
  | '0' => some (Char.ofNat 0)
  | 'a' => some '\x07'
  | 'b' => some '\x08'
  | 't' => some '\t'
  | '\t' => some '\t'
  | 'n' => some '\n'
  | 'v' => some '\x0b'
  | 'f' => some '\x0c'
  | 'r' => some '\r'
  | 'e' => some '\x1b'
  | ' ' => some ' '
  | '\x22' => some '\x22'
  | '/' => some '/'
  | '\\' => some '\\'
  | 'N' => some (Char.ofNat 0x85)
  | '_' => some (Char.ofNat 0xA0)
  | 'L' => some (Char.ofNat 0x2028)
  | 'P' => some (Char.ofNat 0x2029)
  | _ => none

/-- How many hexadecimal digits follow a letter after a backslash. -/
def codeLength? : Char → Option Nat
  | 'x' => some 2
  | 'u' => some 4
  | 'U' => some 8
  | _ => none

/-- The character of a code point in `n` hexadecimal digits. -/
def code? (n : Nat) (cs : List Char) : Option Char :=
  let digits := cs.take n
  if digits.length = n ∧ digits.all (Digits.isDigitOf 16) then
    let code := Digits.value 16 digits
    if code ≤ 0x10FFFF ∧ ¬(0xD800 ≤ code ∧ code ≤ 0xDFFF) then some (Char.ofNat code) else none
  else none

/-- Reads the rest of a scalar in double quotes. -/
def doubleQuoted? : Nat → Cursor → List Char → Option (List Char × Cursor)
  | 0, _, _ => none
  | fuel + 1, cursor, found =>
    match cursor.rest with
    | [] => none
    | '\x22' :: _ => some (found.reverse, cursor.advance 1)
    | ['\\'] => none
    | '\\' :: c :: rest =>
      if isBreak c then
        match (cursor.advance 1).lineBreak? with
        | none => none
        | some (_, next) =>
          match innerGap? 0 (next.rest.length + 1) next [] with
          | none => none
          | some (_, breaks, next) =>
            if next.atMarker then none else doubleQuoted? fuel next (breaks.reverse ++ found)
      else
        match escape? c, codeLength? c with
        | some e, _ => doubleQuoted? fuel (cursor.advance 2) (e :: found)
        | none, some n =>
          match code? n rest with
          | some e => doubleQuoted? fuel (cursor.advance (2 + n)) (e :: found)
          | none => none
        | none, none => none
    | c :: _ =>
      if isBlank c || isBreak c then
        match quotedGap? cursor with
        | none => none
        | some (folded, next) => doubleQuoted? fuel next (folded.reverse ++ found)
      else doubleQuoted? fuel (cursor.advance 1) (c :: found)

/-- What becomes of the line breaks at the end of a block. -/
inductive Chomp where
  | strip
  | clip
  | keep
deriving Repr, DecidableEq

/-- The header of a block: how it ends and how far it is indented beyond its parent. -/
def blockHeader? (cs : List Char) : Option (Chomp × Option Nat × List Char) :=
  let chomp? (cs : List Char) : Option Chomp × List Char :=
    match cs with
    | '+' :: rest => (some .keep, rest)
    | '-' :: rest => (some .strip, rest)
    | rest => (none, rest)
  let digit? (cs : List Char) : Option Nat × List Char :=
    match cs with
    | c :: rest => if '1' ≤ c && c ≤ '9' then (some (c.toNat - 48), rest) else (none, c :: rest)
    | [] => (none, [])
  let (before, rest) := chomp? cs
  let (indent, rest) := digit? rest
  let (after, rest) := if before.isSome then (none, rest) else chomp? rest
  if rest.head? = some '0' then none else some ((before.or after).getD .clip, indent, rest)

/-- Passes over empty lines of a block.  Up to `indent` blanks in front of a line do not count;
where the indentation is not known yet all of them do, and the widest line tells it. -/
def blockBreaks? (indent : Option Nat) : Nat → Nat → Cursor → List Char →
    Option (Nat × List Char × Cursor)
  | 0, _, _, _ => none
  | fuel + 1, widest, cursor, breaks =>
    let spaces := (cursor.rest.takeWhile (· = ' ')).length
    let cursor := cursor.advance ((indent.map (min spaces)).getD spaces)
    let widest := max widest cursor.column
    if cursor.peek? = some '\t' && (indent.map (decide <| cursor.column < ·)).getD true then none
    else
      match cursor.lineBreak? with
      | some (c, next) => blockBreaks? indent fuel widest next (breaks ++ [c])
      | none => some (widest, breaks, cursor)

/-- Reads the lines of a block.  `pending` holds the break of the line before, and `breaks` the
empty lines after it. -/
def blockLines (literal : Bool) (indent : Nat) : Nat → Cursor → List Char → Bool → List Char →
    List Char → Option (List Char × List Char × List Char × Cursor)
  | 0, _, _, _, _, _ => none
  | fuel + 1, cursor, found, blankBefore, pending, breaks =>
    if cursor.column ≠ indent || cursor.atEnd || cursor.atMarker then
      some (found, pending, breaks, cursor)
    else
      let blank := (cursor.peek?.map isBlank).getD false
      let joint :=
        if !literal && pending.head? = some '\n' && !blankBefore && !blank then
          (if breaks.isEmpty then [' '] else []) ++ breaks
        else pending ++ breaks
      let line := cursor.rest.takeWhile fun c => !isBreak c
      let cursor := cursor.skipLine
      let (pending, cursor) := match cursor.lineBreak? with
        | some (c, next) => ([c], next)
        | none => ([], cursor)
      match blockBreaks? (some indent) (cursor.rest.length + 1) 0 cursor [] with
      | none => none
      | some (_, breaks, cursor) =>
        blockLines literal indent fuel cursor (found ++ joint ++ line) blank pending breaks

/-- Reads a block of lines behind its mark; `parent` is the column after that of the block
around it. -/
def block? (literal : Bool) (parent : Nat) (cursor : Cursor) : Option (List Char × Cursor) :=
  match blockHeader? cursor.rest with
  | none => none
  | some (chomp, further, rest) =>
    let cursor : Cursor := Cursor.skipBlanks ⟨rest, cursor.column⟩
    let cursor := if cursor.peek? = some '#' then cursor.skipLine else cursor
    let behind := match cursor.lineBreak? with
      | some (_, next) => some next
      | none => if cursor.atEnd then some cursor else none
    match behind with
    | none => none
    | some cursor =>
      let known := further.map fun n => if parent = 0 then n else parent - 1 + n
      match blockBreaks? known (cursor.rest.length + 1) 0 cursor [] with
      | none => none
      | some (widest, breaks, cursor) =>
        let indent := known.getD (max (max widest parent) 1)
        match blockLines literal indent (cursor.rest.length + 1) cursor [] false [] breaks with
        | none => none
        | some (found, pending, breaks, cursor) =>
          some (match chomp with
            | .strip => found
            | .clip => found ++ pending
            | .keep => found ++ pending ++ breaks, cursor)

end LookupEngine.Yaml
