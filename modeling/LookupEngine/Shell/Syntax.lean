import LookupEngine.Number.Digits
import LookupEngine.Text.Scan
/-!
# Shell commands

The commands of a shell as trees, and how they are read.  A byte of a command is kept as the
character of its code, because a shell does not care what its bytes stand for.  Words keep
apart what is quoted and what is still to be expanded.
-/

namespace LookupEngine.Shell

open Text (Scan)

/-- A part of a word. -/
inductive Part where
  | text (quoted : Bool) (cs : List Char)
  /-- The value of a variable, or the fallback of one that is not set; `orEmpty` tells whether
  an empty one counts as not set. -/
  | variable (quoted : Bool) (name : List Char) (orEmpty : Bool) (fallback : Option (List Char))
  /-- How long the value of a variable is. -/
  | length (quoted : Bool) (name : List Char)
  | arithmetic (quoted : Bool) (cs : List Char)
  /-- What a command writes. -/
  | output (quoted : Bool) (command : List Char)
deriving Repr

abbrev Word := List Part

/-- Where a stream goes or comes from. -/
inductive Target where
  | write (path : Word)
  | append (path : Word)
  | read (path : Word)
  | same (stream : Nat)
deriving Repr

structure Redirect where
  stream : Nat
  target : Target
deriving Repr

inductive Command where
  | nothing
  | simple (assignments : List (List Char × Word)) (words : List Word) (redirects : List Redirect)
  | compound (body : Command) (isolated : Bool) (redirects : List Redirect)
  | pipe (left right : Command)
  | both (left right : Command)
  | either (left right : Command)
  | sequence (left right : Command)
  | negation (command : Command)
  | condition (test yes no : Command)
  | loop (until_ : Bool) (test body : Command)
  | each (name : List Char) (words : List Word) (body : Command)
deriving Repr

def isBlank (c : Char) : Bool := c = ' ' || c = '\t'

/-- Characters that end a word. -/
def endsWord (c : Char) : Bool :=
  isBlank c || ['\n', ';', '&', '|', '<', '>', '(', ')'].contains c

def isNameStart (c : Char) : Bool := c.isAlpha || c = '_'

def isNameChar (c : Char) : Bool := c.isAlphanum || c = '_'

/-- Passes over blanks, joined lines and comments. -/
def blanks : Nat → Scan Unit
  | 0 => pure ()
  | fuel + 1 => do
    match ← Scan.rest with
    | '\\' :: '\n' :: rest => do set rest; blanks fuel
    | c :: rest =>
      if isBlank c then
        set rest
        blanks fuel
      else if c = '#' then
        let _ ← Scan.while_ (· ≠ '\n')
      else pure ()
    | [] => pure ()

def skipBlanks : Scan Unit := do blanks ((← Scan.rest).length + 1)

/-- Passes over blanks and line breaks. -/
def lineBreaks : Nat → Scan Unit
  | 0 => pure ()
  | fuel + 1 => do
    skipBlanks
    if ← Scan.char? '\n' then lineBreaks fuel

def skipLines : Scan Unit := do lineBreaks ((← Scan.rest).length + 1)

/-- The text up to the closing mark of nested pairs.  Quotes hide marks. -/
def balanced (opening closing : Char) : Nat → Nat → Scan (List Char)
  | 0, _ => Scan.fail
  | fuel + 1, depth => do
    let c ← Scan.next
    if c = closing then
      if depth = 0 then pure [] else return c :: (← balanced opening closing fuel (depth - 1))
    else if c = opening then return c :: (← balanced opening closing fuel (depth + 1))
    else if c = '\\' then
      let d ← Scan.next
      return c :: d :: (← balanced opening closing fuel depth)
    else if c = '\x27' then
      let text ← Scan.while_ (· ≠ '\x27')
      Scan.char '\x27'
      return c :: text ++ c :: (← balanced opening closing fuel depth)
    else return c :: (← balanced opening closing fuel depth)

/-- A name in braces with its fallback. -/
def braced (quoted : Bool) (inside : List Char) : Scan Part := do
  match inside with
  | '#' :: c :: rest => return .length quoted (c :: rest)
  | _ => pure ()
  let name := inside.takeWhile isNameChar
  let name := if name.isEmpty then inside.take 1 else name
  match inside.drop name.length with
  | [] => if name.isEmpty then Scan.fail else pure (.variable quoted name false none)
  | ':' :: '-' :: fallback => pure (.variable quoted name true (some fallback))
  | '-' :: fallback => pure (.variable quoted name false (some fallback))
  | _ => Scan.fail

/-- What follows a dollar sign. -/
def dollar (quoted : Bool) : Scan Part := do
  let fuel := (← Scan.rest).length + 1
  match ← Scan.rest with
  | '(' :: '(' :: rest => do
    set rest
    let inside ← balanced '(' ')' fuel 0
    Scan.char ')'
    pure (.arithmetic quoted inside)
  | '(' :: rest => do
    set rest
    pure (.output quoted (← balanced '(' ')' fuel 0))
  | '\x7b' :: rest => do
    set rest
    braced quoted (← balanced '\x7b' '\x7d' fuel 0)
  | c :: rest =>
    if isNameStart c then pure (.variable quoted (← Scan.while_ isNameChar) false none)
    else if c.isDigit || ['?', '$', '#', '*', '@', '!', '-'].contains c then
      set rest
      pure (.variable quoted [c] false none)
    else pure (.text quoted ['$'])
  | [] => pure (.text quoted ['$'])

/-- A command between backticks. -/
def backticks (quoted : Bool) : Scan Part := do
  let text ← Scan.while_ (· ≠ '\x60')
  Scan.char '\x60'
  pure (.output quoted text)

/-- The rest of a text in double quotes. -/
def doubleQuoted : Nat → Scan Word
  | 0 => Scan.fail
  | fuel + 1 => do
    match ← Scan.next with
    | '\x22' => pure []
    | '$' => do
      let part ← dollar true
      return part :: (← doubleQuoted fuel)
    | '\x60' => do
      let part ← backticks true
      return part :: (← doubleQuoted fuel)
    | '\\' => do
      let c ← Scan.next
      let text := if c = '\n' then [] else
        if ['$', '\x60', '\x22', '\\'].contains c then [c] else ['\\', c]
      return .text true text :: (← doubleQuoted fuel)
    | c => return .text true [c] :: (← doubleQuoted fuel)

/-- The parts of a word. -/
def parts : Nat → Scan Word
  | 0 => Scan.fail
  | fuel + 1 => do
    match ← Scan.peek? with
    | none => pure []
    | some c =>
      if endsWord c then pure []
      else
        let _ ← Scan.next
        match c with
        | '\x27' => do
          let text ← Scan.while_ (· ≠ '\x27')
          Scan.char '\x27'
          return .text true text :: (← parts fuel)
        | '\x22' => do
          let inside ← doubleQuoted ((← Scan.rest).length + 1)
          return .text true [] :: inside ++ (← parts fuel)
        | '$' => do
          let part ← dollar false
          return part :: (← parts fuel)
        | '\x60' => do
          let part ← backticks false
          return part :: (← parts fuel)
        | '\\' => do
          match ← Scan.optional Scan.next with
          | none => return [.text true ['\\']]
          | some d =>
            if d = '\n' then parts fuel else return .text true [d] :: (← parts fuel)
        | c => return .text false [c] :: (← parts fuel)

def word : Scan Word := do
  let found ← parts ((← Scan.rest).length + 1)
  if found.isEmpty then Scan.fail else pure found

/-- The plain text at the front, up to something that ends a word. -/
def plainWord : Scan (List Char) := fun cs => some (cs.takeWhile fun c => !endsWord c, cs)

/-- Words that end a list of commands. -/
def closers : List String := ["then", "else", "elif", "fi", "do", "done", "\x7d"]

/-- Takes a word that has a meaning of its own. -/
def keyword (text : String) : Scan Unit := do
  skipBlanks
  if (← plainWord) = text.toList then Scan.word text else Scan.fail

/-- A redirection, if one stands here. -/
def redirect? : Scan (Option Redirect) := do
  let cs ← Scan.rest
  let (stream, rest) := match cs with
    | c :: rest =>
      if c.isDigit && (rest.head? = some '<' || rest.head? = some '>') then
        (some (c.toNat - 48), rest)
      else (none, cs)
    | [] => (none, cs)
  match rest with
  | '>' :: '&' :: c :: rest =>
    if c.isDigit then
      set rest
      pure (some ⟨stream.getD 1, .same (c.toNat - 48)⟩)
    else Scan.fail
  | '>' :: '>' :: rest => do
    set rest
    skipBlanks
    pure (some ⟨stream.getD 1, .append (← word)⟩)
  | '>' :: rest => do
    set rest
    skipBlanks
    pure (some ⟨stream.getD 1, .write (← word)⟩)
  | '<' :: rest => do
    set rest
    skipBlanks
    pure (some ⟨stream.getD 0, .read (← word)⟩)
  | _ => pure none

/-- The name and the value of a word that assigns. -/
def assignment? (word : Word) : Option (List Char × Word) :=
  let plain := word.takeWhile fun
    | .text false [c] => isNameChar c
    | _ => false
  let name := plain.flatMap fun
    | .text _ cs => cs
    | _ => []
  match name, word.drop plain.length with
  | first :: _, .text false ['='] :: value =>
    if isNameStart first then some (name, value) else none
  | _, _ => none

/-- The words and redirections of a simple command. -/
def simple : Nat → Command → Scan Command
  | fuel + 1, .simple assignments words redirects => do
    skipBlanks
    match ← redirect? with
    | some redirect => simple fuel (.simple assignments words (redirects ++ [redirect]))
    | none =>
      match ← Scan.optional word with
      | none => pure (.simple assignments words redirects)
      | some found =>
        match words, assignment? found with
        | [], some assignment =>
          simple fuel (.simple (assignments ++ [assignment]) words redirects)
        | _, _ => simple fuel (.simple assignments (words ++ [found]) redirects)
  | _, command => pure command

/-- The redirections behind a command that holds others. -/
def redirects : Nat → Scan (List Redirect)
  | 0 => pure []
  | fuel + 1 => do
    skipBlanks
    match ← redirect? with
    | some redirect => return redirect :: (← redirects fuel)
    | none => pure []

mutual

/-- A list of commands up to a word or mark that ends it. -/
def commands : Nat → Scan Command
  | 0 => Scan.fail
  | fuel + 1 => do
    skipLines
    let stop := (← Scan.peek?) = none || (← Scan.peek?) = some ')' ||
      closers.contains (String.ofList (← plainWord))
    if stop then pure .nothing
    else
      let first ← chain fuel
      skipBlanks
      let more ← match ← Scan.rest with
        | ';' :: ';' :: _ => Scan.fail
        | ';' :: rest => do set rest; pure true
        | '&' :: rest => do set rest; pure true
        | '\n' :: _ => pure true
        | _ => pure false
      if more then return .sequence first (← commands fuel) else pure first

/-- Pipelines between `&&` and `||`. -/
def chain : Nat → Scan Command
  | 0 => Scan.fail
  | fuel + 1 => do furtherChain fuel (← pipeline fuel)

def furtherChain : Nat → Command → Scan Command
  | 0, _ => Scan.fail
  | fuel + 1, left => do
    skipBlanks
    match ← Scan.rest with
    | '&' :: '&' :: rest => do
      set rest
      skipLines
      furtherChain fuel (.both left (← pipeline fuel))
    | '|' :: '|' :: rest => do
      set rest
      skipLines
      furtherChain fuel (.either left (← pipeline fuel))
    | _ => pure left

/-- Commands between bars. -/
def pipeline : Nat → Scan Command
  | 0 => Scan.fail
  | fuel + 1 => do
    match ← Scan.optional (keyword "!") with
    | some () => return .negation (← pipeline fuel)
    | none => furtherPipeline fuel (← command fuel)

def furtherPipeline : Nat → Command → Scan Command
  | 0, _ => Scan.fail
  | fuel + 1, left => do
    skipBlanks
    match ← Scan.rest with
    | '|' :: '|' :: _ => pure left
    | '|' :: rest => do
      set rest
      skipLines
      furtherPipeline fuel (.pipe left (← command fuel))
    | _ => pure left

/-- One command. -/
def command : Nat → Scan Command
  | 0 => Scan.fail
  | fuel + 1 => do
    skipBlanks
    let first := String.ofList (← plainWord)
    if (← Scan.peek?) = some '(' then
      Scan.char '('
      let body ← commands fuel
      skipBlanks
      Scan.char ')'
      pure (.compound body true (← redirects fuel))
    else if first = "\x7b" then
      keyword "\x7b"
      let body ← commands fuel
      keyword "\x7d"
      pure (.compound body false (← redirects fuel))
    else if first = "if" then
      keyword "if"
      let body ← conditional fuel
      pure (.compound body false (← redirects fuel))
    else if first = "while" || first = "until" then
      keyword first
      let test ← commands fuel
      keyword "do"
      let body ← commands fuel
      keyword "done"
      pure (.compound (.loop (first = "until") test body) false (← redirects fuel))
    else if first = "for" then
      keyword "for"
      skipBlanks
      let name ← Scan.while1 isNameChar
      keyword "in"
      match ← simple fuel (.simple [] [] []) with
      | .simple [] words [] => do
        skipBlanks
        let _ ← Scan.char? ';'
        skipLines
        keyword "do"
        let body ← commands fuel
        keyword "done"
        pure (.compound (.each name words body) false (← redirects fuel))
      | _ => Scan.fail
    else if closers.contains first then Scan.fail
    else
      match ← simple fuel (.simple [] [] []) with
      | .simple [] [] [] => Scan.fail
      | found => pure found

/-- A condition behind its first word. -/
def conditional : Nat → Scan Command
  | 0 => Scan.fail
  | fuel + 1 => do
    let test ← commands fuel
    keyword "then"
    let yes ← commands fuel
    match ← Scan.optional (keyword "elif") with
    | some () => return .condition test yes (← conditional fuel)
    | none =>
      match ← Scan.optional (keyword "else") with
      | some () => do
        let no ← commands fuel
        keyword "fi"
        pure (.condition test yes no)
      | none => do
        keyword "fi"
        pure (.condition test yes .nothing)

end

/-- Reads all commands of a text. -/
def parse? (cs : List Char) : Option Command :=
  Scan.all? (commands (8 * cs.length + 8)) cs

end LookupEngine.Shell
