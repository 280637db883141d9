import LookupEngine.Number.Integer
import LookupEngine.Sequence.Template
/-!
# Formats of a shell

The texts of `echo`, in which a backslash starts an escape, and the formats of `printf`, which
fill fields with arguments and start again as long as arguments are left.
-/

namespace LookupEngine.Shell.Format

open Sequence (Flags)

/-- The character that an escape stands for. -/
def escape? : Char → Option Char
  | 'a' => some '\x07'
  | 'b' => some '\x08'
  | 'f' => some '\x0c'
  | 'n' => some '\n'
  | 'r' => some '\r'
  | 't' => some '\t'
  | 'v' => some '\x0b'
  | '\\' => some '\\'
  | _ => none

/-- The byte of at most three octal digits, and what follows them. -/
def octal (cs : List Char) : Char × List Char :=
  let digits := (cs.take 3).takeWhile (Digits.isDigitOf 8)
  (Char.ofNat (Digits.value 8 digits % 256), cs.drop digits.length)

/-- The text of `echo`, and whether anything is written after it.  An octal number follows a
zero. -/
def unescapeSteps : Nat → List Char → List Char × Bool
  | 0, _ => ([], true)
  | _, [] => ([], true)
  | steps + 1, '\\' :: c :: rest =>
    let followedBy (found : Char) (rest : List Char) : List Char × Bool :=
      let (text, goesOn) := unescapeSteps steps rest
      (found :: text, goesOn)
    if c = 'c' then ([], false)
    else if c = '0' then followedBy (octal rest).1 (octal rest).2
    else
      match escape? c with
      | some found => followedBy found rest
      | none => followedBy '\\' (c :: rest)
  | steps + 1, c :: rest =>
    let (text, goesOn) := unescapeSteps steps rest
    (c :: text, goesOn)

def unescape (cs : List Char) : List Char × Bool := unescapeSteps (cs.length + 1) cs

/-- One part of a format. -/
inductive Piece where
  | literal (c : Char)
  | field (flags : Flags) (width : Nat) (precision : Option Nat) (conversion : Char)
deriving Repr

/-- The precision behind a point. -/
def precision (cs : List Char) : Option Nat × List Char :=
  match cs with
  | '.' :: rest =>
    (some (Digits.value 10 (rest.takeWhile Digits.isDecimal)), rest.dropWhile Digits.isDecimal)
  | rest => (none, rest)

/-- The parts of a format.  A percent sign without a conversion is kept as it is. -/
def piecesSteps : Nat → List Char → List Piece
  | 0, _ => []
  | _, [] => []
  | steps + 1, '\\' :: c :: rest =>
    if Digits.isDigitOf 8 c then
      .literal (octal (c :: rest)).1 :: piecesSteps steps (octal (c :: rest)).2
    else
      match escape? c with
      | some found => .literal found :: piecesSteps steps rest
      | none => .literal '\\' :: piecesSteps steps (c :: rest)
  | steps + 1, '%' :: '%' :: rest => .literal '%' :: piecesSteps steps rest
  | steps + 1, '%' :: rest =>
    let (flags, behind) := Flags.none.read rest
    let width := Digits.value 10 (behind.takeWhile Digits.isDecimal)
    let (precision, behind) := precision (behind.dropWhile Digits.isDecimal)
    match behind with
    | c :: behind => .field flags width precision c :: piecesSteps steps behind
    | [] => .literal '%' :: piecesSteps steps rest
  | steps + 1, c :: rest => .literal c :: piecesSteps steps rest

def pieces (cs : List Char) : List Piece := piecesSteps (cs.length + 1) cs

/-- The digits of a magnitude in the base that its mark names. -/
def magnitude? : List Char → Option Nat
  | '0' :: 'x' :: digits => Digits.read? 16 digits
  | '0' :: 'X' :: digits => Digits.read? 16 digits
  | ['0'] => some 0
  | '0' :: digits => Digits.read? 8 digits
  | digits => Digits.read? 10 digits

/-- The number of an argument.  Behind a quote it is the code of a character. -/
def number? (cs : List Char) : Option Int :=
  match cs with
  | [] => some 0
  | '\x27' :: c :: _ => some c.toNat
  | '\x22' :: c :: _ => some c.toNat
  | '-' :: digits => (magnitude? digits).map fun n => -n
  | '+' :: digits => (magnitude? digits).map fun n => n
  | digits => (magnitude? digits).map fun n => n

/-- A text filled up to a width. -/
def padded (flags : Flags) (width : Nat) (cs : List Char) : List Char :=
  let gap := List.replicate (width - cs.length) ' '
  if flags.left then cs ++ gap else gap ++ cs

/-- A number with its sign, filled up with zeros behind it if nothing else says how many digits
there are. -/
def numeral (flags : Flags) (width : Nat) (precision : Option Nat) (sign digits : List Char) :
    List Char :=
  let least := match precision with
    | some n => n
    | none => if flags.zero && !flags.left then width - sign.length else 0
  padded flags width (sign ++ List.replicate (least - digits.length) '0' ++ digits)

/-- A number in the form of a conversion. -/
def numberField (flags : Flags) (width : Nat) (precision : Option Nat) (conversion : Char)
    (n : Int) : List Char :=
  let unsigned := (n % (Integer.greatestUnsigned + 1)).toNat
  let mark (cs : List Char) := if flags.alternate && unsigned ≠ 0 then cs else []
  let write := numeral flags width precision
  match conversion with
  | 'u' => write [] (Digits.write 10 unsigned)
  | 'o' => write [] (mark ['0'] ++ Digits.write 8 unsigned)
  | 'x' => write (mark ['0', 'x']) (Digits.write 16 unsigned)
  | 'X' => write (mark ['0', 'X']) (Digits.writeUpper 16 unsigned)
  | _ =>
    let sign := if n < 0 then ['-'] else if flags.plus then ['+'] else
      if flags.space then [' '] else []
    write sign (Digits.write 10 n.natAbs)

/-- What filling a format comes to. -/
structure Filled where
  text : List Char
  unused : List (List Char)
  complaints : List String
  goesOn : Bool

namespace Filled

def add (filled : Filled) (cs : List Char) : Filled := { filled with text := filled.text ++ cs }

/-- Takes the next argument; there is always an empty one. -/
def take (filled : Filled) : List Char × Filled :=
  (filled.unused.headD [], { filled with unused := filled.unused.tail })

/-- Takes the next argument as a number. -/
def takeNumber (filled : Filled) (shown : List Char → String) : Int × Filled :=
  let (argument, filled) := filled.take
  match number? argument with
  | some n => (n, filled)
  | none =>
    (0, { filled with
      complaints := filled.complaints ++ [s!"{shown argument}: expected numeric value"] })

/-- Fills one part. -/
def piece (shown : List Char → String) (filled : Filled) : Piece → Filled
  | .literal c => if filled.goesOn then filled.add [c] else filled
  | .field flags width precision conversion =>
    if !filled.goesOn then filled
    else if conversion = 's' then
      let (argument, filled) := filled.take
      filled.add (padded flags width ((precision.map fun n => argument.take n).getD argument))
    else if conversion = 'c' then
      let (argument, filled) := filled.take
      filled.add (padded flags width (argument.take 1))
    else if conversion = 'b' then
      let (argument, filled) := filled.take
      let (text, goesOn) := unescape argument
      { filled.add (padded flags width text) with goesOn }
    else if ['d', 'i', 'u', 'o', 'x', 'X'].contains conversion then
      let (n, filled) := filled.takeNumber shown
      filled.add (numberField flags width precision conversion n)
    else
      { filled with
        goesOn := false
        complaints := filled.complaints ++ [s!"%{conversion}: invalid directive"] }

end Filled

def isField : Piece → Bool
  | .field .. => true
  | .literal _ => false

/-- Fills a format, and again with the arguments that are left. -/
def fillSteps (shown : List Char → String) (pieces : List Piece) : Nat → Filled → Filled
  | 0, filled => filled
  | steps + 1, filled =>
    let filled := pieces.foldl (Filled.piece shown) filled
    if filled.goesOn && !filled.unused.isEmpty && pieces.any isField then
      fillSteps shown pieces steps filled
    else filled

def fill (shown : List Char → String) (format : List Char) (arguments : List (List Char)) :
    Filled :=
  fillSteps shown (pieces format) (arguments.length + 1) ⟨[], arguments, [], true⟩

end LookupEngine.Shell.Format
