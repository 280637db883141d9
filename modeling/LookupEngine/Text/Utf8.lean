/-!
# UTF-8

Reading bytes as text, strictly or with the replacement character for what is not
text.  A sequence that goes wrong is replaced as a whole up to the byte that is
wrong, which is then read anew.
-/

namespace LookupEngine

abbrev Bytes := List UInt8

namespace Utf8

/-- The character that a sequence stands for, with the number of bytes it has after its
first; or the number of bytes after its first that still belong to a wrong one. -/
inductive Step where
  | char (c : Char) (more : Nat)
  | wrong (more : Nat)
deriving Repr, DecidableEq

def isContinuation (b : UInt8) : Bool := 0x80 ≤ b.toNat && b.toNat ≤ 0xBF

/-- The six bits that a continuation byte carries. -/
def payload (b : UInt8) : Nat := b.toNat % 64

/-- Reads the bytes after a first byte of three, whose second byte is bounded. -/
def three (first low high : Nat) : Bytes → Step
  | b :: c :: _ =>
    if low ≤ b.toNat && b.toNat ≤ high then
      if isContinuation c then
        .char (Char.ofNat (first % 16 * 4096 + payload b * 64 + payload c)) 2
      else .wrong 1
    else .wrong 0
  | [b] => if low ≤ b.toNat && b.toNat ≤ high then .wrong 1 else .wrong 0
  | [] => .wrong 0

/-- Reads the bytes after a first byte of four, whose second byte is bounded. -/
def four (first low high : Nat) : Bytes → Step
  | b :: c :: d :: _ =>
    if low ≤ b.toNat && b.toNat ≤ high then
      if isContinuation c then
        if isContinuation d then
          .char (Char.ofNat
            (first % 8 * 262144 + payload b * 4096 + payload c * 64 + payload d)) 3
        else .wrong 2
      else .wrong 1
    else .wrong 0
  | [b, c] =>
    if low ≤ b.toNat && b.toNat ≤ high then
      if isContinuation c then .wrong 2 else .wrong 1
    else .wrong 0
  | [b] => if low ≤ b.toNat && b.toNat ≤ high then .wrong 1 else .wrong 0
  | [] => .wrong 0

/-- Reads the sequence that starts with `first`. -/
def step (first : UInt8) (rest : Bytes) : Step :=
  let n := first.toNat
  if n < 0x80 then .char (Char.ofNat n) 0
  else if 0xC2 ≤ n && n ≤ 0xDF then
    match rest with
    | b :: _ =>
      if isContinuation b then .char (Char.ofNat (n % 32 * 64 + payload b)) 1 else .wrong 0
    | [] => .wrong 0
  else if n = 0xE0 then three n 0xA0 0xBF rest
  else if n = 0xED then three n 0x80 0x9F rest
  else if 0xE1 ≤ n && n ≤ 0xEF then three n 0x80 0xBF rest
  else if n = 0xF0 then four n 0x90 0xBF rest
  else if n = 0xF4 then four n 0x80 0x8F rest
  else if 0xF1 ≤ n && n ≤ 0xF3 then four n 0x80 0xBF rest
  else .wrong 0

/-- The text of some bytes after skipping `skip` of them, if they are text. -/
def decodeFrom? : Nat → Bytes → Option (List Char)
  | _, [] => some []
  | skip + 1, _ :: rest => decodeFrom? skip rest
  | 0, b :: rest =>
    match step b rest with
    | .char c more => (decodeFrom? more rest).map (c :: ·)
    | .wrong _ => none

def decodeChars? (bytes : Bytes) : Option (List Char) := decodeFrom? 0 bytes

def decode? (bytes : Bytes) : Option String := (decodeChars? bytes).map String.ofList

/-- The character that stands for what is not text. -/
def replacement : Char := Char.ofNat 0xFFFD

def decodeLossyFrom : Nat → Bytes → List Char
  | _, [] => []
  | skip + 1, _ :: rest => decodeLossyFrom skip rest
  | 0, b :: rest =>
    match step b rest with
    | .char c more => c :: decodeLossyFrom more rest
    | .wrong more => replacement :: decodeLossyFrom more rest

/-- The text of some bytes, with the replacement character for what is none. -/
def decodeLossy (bytes : Bytes) : String := String.ofList (decodeLossyFrom 0 bytes)

def validLengthFrom : Nat → Nat → Bytes → Nat
  | count, _, [] => count
  | count, skip + 1, _ :: rest => validLengthFrom count skip rest
  | count, 0, b :: rest =>
    match step b rest with
    | .char _ more => validLengthFrom (count + more + 1) more rest
    | .wrong _ => count

/-- How many bytes at the start are text. -/
def validLength (bytes : Bytes) : Nat := validLengthFrom 0 0 bytes

def encode (s : String) : Bytes := s.toUTF8.data.toList

def encodeChars (cs : List Char) : Bytes := encode (String.ofList cs)

end Utf8

end LookupEngine
