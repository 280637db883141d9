import LookupEngine.Number.Digits
import LookupEngine.Text.Utf8
/-!
# Percent encoding

Bytes that a part of a URL cannot hold are written as `%` and two hexadecimal digits.
Which characters a part can hold is a predicate on characters; all others are encoded
by their bytes.
-/

namespace LookupEngine.Url

/-- Control characters and everything beyond ASCII, which no part holds. -/
def isControl (c : Char) : Bool := c.toNat < 0x20 || c.toNat > 0x7E

def inFragment (c : Char) : Bool :=
  !isControl c && !([' ', '\x22', '<', '>', '\x60'].contains c)

def inPath (c : Char) : Bool := inFragment c && !(['#', '?', '\x7b', '\x7d'].contains c)

def inUserInfo (c : Char) : Bool :=
  inPath c && !(['/', ':', ';', '=', '@', '[', '\\', ']', '^', '|'].contains c)

def inQuery (c : Char) : Bool := !isControl c && !([' ', '\x22', '#', '<', '>'].contains c)

/-- The query of a special URL holds no apostrophe either. -/
def inSpecialQuery (c : Char) : Bool := inQuery c && c ≠ '\x27'

def encodeByte (b : UInt8) : List Char :=
  ['%', Digits.upperDigit (b.toNat / 16), Digits.upperDigit (b.toNat % 16)]

/-- Encodes what a part cannot hold. -/
def percentEncode (holds : Char → Bool) (cs : List Char) : List Char :=
  cs.flatMap fun c => if holds c then [c] else (Utf8.encodeChars [c]).flatMap encodeByte

def hexByte? (b : UInt8) : Option Nat :=
  if b.toNat < 0x80 then Digits.digitValue? (Char.ofNat b.toNat) else none

/-- The bytes of an encoded text.  A percent sign without two digits stands for itself. -/
def percentDecode : Bytes → Bytes
  | 0x25 :: high :: low :: rest =>
    match hexByte? high, hexByte? low with
    | some h, some l => UInt8.ofNat (h * 16 + l) :: percentDecode rest
    | _, _ => 0x25 :: percentDecode (high :: low :: rest)
  | b :: rest => b :: percentDecode rest
  | [] => []

end LookupEngine.Url
