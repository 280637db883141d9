import LookupEngine.Text.Blank
import LookupEngine.Text.Split
import LookupEngine.Text.Utf8
/-!
# Character sets of bodies

The text of a body in the character set that its type names.  A byte order mark at the start
outweighs the name and is no part of the text; a name nobody knows means UTF-8.
-/

namespace LookupEngine.Http

inductive Charset where
  | utf8
  | utf16 (bigEndian : Bool)
  | western
deriving Repr, DecidableEq

namespace Charset

def ofLabel (label : String) : Charset :=
  let label := Text.lowerAscii label
  if ["iso-8859-1", "iso8859-1", "iso88591", "iso_8859-1", "latin1", "l1", "ascii", "us-ascii",
      "windows-1252", "cp1252", "x-cp1252", "cp819", "ibm819"].contains label then western
  else if ["utf-16", "utf-16le", "ucs-2", "unicode"].contains label then utf16 false
  else if ["utf-16be", "unicodefffe"].contains label then utf16 true
  else utf8

/-- What the bytes from 0x80 to 0x9F stand for in the western set. -/
def westernTable : List Nat :=
  [0x20AC, 0x81, 0x201A, 0x192, 0x201E, 0x2026, 0x2020, 0x2021, 0x2C6, 0x2030, 0x160, 0x2039,
    0x152, 0x8D, 0x17D, 0x8F, 0x90, 0x2018, 0x2019, 0x201C, 0x201D, 0x2022, 0x2013, 0x2014,
    0x2DC, 0x2122, 0x161, 0x203A, 0x153, 0x9D, 0x17E, 0x178]

def westernChar (b : UInt8) : Char :=
  let n := b.toNat
  if 0x80 ≤ n ∧ n < 0xA0 then Char.ofNat (westernTable.getD (n - 0x80) n) else Char.ofNat n

/-- The units of two bytes, with the replacement character for a byte that is left. -/
def units (bigEndian : Bool) : Bytes → List Nat
  | a :: b :: rest =>
    (if bigEndian then a.toNat * 256 + b.toNat else b.toNat * 256 + a.toNat) ::
      units bigEndian rest
  | [_] => [0xFFFD]
  | [] => []

def ofUnits : List Nat → List Char
  | [] => []
  | high :: low :: rest =>
    if 0xD800 ≤ high ∧ high < 0xDC00 ∧ 0xDC00 ≤ low ∧ low < 0xE000 then
      Char.ofNat (0x10000 + (high - 0xD800) * 0x400 + (low - 0xDC00)) :: ofUnits rest
    else
      (if 0xD800 ≤ high ∧ high < 0xE000 then Utf8.replacement else Char.ofNat high) ::
        ofUnits (low :: rest)
  | [n] => [if 0xD800 ≤ n ∧ n < 0xE000 then Utf8.replacement else Char.ofNat n]

/-- The text of some bytes in a set. -/
def decodeIn (charset : Charset) (bytes : Bytes) : String :=
  match charset with
  | utf8 => Utf8.decodeLossy bytes
  | utf16 bigEndian => String.ofList (ofUnits (units bigEndian bytes))
  | western => String.ofList (bytes.map westernChar)

/-- The text of a body. -/
def decode (charset : Charset) : Bytes → String
  | 0xEF :: 0xBB :: 0xBF :: rest => decodeIn utf8 rest
  | 0xFE :: 0xFF :: rest => decodeIn (utf16 true) rest
  | 0xFF :: 0xFE :: rest => decodeIn (utf16 false) rest
  | bytes => decodeIn charset bytes

/-- The set that a content type names after `charset=`. -/
def ofContentType (type : String) : Charset :=
  let parameters := (Text.splitAny (· = ';') type.toList).drop 1
  let named := parameters.filterMap fun parameter =>
    match Text.splitOnce '=' (Text.trimChars parameter) with
    | some (name, value) =>
      if name.map Char.toLower = "charset".toList then some (value.filter (· ≠ '\x22')) else none
    | none => none
  match named with
  | label :: _ => ofLabel (String.ofList label)
  | [] => utf8

end Charset

end LookupEngine.Http
