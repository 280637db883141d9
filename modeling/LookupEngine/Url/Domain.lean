import LookupEngine.Text.Split
import LookupEngine.Text.Utf8
import LookupEngine.Url.Punycode
/-!
# Domain names

The name of a host in ASCII.  Letters are lowered, characters that mean a plain one are
replaced by it and invisible ones are dropped; a label that still goes beyond ASCII is
written in Punycode.  A name with a character that no host has is refused.
-/

namespace LookupEngine.Url.Domain

/-- Characters that vanish from a name. -/
def isIgnored (n : Nat) : Bool :=
  n = 0xAD || n = 0x34F || n = 0x200B || n = 0x2060 || n = 0x2064 || n = 0xFEFF ||
    (0xFE00 ≤ n && n ≤ 0xFE0F)

/-- The code point of the small letter of a capital one, in the scripts with a regular
distance between the two. -/
def lower (n : Nat) : Nat :=
  if 0x41 ≤ n && n ≤ 0x5A then n + 32
  else if 0xC0 ≤ n && n ≤ 0xDE && n ≠ 0xD7 then n + 32
  else if 0x100 ≤ n && n ≤ 0x137 && n ≠ 0x130 && n % 2 = 0 then n + 1
  else if 0x139 ≤ n && n ≤ 0x148 && n % 2 = 1 then n + 1
  else if 0x14A ≤ n && n ≤ 0x177 && n % 2 = 0 then n + 1
  else if 0x391 ≤ n && n ≤ 0x3AB && n ≠ 0x3A2 then n + 32
  else if 0x410 ≤ n && n ≤ 0x42F then n + 32
  else if 0x400 ≤ n && n ≤ 0x40F then n + 80
  else n

/-- What a character of a name becomes. -/
def mapChar (c : Char) : List Char :=
  let n := c.toNat
  if isIgnored n then []
  else if n = 0x3002 || n = 0xFF0E || n = 0xFF61 then ['.']
  else if 0xFF01 ≤ n && n ≤ 0xFF5E then [Char.ofNat (lower (n - 0xFEE0))]
  else if n = 0x212A then ['k']
  else if n = 0x17F then ['s']
  else if n = 0x1E9E then ['s', 's']
  else if n = 0x130 then ['i', Char.ofNat 0x307]
  else if n = 0xFB00 then ['f', 'f']
  else if n = 0xFB01 then ['f', 'i']
  else if n = 0xFB02 then ['f', 'l']
  else [Char.ofNat (lower n)]

/-- ASCII characters that no host name has. -/
def isForbidden (c : Char) : Bool :=
  c.toNat ≤ 0x20 || c.toNat = 0x7F ||
    ['%', '#', '/', ':', '<', '>', '?', '@', '[', '\\', ']', '^', '|'].contains c

/-- Beyond ASCII: blanks, joiners, controls and what stands for no character. -/
def isUnassignable (n : Nat) : Bool :=
  (0x80 ≤ n && n ≤ 0x9F) || n = 0xA0 || n = 0x1680 || (0x2000 ≤ n && n ≤ 0x200A) ||
    n = 0x200C || n = 0x200D || (0x2028 ≤ n && n ≤ 0x202F) || n = 0x205F || n = 0x3000 || (0xE000 ≤ n && n ≤ 0xF8FF) ||
    (0xFFF0 ≤ n && n ≤ 0xFFFF) || n ≥ 0xE0000

def isPlain (c : Char) : Bool := c.toNat < 0x80

def punycodeMark : List Char := ['x', 'n', '-', '-']

/-- Whether a character may come out of Punycode: one that mapping leaves alone. -/
def isMapped (c : Char) : Bool := !isUnassignable c.toNat && mapChar c = [c]

/-- The ASCII form of a label whose characters are mapped. -/
def label? (label : List Char) : Option (List Char) :=
  if label.any fun c => isForbidden c || isUnassignable c.toNat then none
  else if label.all isPlain then
    if punycodeMark.isPrefixOf label then
      match Punycode.decode? (label.drop 4) with
      | some decoded => if decoded.all isPlain || !decoded.all isMapped then none else some label
      | none => none
    else some label
  else some (punycodeMark ++ Punycode.encode label)

/-- The ASCII form of a name that is given as bytes. -/
def toAscii? (bytes : Bytes) : Option (List Char) :=
  match Utf8.decodeChars? bytes with
  | none => none
  | some name =>
    ((Text.splitAny (· = '.') (name.flatMap mapChar)).mapM label?).map fun labels =>
      ['.'].intercalate labels

end LookupEngine.Url.Domain
