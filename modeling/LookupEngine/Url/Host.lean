import LookupEngine.Number.Digits
import LookupEngine.Url.Domain
import LookupEngine.Url.Percent
/-!
# Hosts

The host of a URL: a domain name, an address of four bytes in any of its spellings, or an
address of eight pieces in brackets.  A URL whose scheme is not special keeps its host as
it is written.
-/

namespace LookupEngine.Url

/-- Why a text is no URL. -/
inductive Problem where
  | relativeWithoutBase
  | relativeToOpaque
  | emptyHost
  | invalidPort
  | invalidIpv4
  | invalidIpv6
  | invalidDomain
  | invalidDomainCharacter
deriving Repr, DecidableEq

def Problem.message : Problem → String
  | relativeWithoutBase => "relative URL without a base"
  | relativeToOpaque => "relative URL with a cannot-be-a-base base"
  | emptyHost => "empty host"
  | invalidPort => "invalid port number"
  | invalidIpv4 => "invalid IPv4 address"
  | invalidIpv6 => "invalid IPv6 address"
  | invalidDomain => "invalid international domain name"
  | invalidDomainCharacter => "invalid domain character"

inductive Host where
  | domain (name : List Char)
  | ipv4 (address : Nat)
  | ipv6 (pieces : List Nat)
deriving Repr, DecidableEq

namespace Ipv4

/-- The value of one part: hexadecimal after `0x`, octal after `0`, else decimal.  A part
without digits after such a mark is zero. -/
def part? (cs : List Char) : Option Nat :=
  match cs with
  | [] => none
  | ['0'] => some 0
  | '0' :: 'x' :: digits => if digits.isEmpty then some 0 else Digits.read? 16 digits
  | '0' :: 'X' :: digits => if digits.isEmpty then some 0 else Digits.read? 16 digits
  | '0' :: digits => Digits.read? 8 digits
  | digits => Digits.read? 10 digits

/-- The parts between the dots, without the empty one after a last dot. -/
def parts (cs : List Char) : List (List Char) :=
  let parts := Text.splitAny (· = '.') cs
  if parts.getLast? = some [] then parts.dropLast else parts

/-- Whether a name has to be read as an address, because its last part is a number. -/
def endsInNumber (cs : List Char) : Bool :=
  match (parts cs).getLast? with
  | none => false
  | some last =>
    (!last.isEmpty && last.all Digits.isDecimal) || (part? last).isSome

/-- Adds up the bytes before the last part, which fills what they leave. -/
def combine (parts : List Nat) : Option Nat :=
  match parts.reverse with
  | [] => none
  | last :: before =>
    if last < Nat.pow 256 (4 - before.length) ∧ before.all (· ≤ 255) then
      some (last + ((before.reverse.zipIdx.map fun (n, i) => n * Nat.pow 256 (3 - i)).foldl (· + ·) 0))
    else none

def parse? (cs : List Char) : Option Nat :=
  let parts := parts cs
  if parts.length > 4 then none else (parts.mapM part?).bind combine

def write (address : Nat) : List Char :=
  ['.'].intercalate
    ([16777216, 65536, 256, 1].map fun unit => Digits.write 10 (address / unit % 256))

end Ipv4

namespace Ipv6

/-- One piece: up to four hexadecimal digits. -/
def piece? (cs : List Char) : Option Nat :=
  if cs.length ≤ 4 then Digits.read? 16 cs else none

/-- A byte of a dotted tail: decimal digits without a leading zero. -/
def byte? (cs : List Char) : Option Nat :=
  if cs.length > 1 && cs.head? = some '0' then none
  else if cs.length ≤ 3 then (Digits.read? 10 cs).filter (· ≤ 255) else none

/-- The two pieces of a dotted tail. -/
def tail? (cs : List Char) : Option (List Nat) :=
  match (Text.splitAny (· = '.') cs).mapM byte? with
  | some [a, b, c, d] => some [a * 256 + b, c * 256 + d]
  | _ => none

/-- Pieces between colons, of which only the last may be dotted. -/
def pieces? (cs : List Char) : Option (List Nat) :=
  if cs.isEmpty then some []
  else
    let written := Text.splitAny (· = ':') cs
    match written.dropLast.mapM piece?, written.getLast? with
    | some front, some last =>
      if last.contains '.' then (tail? last).map (front ++ ·)
      else (piece? last).map fun piece => front ++ [piece]
    | _, _ => none

/-- Cuts at the first double colon. -/
def cut : List Char → Option (List Char × List Char)
  | ':' :: ':' :: rest => some ([], rest)
  | c :: rest => (cut rest).map fun (before, after) => (c :: before, after)
  | [] => none

/-- The eight pieces of an address.  A double colon stands for at least one zero. -/
def parse? (cs : List Char) : Option (List Nat) :=
  match cut cs with
  | none => (pieces? cs).filter (·.length = 8)
  | some (before, after) =>
    if before.contains '.' then none
    else
      match pieces? before, pieces? after with
      | some front, some back =>
        if front.length + back.length ≤ 7 then
          some (front ++ List.replicate (8 - front.length - back.length) 0 ++ back)
        else none
      | _, _ => none

/-- The start and length of the first longest run of zeros. -/
def longestZeros (pieces : List Nat) : Nat × Nat :=
  (List.range 8).foldl
    (fun (start, length) i =>
      let run := ((pieces.drop i).takeWhile (· = 0)).length
      if run > length then (i, run) else (start, length)) (0, 0)

def join (pieces : List Nat) : List Char := [':'].intercalate (pieces.map (Digits.write 16))

/-- The shortest form, in which the longest run of at least two zeros is a double colon. -/
def write (pieces : List Nat) : List Char :=
  let (start, length) := longestZeros pieces
  if length < 2 then join pieces
  else join (pieces.take start) ++ [':', ':'] ++ join (pieces.drop (start + length))

end Ipv6

namespace Host

/-- Reads the host of a special URL. -/
def parse (cs : List Char) : Except Problem Host :=
  match cs with
  | '[' :: rest =>
    if rest.getLast? = some ']' then
      match Ipv6.parse? rest.dropLast with
      | some pieces => .ok (.ipv6 pieces)
      | none => .error .invalidIpv6
    else .error .invalidIpv6
  | cs =>
    match Domain.toAscii? (percentDecode (Utf8.encodeChars cs)) with
    | none => .error .invalidDomain
    | some name =>
      if name.isEmpty then .error .emptyHost
      else if Ipv4.endsInNumber name then
        match Ipv4.parse? name with
        | some address => .ok (.ipv4 address)
        | none => .error .invalidIpv4
      else .ok (.domain name)

/-- Characters that a host kept as written does not have. -/
def isForbiddenOpaque (c : Char) : Bool :=
  c = Char.ofNat 0 ||
    ['\t', '\n', '\r', ' ', '#', '/', ':', '<', '>', '?', '@', '[', '\\', ']', '^', '|'].contains c

/-- Reads the host of any other URL. -/
def parseOpaque (cs : List Char) : Except Problem Host :=
  match cs with
  | '[' :: rest =>
    if rest.getLast? = some ']' then
      match Ipv6.parse? rest.dropLast with
      | some pieces => .ok (.ipv6 pieces)
      | none => .error .invalidIpv6
    else .error .invalidIpv6
  | cs =>
    if cs.any isForbiddenOpaque then .error .invalidDomainCharacter
    else .ok (.domain (percentEncode (!isControl ·) cs))

def write : Host → List Char
  | domain name => name
  | ipv4 address => Ipv4.write address
  | ipv6 pieces => '[' :: Ipv6.write pieces ++ [']']

end Host

end LookupEngine.Url
