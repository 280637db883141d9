/-!
# Punycode

Labels of a domain name written in letters, digits and hyphens.  The characters beyond
ASCII are written in increasing order, each as the distance from the one before, in
digits of base thirty-six whose weights adapt to the distances seen so far.
-/

namespace LookupEngine.Url.Punycode

def digitChar (d : Nat) : Char := if d < 26 then Char.ofNat (97 + d) else Char.ofNat (22 + d)

def digitValue? (c : Char) : Option Nat :=
  if 'a' ≤ c && c ≤ 'z' then some (c.toNat - 97)
  else if 'A' ≤ c && c ≤ 'Z' then some (c.toNat - 65)
  else if '0' ≤ c && c ≤ '9' then some (c.toNat - 22)
  else none

/-- Divides by thirty-five until little is left, and counts thirty-six for each time. -/
def shrink : Nat → Nat → Nat → Nat × Nat
  | 0, delta, bias => (delta, bias)
  | fuel + 1, delta, bias => if delta > 455 then shrink fuel (delta / 35) (bias + 36) else (delta, bias)

/-- The bias after a distance. -/
def adapt (delta points : Nat) (first : Bool) : Nat :=
  let delta := if first then delta / 700 else delta / 2
  let delta := delta + delta / points
  let (delta, bias) := shrink delta delta 0
  bias + 36 * delta / (delta + 38)

def threshold (position bias : Nat) : Nat :=
  if position ≤ bias then 1 else if position ≥ bias + 26 then 26 else position - bias

/-- The digits of a distance. -/
def distance (bias : Nat) : Nat → Nat → Nat → List Char
  | 0, _, _ => []
  | fuel + 1, position, q =>
    let t := threshold position bias
    if q < t then [digitChar q]
    else digitChar (t + (q - t) % (36 - t)) :: distance bias fuel (position + 36) ((q - t) / (36 - t))

/-- What encoding has reached. -/
structure Progress where
  delta : Nat
  bias : Nat
  handled : Nat
  written : List Char

/-- Passes over the label once for the character `point`. -/
def pass (basic point : Nat) : Progress → List Char → Progress
  | progress, [] => progress
  | progress, c :: rest =>
    if c.toNat < point then pass basic point { progress with delta := progress.delta + 1 } rest
    else if c.toNat = point then
      let digits := distance progress.bias (progress.delta + 1) 36 progress.delta
      let handled := progress.handled + 1
      pass basic point
        ⟨0, adapt progress.delta handled (progress.handled = basic), handled, progress.written ++ digits⟩ rest
    else pass basic point progress rest

/-- Encodes the characters from `point` on, the least first. -/
def encodeFrom (label : List Char) (basic : Nat) : Nat → Nat → Progress → Progress
  | 0, _, progress => progress
  | fuel + 1, point, progress =>
    match (label.filter fun c => c.toNat ≥ point).map Char.toNat with
    | [] => progress
    | first :: others =>
      let least := others.foldl min first
      let delta := progress.delta + (least - point) * (progress.handled + 1)
      let progress := pass basic least { progress with delta := delta } label
      encodeFrom label basic fuel (least + 1) { progress with delta := progress.delta + 1 }

/-- The encoded form of a label. -/
def encode (label : List Char) : List Char :=
  let plain := label.filter fun c => c.toNat < 0x80
  let start := if plain.isEmpty then [] else plain ++ ['-']
  (encodeFrom label plain.length label.length 0x80 ⟨0, 72, plain.length, start⟩).written

/-- Reads a distance: its value and what follows. -/
def readDistance? (bias : Nat) : List Char → Nat → Nat → Nat → Option (Nat × List Char)
  | [], _, _, _ => none
  | c :: rest, position, weight, sum =>
    match digitValue? c with
    | none => none
    | some d =>
      let sum := sum + d * weight
      let t := threshold position bias
      if sum > 0x7FFFFFFF then none
      else if d < t then some (sum, rest)
      else readDistance? bias rest (position + 36) (weight * (36 - t)) sum

/-- Puts characters into `found`, one for each distance. -/
def decodeFrom? : Nat → List Char → Nat → Nat → Nat → List Char → Bool → Option (List Char)
  | 0, _, _, _, _, _, _ => none
  | _ + 1, [], _, _, _, found, _ => some found
  | fuel + 1, cs, point, place, bias, found, first =>
    match readDistance? bias cs 36 1 0 with
    | none => none
    | some (delta, rest) =>
      let length := found.length + 1
      let reached := place + delta
      let point := point + reached / length
      if point > 0x10FFFF || (0xD800 ≤ point && point ≤ 0xDFFF) then none
      else
        let position := reached % length
        decodeFrom? fuel rest point (position + 1) (adapt delta length first)
          (found.take position ++ Char.ofNat point :: found.drop position) false

/-- The label of an encoded form. -/
def decode? (encoded : List Char) : Option (List Char) :=
  let tail := (encoded.reverse.takeWhile (· ≠ '-')).reverse
  let plain := encoded.take (encoded.length - tail.length - 1)
  if plain.all fun c => c.toNat < 0x80 then
    decodeFrom? (tail.length + 1) tail 0x80 0 72 plain true
  else none

end LookupEngine.Url.Punycode
