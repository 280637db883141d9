import LookupEngine.Text.Split
import LookupEngine.Url.Percent
/-!
# Paths of URLs

The path of a special URL is a list of segments.  A segment that is one dot stands for
nothing and one that is two dots takes the segment before it away, also where dots are
written as `%2e`; what ends in such a segment ends in an empty one.
-/

namespace LookupEngine.Url.Segments

/-- The segments of a path, cut at slashes and, in special URLs, at backslashes. -/
def cut (special : Bool) (cs : List Char) : List (List Char) :=
  Text.splitAny (fun c => c = '/' || (special && c = '\\')) cs

/-- A segment with its encoded dots written out. -/
def withDots : List Char → List Char
  | '%' :: '2' :: c :: rest =>
    if c = 'e' ∨ c = 'E' then '.' :: withDots rest else '%' :: withDots ('2' :: c :: rest)
  | c :: rest => c :: withDots rest
  | [] => []

def isOneDot (segment : List Char) : Bool := withDots segment = ['.']

def isTwoDots (segment : List Char) : Bool := withDots segment = ['.', '.']

/-- Adds segments to those before, which come the latest first. -/
def resolveFrom (before : List (List Char)) : List (List Char) → List (List Char)
  | [] => before
  | segment :: rest =>
    if isTwoDots segment then
      resolveFrom (if rest.isEmpty then [] :: before.drop 1 else before.drop 1) rest
    else if isOneDot segment then
      resolveFrom (if rest.isEmpty then [] :: before else before) rest
    else resolveFrom (segment :: before) rest

/-- The segments that are left when the dots among `segments` have been followed from
`base`. -/
def resolve (base segments : List (List Char)) : List (List Char) :=
  (resolveFrom base.reverse segments).reverse

/-- Writes every segment after a slash. -/
def write (segments : List (List Char)) : List Char := segments.flatMap ('/' :: ·)

/-- The encoded segments of a path that is given without its first slash. -/
def parse (special : Bool) (base : List (List Char)) (cs : List Char) : List (List Char) :=
  (resolve base (cut special cs)).map (percentEncode inPath)

end LookupEngine.Url.Segments
