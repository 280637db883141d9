/-!
# Blank characters

Blanks are the characters with the Unicode property `White_Space`.  Terms are
cut at them, and numbers, booleans and option values are read without the
blanks around them.  Trimming and cutting work on lists of characters, and the
functions on strings are those lists read back.
-/

namespace LookupEngine.Text

/-- The characters with the property `White_Space`. -/
def isBlank (c : Char) : Bool :=
  let n := c.toNat
  (9 ≤ n && n ≤ 13) || n = 0x20 || n = 0x85 || n = 0xA0 || n = 0x1680 ||
    (0x2000 ≤ n && n ≤ 0x200A) || n = 0x2028 || n = 0x2029 || n = 0x202F ||
    n = 0x205F || n = 0x3000

/-- Removes from the end every character that satisfies `p`. -/
def dropEndWhile (p : Char → Bool) (cs : List Char) : List Char :=
  (cs.reverse.dropWhile p).reverse

def trimStartChars (cs : List Char) : List Char := cs.dropWhile isBlank

def trimEndChars (cs : List Char) : List Char := dropEndWhile isBlank cs

def trimChars (cs : List Char) : List Char := trimEndChars (trimStartChars cs)

def trimEnd (s : String) : String := String.ofList (trimEndChars s.toList)

/-- The text without the blanks around it. -/
def trim (s : String) : String := String.ofList (trimChars s.toList)

/-- The maximal runs of characters that are not blank, in order.  `run` is the
run that is being read. -/
def wordsFrom (run : List Char) : List Char → List (List Char)
  | [] => if run.isEmpty then [] else [run]
  | c :: rest =>
    if isBlank c then
      if run.isEmpty then wordsFrom [] rest else run :: wordsFrom [] rest
    else wordsFrom (run ++ [c]) rest

/-- The words of a text: what stands between its blanks. -/
def words (cs : List Char) : List (List Char) := wordsFrom [] cs

/-- Lowers the letters `A` to `Z`.  No keyword of the library holds a letter that
another character lowers to, so comparing with a keyword needs no more. -/
def lowerAscii (s : String) : String := s.map Char.toLower

end LookupEngine.Text
