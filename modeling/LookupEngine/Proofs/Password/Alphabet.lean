import Mathlib.Data.List.Basic
import Mathlib.Data.String.Basic
import LookupEngine.Lookup.Password
import LookupEngine.Proofs.Text.Split
/-!
# The alphabet of a password

An alphabet is written as parts with commas between them, each the name of a set or the characters
themselves.  It holds the characters of all parts once, in the order in which they first come up,
so another part only adds at the end what is new.
-/

namespace LookupEngine.Lookup.Password

/-! ## What a part stands for -/

def isHexadecimal (c : Char) : Bool := c.isDigit || ('a' ≤ c && c ≤ 'f')

/-- Visible, and neither a letter nor a digit. -/
def isPunctuation (c : Char) : Bool := '!' ≤ c && c ≤ '~' && !c.isAlphanum

/-- What the ASCII characters of a set have in common, by the name of the set. -/
def classOf? : String → Option (Char → Bool)
  | "ascii_letters" => some Char.isAlpha
  | "ascii_lowercase" => some Char.isLower
  | "ascii_uppercase" => some Char.isUpper
  | "digits" => some Char.isDigit
  | "hexdigits" => some isHexadecimal
  | "punctuation" => some isPunctuation
  | "alphanumeric" => some Char.isAlphanum
  | _ => none

/-- A part stands for the set that it names in any case and among any blanks, else for its own
characters. -/
inductive StandsFor (part : List Char) (c : Char) : Prop
  | named {p : Char → Bool}
    (hname : classOf? (Text.lowerAscii (Text.trim (String.ofList part))) = some p)
    (hascii : c.toNat < 128) (hc : p c = true) : StandsFor part c
  | literal (hname : classOf? (Text.lowerAscii (Text.trim (String.ofList part))) = none)
    (hc : c ∈ part) : StandsFor part c

/-- Some part of a text stands for a character. -/
def Expands (text : List Char) (c : Char) : Prop :=
  ∃ parts part, Text.Joins ',' parts text ∧ part ∈ parts ∧ part ≠ [] ∧ StandsFor part c

/-- The ASCII characters in order. -/
def ascii : List Char := (List.range 128).map Char.ofNat

theorem mem_ascii_iff (c : Char) : c ∈ ascii ↔ c.toNat < 128 := by
  constructor
  · have hall : ascii.all (fun d => d.toNat < 128) = true := by decide +kernel
    exact fun hc => of_decide_eq_true (List.all_eq_true.1 hall c hc)
  · exact fun hc => List.mem_map.2 ⟨c.toNat, List.mem_range.2 hc, Char.ofNat_toNat c⟩

/-- A list that goes through a class in the order of ASCII. -/
theorem mem_iff_of_filter {set : List Char} {p : Char → Bool} (h : ascii.filter p = set)
    (c : Char) : c ∈ set ↔ c.toNat < 128 ∧ p c = true := by
  rw [← h, List.mem_filter, mem_ascii_iff]

theorem mem_lowercase_iff (c : Char) : c ∈ lowercase ↔ c.toNat < 128 ∧ c.isLower = true :=
  mem_iff_of_filter (by decide +kernel) c

theorem mem_uppercase_iff (c : Char) : c ∈ uppercase ↔ c.toNat < 128 ∧ c.isUpper = true :=
  mem_iff_of_filter (by decide +kernel) c

theorem mem_decimals_iff (c : Char) : c ∈ decimals ↔ c.toNat < 128 ∧ c.isDigit = true :=
  mem_iff_of_filter (by decide +kernel) c

theorem isAlpha_iff (c : Char) : c.isAlpha = true ↔ c.isLower = true ∨ c.isUpper = true := by
  show (c.isUpper || c.isLower) = true ↔ _
  rw [Bool.or_eq_true, or_comm]

theorem isAlphanum_iff (c : Char) :
    c.isAlphanum = true ↔ (c.isLower = true ∨ c.isUpper = true) ∨ c.isDigit = true := by
  show (c.isAlpha || c.isDigit) = true ↔ _
  rw [Bool.or_eq_true, isAlpha_iff]

/-- The sets and the classes have the same names, and a set lists its class. -/
theorem named?_rel_classOf? (name : String) :
    Option.Rel (fun set p => ∀ c, c ∈ set ↔ c.toNat < 128 ∧ p c = true)
      (named? name) (classOf? name) := by
  unfold named?
  split
  · refine .some fun c => ?_
    rw [List.mem_append, mem_lowercase_iff, mem_uppercase_iff, ← and_or_left, isAlpha_iff]
  · exact .some mem_lowercase_iff
  · exact .some mem_uppercase_iff
  · exact .some mem_decimals_iff
  · exact .some (mem_iff_of_filter (by decide +kernel))
  · exact .some (mem_iff_of_filter (by decide +kernel))
  · refine .some fun c => ?_
    rw [List.mem_append, List.mem_append, mem_lowercase_iff, mem_uppercase_iff, mem_decimals_iff,
      ← and_or_left, ← and_or_left, isAlphanum_iff]
  · have hnone : classOf? name = none := by
      unfold classOf?
      split <;> simp_all
    rw [hnone]
    exact .none

theorem mem_expandPart_iff {part : List Char} {c : Char} :
    c ∈ expandPart part ↔ StandsFor part c := by
  have hrel := named?_rel_classOf? (Text.lowerAscii (Text.trim (String.ofList part)))
  rw [expandPart]
  generalize hset : named? _ = set? at hrel ⊢
  generalize hclass : classOf? _ = class? at hrel
  cases hrel with
  | none =>
    constructor
    · exact fun hc => .literal hclass hc
    · rintro (⟨hname, -, -⟩ | ⟨-, hc⟩)
      · rw [hclass] at hname
        cases hname
      · exact hc
  | some hmem =>
    constructor
    · intro hc
      obtain ⟨hascii, hp⟩ := (hmem c).1 hc
      exact .named hclass hascii hp
    · rintro (⟨hname, hascii, hp⟩ | ⟨hname, -⟩)
      · rw [hclass] at hname
        obtain rfl := Option.some.inj hname
        exact (hmem c).2 ⟨hascii, hp⟩
      · rw [hclass] at hname
        cases hname

/-! ## Each character once -/

theorem mem_dedupe {seen cs : List Char} {c : Char} :
    c ∈ dedupe seen cs ↔ c ∈ cs ∧ c ∉ seen := by
  induction cs generalizing seen with
  | nil => simp [dedupe]
  | cons d rest ih =>
    rw [dedupe]
    by_cases hseen : d ∈ seen
    · rw [if_pos (List.contains_iff_mem.2 hseen), ih, List.mem_cons]
      grind
    · rw [if_neg (mt List.contains_iff_mem.1 hseen), List.mem_cons, ih]
      grind

theorem nodup_dedupe (seen cs : List Char) : (dedupe seen cs).Nodup := by
  induction cs generalizing seen with
  | nil => exact List.nodup_nil
  | cons d rest ih =>
    rw [dedupe]
    split
    · exact ih seen
    · refine List.nodup_cons.2 ⟨fun hd => ?_, ih (d :: seen)⟩
      exact (mem_dedupe.1 hd).2 List.mem_cons_self

/-- Only which characters have been seen matters. -/
theorem dedupe_congr {seen other : List Char} (h : ∀ c, c ∈ seen ↔ c ∈ other) (cs : List Char) :
    dedupe seen cs = dedupe other cs := by
  induction cs generalizing seen other with
  | nil => rfl
  | cons d rest ih =>
    have hcontains : seen.contains d = other.contains d := by
      rw [Bool.eq_iff_iff, List.contains_iff_mem, List.contains_iff_mem, h]
    have hnext : ∀ c, c ∈ d :: seen ↔ c ∈ d :: other := fun c => by
      rw [List.mem_cons, List.mem_cons, h]
    rw [dedupe, dedupe, hcontains, ih h, ih hnext]

/-- What has been seen is what would be left out afterwards. -/
theorem dedupe_append_seen (more seen cs : List Char) :
    dedupe (more ++ seen) cs = (dedupe seen cs).filter (· ∉ more) := by
  induction cs generalizing seen with
  | nil => rfl
  | cons d rest ih =>
    rw [dedupe, dedupe]
    by_cases hseen : d ∈ seen
    · rw [if_pos (List.contains_iff_mem.2 hseen),
        if_pos (List.contains_iff_mem.2 (List.mem_append_right more hseen)), ih]
    rw [if_neg (mt List.contains_iff_mem.1 hseen), List.filter_cons, ← ih]
    by_cases hmore : d ∈ more
    · rw [if_pos (List.contains_iff_mem.2 (List.mem_append_left seen hmore)),
        if_neg (by simpa using hmore)]
      exact dedupe_congr (fun c => by grind) rest
    · rw [if_neg (by simp [hmore, hseen]), if_pos (by simpa using hmore)]
      congr 1
      exact dedupe_congr (fun c => by grind) rest

theorem dedupe_append (seen front back : List Char) :
    dedupe seen (front ++ back) = dedupe seen front ++ dedupe (front ++ seen) back := by
  induction front generalizing seen with
  | nil => rfl
  | cons d front ih =>
    rw [List.cons_append, dedupe, dedupe]
    split
    · next hseen =>
      rw [ih]
      congr 1
      exact dedupe_congr (fun c => by grind) back
    · rw [ih, List.cons_append]
      congr 2
      -- The same characters have been seen, in another order.
      exact dedupe_congr (fun c => by grind) back

/-! ## Alphabets -/

/-- The characters of all parts of a text in order, as often as they come up. -/
def expansion (text : List Char) : List Char :=
  ((Text.splitAny (· = ',') text).filter (!·.isEmpty)).flatMap expandPart

theorem mem_expansion_iff {text : List Char} {c : Char} : c ∈ expansion text ↔ Expands text c := by
  simp only [expansion, List.mem_flatMap, List.mem_filter, mem_expandPart_iff]
  constructor
  · rintro ⟨part, ⟨hpart, hne⟩, hc⟩
    exact ⟨_, part, Text.splitAny_eq_iff_joins.1 rfl, hpart, by simpa using hne, hc⟩
  · rintro ⟨parts, part, hjoins, hpart, hne, hc⟩
    rw [← Text.splitAny_eq_iff_joins] at hjoins
    exact ⟨part, ⟨hjoins ▸ hpart, by simpa using hne⟩, hc⟩

theorem expansion_append (front back : List Char) :
    expansion (front ++ ',' :: back) = expansion front ++ expansion back := by
  rw [expansion, Text.splitAny_append (by decide), List.filter_append, List.flatMap_append]
  rfl

theorem toList_alphabet (text : String) :
    (alphabet text).toList = dedupe [] (expansion text.toList) := by
  rw [alphabet, String.toList_ofList]
  rfl

theorem mem_alphabet_iff {text : String} {c : Char} :
    c ∈ (alphabet text).toList ↔ Expands text.toList c := by
  rw [toList_alphabet, mem_dedupe, mem_expansion_iff]
  exact and_iff_left List.not_mem_nil

theorem alphabet_append (front back : String) :
    (alphabet (front ++ "," ++ back)).toList =
      (alphabet front).toList ++
        (alphabet back).toList.filter (· ∉ (alphabet front).toList) := by
  have htext : (front ++ "," ++ back).toList = front.toList ++ ',' :: back.toList := by simp
  simp only [toList_alphabet]
  rw [htext, expansion_append, dedupe_append, dedupe_append_seen]
  congr 1
  apply List.filter_congr
  intro c _
  rw [decide_eq_decide, mem_dedupe]
  simp

/-- An alphabet holds no character twice, it holds those that some part stands for, and what is
written behind a comma adds its own alphabet without what was there before. -/
theorem alphabet_of_parts :
    (∀ text, (alphabet text).toList.Nodup) ∧
      (∀ text c, c ∈ (alphabet text).toList ↔ Expands text.toList c) ∧
      ∀ front back, (alphabet (front ++ "," ++ back)).toList =
        (alphabet front).toList ++
          (alphabet back).toList.filter (· ∉ (alphabet front).toList) := by
  refine ⟨fun text => ?_, fun text c => mem_alphabet_iff, alphabet_append⟩
  rw [toList_alphabet]
  exact nodup_dedupe [] _

example : alphabet " Digits ,hexdigits,,1é " = "0123456789abcdefé " := by decide +kernel

end LookupEngine.Lookup.Password
