import LookupEngine.Proofs.Text.Entries
import LookupEngine.Proofs.Text.Split
import LookupEngine.Proofs.Text.Words
import LookupEngine.Term
/-!
# Reading a term that has been written

A term that is written as a positional word and options, with any blanks between them and any
noise after the first word, is read as just that word and the last value of each key.  A word is
noise when it is no option: it has no equals sign, more than one, or nothing before it.
-/

namespace LookupEngine

namespace Term

/-- A key and a value as an option may have them. -/
structure IsOption (key value : String) : Prop where
  key_ne_nil : key.toList ≠ []
  key_solid : ∀ c ∈ key.toList, Text.isBlank c = false ∧ c ≠ '='
  value_solid : ∀ c ∈ value.toList, Text.isBlank c = false ∧ c ≠ '='

theorem isOption_iff_all {key value : String} :
    (!key.toList.isEmpty && key.toList.all (fun c => !Text.isBlank c && c != '=') &&
      value.toList.all fun c => !Text.isBlank c && c != '=') = true ↔ IsOption key value := by
  simp only [Bool.and_eq_true, Bool.not_eq_true', List.isEmpty_eq_false_iff, List.all_eq_true,
    bne_iff_ne]
  constructor
  · rintro ⟨⟨hne, hkey⟩, hvalue⟩
    exact ⟨hne, hkey, hvalue⟩
  · rintro ⟨hne, hkey, hvalue⟩
    exact ⟨⟨hne, hkey⟩, hvalue⟩

instance (key value : String) : Decidable (IsOption key value) :=
  decidable_of_iff _ isOption_iff_all

/-- The word that an option is written as. -/
def optionWord (key value : String) : List Char := key.toList ++ '=' :: value.toList

/-- A word that is an option: a key that is not empty, one equals sign, and a value. -/
def IsPair (word : List Char) : Prop :=
  ∃ key value, key ≠ [] ∧ '=' ∉ key ∧ '=' ∉ value ∧ word = key ++ '=' :: value

/-- A word that is none: without an equals sign, with more than one, or without a key. -/
def IsNoise (word : List Char) : Prop :=
  word.count '=' = 0 ∨ 1 < word.count '=' ∨ word.head? = some '='

instance (word : List Char) : Decidable (IsNoise word) := inferInstanceAs (Decidable (_ ∨ _ ∨ _))

/-- Words that stand for some options in order, with noise among them. -/
inductive Interspersed : List (String × String) → List (List Char) → Prop
  | nil : Interspersed [] []
  | option {key value : String} {pairs : List (String × String)} {words : List (List Char)}
      (hoption : IsOption key value) (hrest : Interspersed pairs words) :
      Interspersed ((key, value) :: pairs) (optionWord key value :: words)
  | noise {word : List Char} {pairs : List (String × String)} {words : List (List Char)}
      (hword : Text.IsWord word) (hnoise : IsNoise word) (hrest : Interspersed pairs words) :
      Interspersed pairs (word :: words)

/-- The words that a positional word and some options are written as.  Noise stands only after
the first of them. -/
inductive Writes : Option String → List (String × String) → List (List Char) → Prop
  | nothing : Writes none [] []
  | positional {word : String} {pairs : List (String × String)} {words : List (List Char)}
      (hword : Text.IsWord word.toList) (hpair : ¬ IsPair word.toList)
      (hrest : Interspersed pairs words) : Writes (some word) pairs (word.toList :: words)
  | options {key value : String} {pairs : List (String × String)} {words : List (List Char)}
      (hoption : IsOption key value) (hrest : Interspersed pairs words) :
      Writes none ((key, value) :: pairs) (optionWord key value :: words)

theorem pair?_append {key value : List Char} (hkey : key ≠ []) (hmark : '=' ∉ key)
    (hvalue : '=' ∉ value) :
    pair? (key ++ '=' :: value) = some (String.ofList key, String.ofList value) := by
  rw [pair?, Text.splitOnce_append hmark]
  have hempty : key.isEmpty = false := by simpa using hkey
  have hcontains : value.contains '=' = false := by simpa using hvalue
  simp only [hempty, hcontains, Bool.or_self, Bool.false_eq_true, if_false]

theorem isPair_of_pair? {word : List Char} {pair : String × String}
    (h : pair? word = some pair) : IsPair word := by
  rw [pair?] at h
  split at h
  · next key value hsplit =>
    split at h
    · cases h
    · next hfine =>
      rw [Bool.or_eq_true, not_or] at hfine
      refine ⟨key, value, ?_, Text.not_mem_of_splitOnce hsplit, ?_,
        Text.splitOnce_eq_some hsplit⟩
      · simpa using hfine.1
      · simpa using hfine.2
  · cases h

theorem pair?_eq_none_iff {word : List Char} : pair? word = none ↔ ¬ IsPair word := by
  constructor
  · rintro hnone ⟨key, value, hkey, hmark, hvalue, rfl⟩
    rw [pair?_append hkey hmark hvalue] at hnone
    cases hnone
  · intro h
    rw [Option.eq_none_iff_forall_not_mem]
    exact fun pair hpair => h (isPair_of_pair? hpair)

instance (word : List Char) : Decidable (IsPair word) :=
  decidable_of_iff (¬ pair? word = none) (not_iff_comm.1 pair?_eq_none_iff.symm)

theorem pair?_optionWord {key value : String} (h : IsOption key value) :
    pair? (optionWord key value) = some (key, value) := by
  rw [optionWord, pair?_append h.key_ne_nil (fun hmem => (h.key_solid _ hmem).2 rfl)
    (fun hmem => (h.value_solid _ hmem).2 rfl), String.ofList_toList, String.ofList_toList]

/-- Noise is exactly what is no option. -/
theorem isNoise_iff_not_isPair {word : List Char} : IsNoise word ↔ ¬ IsPair word := by
  constructor
  · rintro hnoise ⟨key, value, hkey, hmark, hvalue, rfl⟩
    have hcount : (key ++ '=' :: value).count '=' = 1 := by
      rw [List.count_append, List.count_cons_self, List.count_eq_zero.2 hmark,
        List.count_eq_zero.2 hvalue]
    rcases hnoise with hnone | hmany | hhead
    · omega
    · omega
    · rw [List.head?_append_of_ne_nil _ hkey] at hhead
      exact hmark (List.mem_of_mem_head? hhead)
  · intro h
    by_contra hnoise
    rw [IsNoise, not_or, not_or] at hnoise
    obtain ⟨hsome, hone, hhead⟩ := hnoise
    have hmem : '=' ∈ word := List.count_pos_iff.1 (Nat.pos_of_ne_zero hsome)
    obtain ⟨key, value, rfl, hmark⟩ := List.eq_append_cons_of_mem hmem
    rw [List.count_append, List.count_cons_self, List.count_eq_zero.2 hmark] at hone
    refine h ⟨key, value, ?_, hmark, List.count_eq_zero.1 (by omega), rfl⟩
    rintro rfl
    exact hhead rfl

theorem filterMap_pair?_of_interspersed {pairs : List (String × String)}
    {words : List (List Char)} (h : Interspersed pairs words) : words.filterMap pair? = pairs := by
  induction h with
  | nil => rfl
  | option hoption _ ih => rw [List.filterMap_cons_some (pair?_optionWord hoption), ih]
  | noise _ hnoise _ ih =>
    rw [List.filterMap_cons_none (pair?_eq_none_iff.2 (isNoise_iff_not_isPair.1 hnoise)), ih]

theorem ofWords_of_writes {positional : Option String} {pairs : List (String × String)}
    {words : List (List Char)} (h : Writes positional pairs words) :
    ofWords words = ⟨positional, Entries.ofList pairs⟩ := by
  cases h with
  | nothing => rfl
  | positional hword hpair hrest =>
    have hnone := pair?_eq_none_iff.2 hpair
    rw [ofWords, positionalOf, optionsOf, List.filterMap_cons_none hnone,
      filterMap_pair?_of_interspersed hrest, hnone, String.ofList_toList]
    rfl
  | options hoption hrest =>
    have hsome := pair?_optionWord hoption
    rw [ofWords, positionalOf, optionsOf, List.filterMap_cons_some hsome,
      filterMap_pair?_of_interspersed hrest, hsome]
    rfl

/-- A term of one word that is no option has only this word. -/
theorem parse_of_isWord {word : String} (hword : Text.IsWord word.toList)
    (hpair : ¬ IsPair word.toList) : parse word = ⟨some word, []⟩ := by
  rw [parse, Text.words_of_isWord hword]
  exact ofWords_of_writes (.positional hword hpair .nil)

theorem isWord_optionWord {key value : String} (h : IsOption key value) :
    Text.IsWord (optionWord key value) where
  ne_nil := by simp [optionWord]
  solid := by
    intro c hc
    rw [optionWord, List.mem_append, List.mem_cons] at hc
    rcases hc with hkey | rfl | hvalue
    · exact (h.key_solid c hkey).1
    · decide
    · exact (h.value_solid c hvalue).1

/-- The term that writes some options with one space between them. -/
def ofOptions (pairs : List (String × String)) : String :=
  String.ofList ([' '].intercalate (pairs.map fun (key, value) => optionWord key value))

theorem interspersed_of_options {pairs : List (String × String)}
    (h : ∀ pair ∈ pairs, IsOption pair.1 pair.2) :
    Interspersed pairs (pairs.map fun (key, value) => optionWord key value) := by
  induction pairs with
  | nil => exact .nil
  | cons pair rest ih =>
    obtain ⟨hpair, hrest⟩ := List.forall_mem_cons.1 h
    exact .option hpair (ih hrest)

theorem parse_ofOptions {pairs : List (String × String)}
    (h : ∀ pair ∈ pairs, IsOption pair.1 pair.2) :
    parse (ofOptions pairs) = ⟨none, Entries.ofList pairs⟩ := by
  have hwords : ∀ word ∈ pairs.map fun (key, value) => optionWord key value, Text.IsWord word :=
    List.forall_mem_map.2 fun pair hpair => isWord_optionWord (h pair hpair)
  have hwrites : Writes none pairs (pairs.map fun (key, value) => optionWord key value) := by
    cases pairs with
    | nil => exact .nothing
    | cons pair rest =>
      obtain ⟨hpair, hrest⟩ := List.forall_mem_cons.1 h
      exact .options hpair (interspersed_of_options hrest)
  rw [parse, ofOptions, String.toList_ofList, Text.words_intercalate_space hwords,
    ofWords_of_writes hwrites]

theorem get?_ofOptions {pairs : List (String × String)}
    (h : ∀ pair ∈ pairs, IsOption pair.1 pair.2) (key : String) :
    (parse (ofOptions pairs)).get? key = Entries.lastValue pairs key := by
  rw [get?, parse_ofOptions h, Entries.find?_ofList]

/-- Whatever blanks and noise a term is written with, it is read as its positional word and the
map that gives each key its last value. -/
theorem parse_of_writes {positional : Option String} {pairs : List (String × String)}
    {words : List (List Char)} {text : String} (hwrites : Writes positional pairs words)
    (hspaced : Text.Spaced words text.toList) :
    (parse text).positional = positional ∧ (parse text).options.Sorted ∧
      ∀ key, (parse text).get? key = Entries.lastValue pairs key := by
  have hparse : parse text = ⟨positional, Entries.ofList pairs⟩ := by
    rw [parse, Text.words_eq_iff_spaced.2 hspaced, ofWords_of_writes hwrites]
  rw [hparse]
  exact ⟨rfl, Entries.sorted_ofList pairs, Entries.find?_ofList pairs⟩

/-- A path, a length that is said twice, an empty note, and noise of each kind. -/
def noisyTerm : String := "  /tmp/pw\t stray a=b=c length=8\n=x length=9 note= "

def noisyWords : List (List Char) :=
  ["/tmp/pw", "stray", "a=b=c", "length=8", "=x", "length=9", "note="].map String.toList

theorem parse_of_writes_noisy :
    Writes (some "/tmp/pw") [("length", "8"), ("length", "9"), ("note", "")] noisyWords ∧
      Text.Spaced noisyWords noisyTerm.toList ∧
      (parse noisyTerm).positional = some "/tmp/pw" ∧
      (parse noisyTerm).get? "length" = some "9" := by
  have hfirst : ¬ IsPair "/tmp/pw".toList := by decide
  have hlength : IsOption "length" "8" := by decide
  have hagain : IsOption "length" "9" := by decide
  have hnote : IsOption "note" "" := by decide
  have hwrites : Writes (some "/tmp/pw") [("length", "8"), ("length", "9"), ("note", "")]
      noisyWords :=
    .positional (by decide) hfirst <|
    .noise (by decide) (by decide) <|
    .noise (by decide) (by decide) <|
    .option hlength <|
    .noise (by decide) (by decide) <|
    .option hagain <|
    .option hnote .nil
  have hspaced : Text.Spaced noisyWords noisyTerm.toList :=
    Text.words_eq_iff_spaced.1 (by decide)
  obtain ⟨hpositional, -, hget⟩ := parse_of_writes hwrites hspaced
  exact ⟨hwrites, hspaced, hpositional, (hget "length").trans (by decide)⟩

/-! ## One term behind another -/

theorem positionalOf_append {front : List (List Char)} (hne : front ≠ [])
    (back : List (List Char)) : positionalOf (front ++ back) = positionalOf front := by
  cases front with
  | nil => exact absurd rfl hne
  | cons first rest => rfl

theorem get?_ofWords (words : List (List Char)) (key : String) :
    (ofWords words).get? key = Entries.lastValue (words.filterMap pair?) key :=
  Entries.find?_ofList _ key

/-- Two texts with blanks between them are read as the options of the first, overridden by those
of the second, and as the positional word of the first, or of the second if there is no word in
the first. -/
theorem parse_of_joined_terms {front gap back : String} (hne : gap ≠ "")
    (hgap : Text.IsGap gap.toList) :
    (parse (front ++ gap ++ back)).options.Sorted ∧
      (∀ key, (parse (front ++ gap ++ back)).get? key =
        ((parse back).get? key).or ((parse front).get? key)) ∧
      ((∃ c ∈ front.toList, Text.isBlank c = false) →
        (parse (front ++ gap ++ back)).positional = (parse front).positional) ∧
      ((∀ c ∈ front.toList, Text.isBlank c = true) →
        (parse (front ++ gap ++ back)).positional = (parse back).positional) := by
  have hwords : Text.words (front ++ gap ++ back).toList =
      Text.words front.toList ++ Text.words back.toList := by
    rw [String.toList_append, String.toList_append]
    exact Text.words_append_gap (fun hempty => hne (String.toList_eq_nil_iff.1 hempty)) hgap _ _
  refine ⟨Entries.sorted_ofList _, ?_, ?_, ?_⟩
  · intro key
    rw [parse, parse, parse, hwords, get?_ofWords, get?_ofWords, get?_ofWords,
      List.filterMap_append, Entries.lastValue_append]
  · rintro ⟨c, hc, hsolid⟩
    rw [parse, hwords]
    apply positionalOf_append
    intro hnone
    have hblank := Text.words_eq_nil_iff.1 hnone c hc
    rw [hsolid] at hblank
    cases hblank
  · intro hblank
    rw [parse, hwords, Text.words_of_isGap hblank]
    rfl

/-- The length that is said last counts, and a word that would be positional in the second text
alone is noise behind the first. -/
theorem parse_of_joined_terms_length :
    "\u2003\t" ≠ "" ∧ Text.IsGap "\u2003\t".toList ∧
      (parse ("/tmp/pw length=8 a==b" ++ "\u2003\t" ++ "stray length=9 note=")).get? "length" =
        some "9" ∧
      (parse ("/tmp/pw length=8 a==b" ++ "\u2003\t" ++ "stray length=9 note=")).positional =
        some "/tmp/pw" := by
  have hne : "\u2003\t" ≠ "" := by decide
  have hgap : Text.IsGap "\u2003\t".toList := by decide
  obtain ⟨-, hoptions, hpositional, -⟩ :=
    @parse_of_joined_terms "/tmp/pw length=8 a==b" _ "stray length=9 note=" hne hgap
  exact ⟨hne, hgap, (hoptions "length").trans (by decide +kernel),
    (hpositional ⟨'/', by decide, by decide⟩).trans (by decide +kernel)⟩

end Term

end LookupEngine
