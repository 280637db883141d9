import LookupEngine.Lookup.Reading
import LookupEngine.Proofs.Machine.Action
import LookupEngine.Proofs.Text.Blank
/-!
# Files that cannot be read

However strict the lookup `file` is, the files that can be read give the same values: what is left
of their texts when they are stripped, in the order of the terms.  The manners differ only where a
file cannot be read.  Two of them pass it over, and the strict one fails at the first such file and
names its path.
-/

namespace LookupEngine.Lookup.File

open LookupEngine.Action

/-! ## Stripping -/

def isLineBreak (c : Char) : Bool := c = '\n' || c = '\r'

/-- At one end of a text, everything of a kind has been removed, or nothing if that is not wanted.
`edge` is the character that then stands at this end. -/
def Clears (wanted : Bool) (kind : Char → Bool) (removed : List Char) (edge : Option Char) : Prop :=
  if wanted then (∀ c ∈ removed, kind c = true) ∧ ∀ c, edge = some c → kind c = false
  else removed = []

/-- A value is what is left of a text without the blanks in front, if these are to be stripped, and
without the line breaks at the end, if these are. -/
def Strips (lstrip rstrip : Bool) (text value : List Char) : Prop :=
  ∃ front back, text = front ++ value ++ back ∧
    Clears lstrip Text.isBlank front value.head? ∧
    Clears rstrip isLineBreak back value.getLast?

theorem Clears.of_edge {wanted : Bool} {kind : Char → Bool} {removed : List Char}
    {edge edge' : Option Char} (h : Clears wanted kind removed edge)
    (hedge : ∀ c, edge' = some c → edge = some c) : Clears wanted kind removed edge' := by
  cases wanted with
  | false => exact h
  | true => exact ⟨h.1, fun c hc => h.2 c (hedge c hc)⟩

theorem exists_clears_front (wanted : Bool) (kind : Char → Bool) (cs : List Char) :
    ∃ front, cs = front ++ (if wanted then cs.dropWhile kind else cs) ∧
      Clears wanted kind front (if wanted then cs.dropWhile kind else cs).head? := by
  cases wanted with
  | false => exact ⟨[], rfl, rfl⟩
  | true =>
    refine ⟨cs.takeWhile kind, List.takeWhile_append_dropWhile.symm, ?_, ?_⟩
    · exact fun c hc => List.mem_takeWhile_imp hc
    · exact fun c hc => Text.not_of_head?_dropWhile hc

theorem exists_clears_back (wanted : Bool) (kind : Char → Bool) (cs : List Char) :
    ∃ back, cs = (if wanted then cs.rdropWhile kind else cs) ++ back ∧
      Clears wanted kind back (if wanted then cs.rdropWhile kind else cs).getLast? := by
  cases wanted with
  | false => exact ⟨[], (List.append_nil cs).symm, rfl⟩
  | true =>
    refine ⟨cs.rtakeWhile kind, (List.rdropWhile_append_rtakeWhile).symm, ?_, ?_⟩
    · exact fun c hc => List.mem_rtakeWhile_imp hc
    · exact fun c hc => Text.not_of_getLast?_rdropWhile hc

theorem head?_of_head?_stripped {wanted : Bool} {kind : Char → Bool} {cs : List Char} {c : Char}
    (h : (if wanted then cs.rdropWhile kind else cs).head? = some c) : cs.head? = some c := by
  cases wanted with
  | false => exact h
  | true => exact Text.head?_of_head?_rdropWhile h

theorem toList_strip (manner : Manner) (text : String) :
    (strip manner text).toList =
      (if manner.rstrip then
        (if manner.lstrip then text.toList.dropWhile Text.isBlank
          else text.toList).rdropWhile isLineBreak
        else if manner.lstrip then text.toList.dropWhile Text.isBlank else text.toList) := by
  rw [strip, String.toList_ofList]
  rfl

theorem strips_strip (manner : Manner) (text : String) :
    Strips manner.lstrip manner.rstrip text.toList (strip manner text).toList := by
  rw [toList_strip]
  obtain ⟨front, hfront, hblank⟩ := exists_clears_front manner.lstrip Text.isBlank text.toList
  obtain ⟨back, hback, hbreak⟩ := exists_clears_back manner.rstrip isLineBreak
    (if manner.lstrip then text.toList.dropWhile Text.isBlank else text.toList)
  refine ⟨front, back, ?_, ?_, hbreak⟩
  · calc text.toList
        = front ++ (if manner.lstrip then text.toList.dropWhile Text.isBlank else text.toList) :=
          hfront
      _ = front ++ (_ ++ back) := congrArg (front ++ ·) hback
      _ = front ++ _ ++ back := (List.append_assoc _ _ _).symm
  · exact hblank.of_edge fun c hc => head?_of_head?_stripped hc

theorem Clears.dropWhile_eq {wanted : Bool} {kind : Char → Bool} {front rest : List Char}
    (h : Clears wanted kind front rest.head?) :
    (if wanted then (front ++ rest).dropWhile kind else front ++ rest) = rest := by
  cases wanted with
  | false =>
    obtain rfl : front = [] := h
    rfl
  | true =>
    obtain ⟨hfront, hrest⟩ := h
    rw [if_pos rfl, List.dropWhile_append_of_pos hfront]
    exact (Text.dropWhile_eq_self_iff_head? kind rest).2 hrest

theorem Clears.rdropWhile_eq {wanted : Bool} {kind : Char → Bool} {back rest : List Char}
    (h : Clears wanted kind back rest.getLast?) :
    (if wanted then (rest ++ back).rdropWhile kind else rest ++ back) = rest := by
  cases wanted with
  | false =>
    obtain rfl : back = [] := h
    exact List.append_nil rest
  | true =>
    obtain ⟨hback, hrest⟩ := h
    rw [if_pos rfl, Text.rdropWhile_append_of_pos hback]
    exact (Text.rdropWhile_eq_self_iff_getLast? kind rest).2 hrest

theorem isBlank_of_isLineBreak {c : Char} (h : isLineBreak c = true) : Text.isBlank c = true := by
  rw [isLineBreak, Bool.or_eq_true, decide_eq_true_eq, decide_eq_true_eq] at h
  obtain rfl | rfl := h
  · decide
  · decide

theorem Clears.forall_isBlank {wanted : Bool} {back : List Char} {edge : Option Char}
    (h : Clears wanted isLineBreak back edge) : ∀ c ∈ back, Text.isBlank c = true := by
  cases wanted with
  | false =>
    obtain rfl : back = [] := h
    exact nofun
  | true => exact fun c hc => isBlank_of_isLineBreak (h.1 c hc)

/-- What is removed can be removed in front first and then at the end. -/
theorem Strips.exists_front_back {lstrip rstrip : Bool} {text value : List Char}
    (h : Strips lstrip rstrip text value) :
    ∃ front back, text = front ++ (value ++ back) ∧
      Clears lstrip Text.isBlank front (value ++ back).head? ∧
      Clears rstrip isLineBreak back value.getLast? := by
  obtain ⟨front, back, rfl, hfront, hback⟩ := h
  cases value with
  | cons c rest => exact ⟨front, back, List.append_assoc _ _ _, hfront, hback⟩
  | nil =>
    cases lstrip with
    | false => exact ⟨front, back, List.append_assoc _ _ _, hfront, hback⟩
    | true =>
      -- Nothing is left, so the line breaks at the end are blanks that go in front as well.
      refine ⟨front ++ back, [], by simp, ⟨?_, nofun⟩, ?_⟩
      · exact List.forall_mem_append.2 ⟨hfront.1, hback.forall_isBlank⟩
      · cases rstrip with
        | false => rfl
        | true => exact ⟨nofun, nofun⟩

/-- No other value is left of a text, however strict the manner is. -/
theorem Strips.eq_strip {manner : Manner} {text value : String}
    (h : Strips manner.lstrip manner.rstrip text.toList value.toList) :
    value = strip manner text := by
  obtain ⟨front, back, htext, hfront, hback⟩ := h.exists_front_back
  rw [← String.toList_inj, toList_strip, htext, hfront.dropWhile_eq, hback.rdropWhile_eq]

/-! ## How strict to be -/

/-- The options say a word about files that cannot be read, in any case and with any blanks
around it. -/
def Says (options : Options) (word : String) : Prop :=
  ∃ text, options.text? "errors" = some text ∧ Text.lowerAscii (Text.trim text) = word

instance (options : Options) (word : String) : Decidable (Says options word) :=
  decidable_of_iff
    ((options.text? "errors").map (fun text => Text.lowerAscii (Text.trim text)) = some word)
    Option.map_eq_some_iff

/-- How strict the options ask to be: strict, unless they say another word. -/
inductive Asks (options : Options) : Strictness → Prop
  | ignore (h : Says options "ignore") : Asks options .ignore
  | warn (h : Says options "warn") : Asks options .warn
  | strict (hignore : ¬ Says options "ignore") (hwarn : ¬ Says options "warn") :
    Asks options .strict

theorem errors_of_says {options : Options} {word : String} (h : Says options word) :
    (manner options).errors = Strictness.ofWord word := by
  obtain ⟨text, htext, rfl⟩ := h
  rw [manner, htext]
  rfl

theorem errors_of_not_says {options : Options} (hignore : ¬ Says options "ignore")
    (hwarn : ¬ Says options "warn") : (manner options).errors = .strict := by
  rw [manner]
  cases htext : options.text? "errors" with
  | none => rfl
  | some text =>
    rw [Option.map_some, Option.getD_some, Strictness.parse, Strictness.ofWord,
      if_neg fun hword => hignore ⟨text, htext, hword⟩,
      if_neg fun hword => hwarn ⟨text, htext, hword⟩]

theorem Asks.errors_eq {options : Options} {mode : Strictness} (h : Asks options mode) :
    (manner options).errors = mode := by
  cases h with
  | ignore h => exact errors_of_says h
  | warn h => exact errors_of_says h
  | strict hignore hwarn => exact errors_of_not_says hignore hwarn

/-! ## Reading -/

section

variable (context : Context) (world : World)

/-- The path of a term leads to a text. -/
def Readable (term : String) : Prop :=
  ∃ text, world.disk.readText world.here (context.resolve world.environment term) = .ok text

instance (term : String) : Decidable (Readable context world term) :=
  match h : world.disk.readText world.here (context.resolve world.environment term) with
  | .ok text => isTrue ⟨text, h⟩
  | .error _ => isFalse fun ⟨_, htext⟩ => nomatch h.symm.trans htext

/-- What is read from some terms in order: the stripped texts of those that can be read. -/
inductive Reads (lstrip rstrip : Bool) : List String → List Value → Prop
  | nil : Reads lstrip rstrip [] []
  | read {term text value : String} {rest : List String} {values : List Value}
    (htext : world.disk.readText world.here (context.resolve world.environment term) = .ok text)
    (hvalue : Strips lstrip rstrip text.toList value.toList)
    (hrest : Reads lstrip rstrip rest values) :
    Reads lstrip rstrip (term :: rest) (.string value :: values)
  | skip {term : String} {rest : List String} {values : List Value}
    (h : ¬ Readable context world term) (hrest : Reads lstrip rstrip rest values) :
    Reads lstrip rstrip (term :: rest) values

/-- The first of some terms that cannot be read, and what is wrong with it. -/
def IsFirstFault (terms : List String) (term : String) (fault : Fault) : Prop :=
  ∃ before after, terms = before ++ term :: after ∧
    (∀ other ∈ before, Readable context world other) ∧
    world.disk.readText world.here (context.resolve world.environment term) = .error fault

/-- How a lookup answers that has to read every term. -/
structure AnswersStrictly (terms : List String) (values : List Value)
    (answer : Except Failure (List Value) × World) : Prop where
  succeeds_iff : (∃ found, answer.1 = .ok found) ↔ ∀ term ∈ terms, Readable context world term
  ok : (∀ term ∈ terms, Readable context world term) → answer = (.ok values, world)
  error : ¬ (∀ term ∈ terms, Readable context world term) →
    ∃ term fault, IsFirstFault context world terms term fault ∧
      answer = (.error (.sourceUnavailable (context.resolve world.environment term)
        (.fault fault)), world)

/-- The value of a term, or nothing if it cannot be read. -/
def contents (lstrip rstrip : Bool) (term : String) : List Value :=
  -- Stripping does not ask how strict the manner is, so any will do.
  match world.disk.readText world.here (context.resolve world.environment term) with
  | .ok text => [.string (strip ⟨rstrip, lstrip, .strict⟩ text)]
  | .error _ => []

theorem not_readable_of_fault {term : String} {fault : Fault}
    (h : world.disk.readText world.here (context.resolve world.environment term) = .error fault) :
    ¬ Readable context world term := by
  rintro ⟨text, htext⟩
  rw [h] at htext
  cases htext

theorem reads_contents (lstrip rstrip : Bool) (terms : List String) :
    Reads context world lstrip rstrip terms
      (terms.flatMap (contents context world lstrip rstrip)) := by
  induction terms with
  | nil => exact .nil
  | cons term rest ih =>
    rw [List.flatMap_cons, contents]
    cases hread : world.disk.readText world.here (context.resolve world.environment term) with
    | ok text => exact .read hread (strips_strip ⟨rstrip, lstrip, .strict⟩ text) ih
    | error fault => exact .skip (not_readable_of_fault context world hread) ih

theorem exists_isFirstFault {terms : List String}
    (h : ¬ ∀ term ∈ terms, Readable context world term) :
    ∃ term fault, IsFirstFault context world terms term fault := by
  induction terms with
  | nil => exact absurd (fun _ hmem => nomatch hmem) h
  | cons term rest ih =>
    cases hread : world.disk.readText world.here (context.resolve world.environment term) with
    | error fault => exact ⟨term, fault, [], rest, rfl, nofun, hread⟩
    | ok text =>
      have hterm : Readable context world term := ⟨text, hread⟩
      have hrest : ¬ ∀ other ∈ rest, Readable context world other :=
        fun hrest => h (List.forall_mem_cons.2 ⟨hterm, hrest⟩)
      obtain ⟨first, fault, before, after, rfl, hbefore, hfault⟩ := ih hrest
      exact ⟨first, fault, term :: before, after, rfl,
        List.forall_mem_cons.2 ⟨hterm, hbefore⟩, hfault⟩

variable {context world}

/-- No other values are read from the terms. -/
theorem Reads.eq_flatMap_contents {lstrip rstrip : Bool} {terms : List String}
    {values : List Value} (h : Reads context world lstrip rstrip terms values) :
    values = terms.flatMap (contents context world lstrip rstrip) := by
  induction h with
  | nil => rfl
  | @read term text value rest values htext hvalue hrest ih =>
    have hvalue : value = strip ⟨rstrip, lstrip, .strict⟩ text := hvalue.eq_strip
    rw [List.flatMap_cons, contents, htext, ih, hvalue]
    rfl
  | @skip term rest values h hrest ih =>
    rw [List.flatMap_cons, contents]
    cases hread : world.disk.readText world.here (context.resolve world.environment term) with
    | ok text => exact absurd ⟨text, hread⟩ h
    | error fault => exact ih

theorem IsFirstFault.find?_eq {terms : List String} {term : String} {fault : Fault}
    (h : IsFirstFault context world terms term fault) :
    terms.find? (fun other => decide (¬ Readable context world other)) = some term := by
  obtain ⟨before, after, rfl, hbefore, hfault⟩ := h
  rw [List.find?_eq_some_iff_append]
  refine ⟨decide_eq_true (not_readable_of_fault context world hfault), before, after, rfl, ?_⟩
  intro other hother
  simpa using hbefore other hother

theorem IsFirstFault.unique {terms : List String} {term other : String} {fault fault' : Fault}
    (h : IsFirstFault context world terms term fault)
    (hother : IsFirstFault context world terms other fault') : term = other ∧ fault = fault' := by
  obtain rfl := Option.some.inj (h.find?_eq.symm.trans hother.find?_eq)
  obtain ⟨-, -, -, -, hfault⟩ := h
  obtain ⟨-, -, -, -, hfault'⟩ := hother
  exact ⟨rfl, Except.error.inj (hfault.symm.trans hfault')⟩

variable {options : Options} {term : String} {lstrip rstrip : Bool}

theorem perform_one_of_ok (hlstrip : options.flagOr "lstrip" false = lstrip)
    (hrstrip : options.flagOr "rstrip" false = rstrip) (h : Readable context world term) :
    (one context (manner options) term).perform world =
      (.ok (contents context world lstrip rstrip term), world) := by
  obtain ⟨text, htext⟩ := h
  subst hlstrip hrstrip
  rw [one, perform_bind_of_ok _ (perform_get world), contents]
  dsimp only
  rw [htext]
  rfl

theorem perform_one_of_lenient (hlstrip : options.flagOr "lstrip" false = lstrip)
    (hrstrip : options.flagOr "rstrip" false = rstrip)
    (herrors : (manner options).errors ≠ .strict) :
    (one context (manner options) term).perform world =
      (.ok (contents context world lstrip rstrip term), world) := by
  cases hread : world.disk.readText world.here (context.resolve world.environment term) with
  | ok text => exact perform_one_of_ok hlstrip hrstrip ⟨text, hread⟩
  | error fault =>
    rw [one, perform_bind_of_ok _ (perform_get world), contents]
    dsimp only
    rw [hread]
    dsimp only
    rw [if_neg herrors, perform_pure]

theorem perform_one_of_fault {fault : Fault} (herrors : (manner options).errors = .strict)
    (h : world.disk.readText world.here (context.resolve world.environment term) = .error fault) :
    (one context (manner options) term).perform world =
      (.error (.sourceUnavailable (context.resolve world.environment term) (.fault fault)),
        world) := by
  rw [one, perform_bind_of_ok _ (perform_get world)]
  dsimp only
  rw [h]
  dsimp only
  rw [if_pos herrors]
  rfl

theorem perform_run_of_lenient (hlive : world.isCancelled = false)
    (hlstrip : options.flagOr "lstrip" false = lstrip)
    (hrstrip : options.flagOr "rstrip" false = rstrip)
    (herrors : (manner options).errors ≠ .strict) (terms : List String) :
    (run context options terms).perform world =
      (.ok (terms.flatMap (contents context world lstrip rstrip)), world) := by
  apply perform_collect_of_ok World.isCancelled _ hlive
  exact fun term _ => perform_one_of_lenient hlstrip hrstrip herrors

theorem perform_run_of_readable (hlive : world.isCancelled = false)
    (hlstrip : options.flagOr "lstrip" false = lstrip)
    (hrstrip : options.flagOr "rstrip" false = rstrip) {terms : List String}
    (h : ∀ term ∈ terms, Readable context world term) :
    (run context options terms).perform world =
      (.ok (terms.flatMap (contents context world lstrip rstrip)), world) := by
  apply perform_collect_of_ok World.isCancelled _ hlive
  exact fun term hterm => perform_one_of_ok hlstrip hrstrip (h term hterm)

theorem perform_run_of_isFirstFault (hlive : world.isCancelled = false)
    (herrors : (manner options).errors = .strict) {terms : List String} {fault : Fault}
    (h : IsFirstFault context world terms term fault) :
    (run context options terms).perform world =
      (.error (.sourceUnavailable (context.resolve world.environment term) (.fault fault)),
        world) := by
  obtain ⟨before, after, rfl, hbefore, hfault⟩ := h
  have hread : (run context options before).perform world = (.ok _, world) :=
    perform_run_of_readable hlive rfl rfl hbefore
  exact perform_collect_of_error World.isCancelled _ hread hlive
    (perform_one_of_fault herrors hfault) after

theorem answersStrictly_run (hlive : world.isCancelled = false)
    (hlstrip : options.flagOr "lstrip" false = lstrip)
    (hrstrip : options.flagOr "rstrip" false = rstrip)
    (herrors : (manner options).errors = .strict) (terms : List String) :
    AnswersStrictly context world terms
      (terms.flatMap (contents context world lstrip rstrip))
      ((run context options terms).perform world) := by
  have herror : ¬ (∀ term ∈ terms, Readable context world term) →
      ∃ term fault, IsFirstFault context world terms term fault ∧
        (run context options terms).perform world =
          (.error (.sourceUnavailable (context.resolve world.environment term) (.fault fault)),
            world) := by
    intro h
    obtain ⟨term, fault, hfirst⟩ := exists_isFirstFault context world h
    exact ⟨term, fault, hfirst, perform_run_of_isFirstFault hlive herrors hfirst⟩
  refine ⟨⟨?_, ?_⟩, perform_run_of_readable hlive hlstrip hrstrip, herror⟩
  · rintro ⟨found, hfound⟩
    by_contra hnot
    obtain ⟨term, fault, -, hrun⟩ := herror hnot
    rw [hrun] at hfound
    cases hfound
  · intro h
    rw [perform_run_of_readable hlive rfl rfl h]
    exact ⟨_, rfl⟩

/-- For any files and any stripping there are values, those of the files that can be read, that
both lenient manners give, and that the strict one gives if every file can be read.  If not, it
fails at the first that cannot. -/
theorem run_agrees_on_readable (hlive : world.isCancelled = false) (terms : List String)
    (lstrip rstrip : Bool) :
    ∃ values, Reads context world lstrip rstrip terms values ∧
      ∀ options, options.flagOr "lstrip" false = lstrip → options.flagOr "rstrip" false = rstrip →
        (Asks options .ignore ∨ Asks options .warn →
          (run context options terms).perform world = (.ok values, world)) ∧
        (Asks options .strict →
          AnswersStrictly context world terms values ((run context options terms).perform world)) := by
  refine ⟨_, reads_contents context world lstrip rstrip terms, ?_⟩
  intro options hlstrip hrstrip
  constructor
  · intro hlenient
    apply perform_run_of_lenient hlive hlstrip hrstrip
    rcases hlenient with hignore | hwarn
    · rw [hignore.errors_eq]
      decide
    · rw [hwarn.errors_eq]
      decide
  · intro hstrict
    exact answersStrictly_run hlive hlstrip hrstrip hstrict.errors_eq terms

end

/-- A greeting, and beside it a file whose bytes are no text. -/
def greetingWorld : World :=
  .still
    ⟨[(["srv"], .directory Disk.plainDirectory),
      (["srv", "greeting"], .file " \thello \n\r\n".toUTF8.toList Disk.plainFile),
      (["srv", "raw"], .file [0xFF, 0x0A] Disk.plainFile)]⟩
    ⟨[], none⟩

def greetingTerms : List String := ["greeting", "raw", "absent", "greeting"]

def greetingOptions (errors : String) : Options :=
  [("errors", .string errors), ("lstrip", .bool true), ("rstrip", .string "Yes")]

theorem contents_greeting :
    contents ⟨.default, some "/srv"⟩ greetingWorld true true "greeting" = [.string "hello "] := by
  have hread : greetingWorld.disk.readText greetingWorld.here
      (Context.resolve ⟨.default, some "/srv"⟩ greetingWorld.environment "greeting") =
        .ok " \thello \n\r\n" := by
    decide +kernel
  have hstrip : strip ⟨true, true, .strict⟩ " \thello \n\r\n" = "hello " := by
    decide +kernel
  rw [contents, hread, ← hstrip]

theorem flatMap_contents_greetingTerms :
    greetingTerms.flatMap (contents ⟨.default, some "/srv"⟩ greetingWorld true true) =
      [.string "hello ", .string "hello "] := by
  have hraw : greetingWorld.disk.readText greetingWorld.here
      (Context.resolve ⟨.default, some "/srv"⟩ greetingWorld.environment "raw") =
        .error .notText := by
    decide +kernel
  have habsent : greetingWorld.disk.readText greetingWorld.here
      (Context.resolve ⟨.default, some "/srv"⟩ greetingWorld.environment "absent") =
        .error .missing := by
    decide +kernel
  rw [greetingTerms, List.flatMap_cons, contents_greeting, List.flatMap_cons, contents, hraw,
    List.flatMap_cons, contents, habsent, List.flatMap_singleton, contents_greeting]
  rfl

theorem isFirstFault_raw :
    IsFirstFault ⟨.default, some "/srv"⟩ greetingWorld greetingTerms "raw" .notText := by
  refine ⟨["greeting"], ["absent", "greeting"], rfl, ?_, by decide +kernel⟩
  rw [List.forall_mem_singleton]
  exact ⟨" \thello \n\r\n", by decide +kernel⟩

/-- Two words for being lenient give the greeting twice, and no such word gives an error, unless
there is nothing but the greeting to read. -/
theorem run_agrees_on_readable_of_greeting :
    greetingWorld.isCancelled = false ∧
      (run ⟨.default, some "/srv"⟩ (greetingOptions " Warn") greetingTerms).perform greetingWorld =
        (.ok [.string "hello ", .string "hello "], greetingWorld) ∧
      (run ⟨.default, some "/srv"⟩ (greetingOptions "IGNORE") greetingTerms).perform
          greetingWorld =
        (.ok [.string "hello ", .string "hello "], greetingWorld) ∧
      (run ⟨.default, some "/srv"⟩ (greetingOptions "never") greetingTerms).perform
          greetingWorld =
        (.error (.sourceUnavailable "/srv/raw" (.fault .notText)), greetingWorld) ∧
      (run ⟨.default, some "/srv"⟩ (greetingOptions "never") ["greeting"]).perform
          greetingWorld =
        (.ok [.string "hello "], greetingWorld) := by
  obtain ⟨values, hreads, hagrees⟩ :=
    @run_agrees_on_readable ⟨.default, some "/srv"⟩ greetingWorld rfl greetingTerms true true
  obtain rfl := hreads.eq_flatMap_contents.trans flatMap_contents_greetingTerms
  have hwarn : Asks (greetingOptions " Warn") .warn := .warn ⟨" Warn", rfl, by decide +kernel⟩
  have hignore : Asks (greetingOptions "IGNORE") .ignore :=
    .ignore ⟨"IGNORE", rfl, by decide +kernel⟩
  have hnever : Asks (greetingOptions "never") .strict :=
    .strict (by decide +kernel) (by decide +kernel)
  refine ⟨rfl, ?warned, ?ignored, ?failed, ?readable⟩
  case warned =>
    exact (hagrees _ (by decide +kernel) (by decide +kernel)).1 (.inr hwarn)
  case ignored =>
    exact (hagrees _ (by decide +kernel) (by decide +kernel)).1 (.inl hignore)
  case failed =>
    have hstrict := (hagrees _ (by decide +kernel) (by decide +kernel)).2 hnever
    obtain ⟨term, fault, hfirst, hrun⟩ := hstrict.error (by decide +kernel)
    obtain ⟨rfl, rfl⟩ := hfirst.unique isFirstFault_raw
    have hpath : Context.resolve ⟨.default, some "/srv"⟩ greetingWorld.environment "raw" =
        "/srv/raw" := by
      decide +kernel
    rw [hrun, hpath]
  case readable =>
    obtain ⟨values, hreads, hagrees⟩ :=
      @run_agrees_on_readable ⟨.default, some "/srv"⟩ greetingWorld rfl ["greeting"] true true
    have hstrict := (hagrees _ (by decide +kernel) (by decide +kernel)).2 hnever
    rw [hstrict.ok (by decide +kernel), hreads.eq_flatMap_contents, List.flatMap_singleton,
      contents_greeting]

end LookupEngine.Lookup.File
