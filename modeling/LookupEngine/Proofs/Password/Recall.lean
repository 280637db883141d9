import Mathlib.Data.List.GetD
import LookupEngine.Proofs.Password.Storage
import LookupEngine.Proofs.Text.Blank
import LookupEngine.Proofs.Text.Utf8
/-!
# Looking a password up again

The call that makes a password gives it as it is, and every later call gives what is stored
without the blanks around it.  Both are the same exactly where the password has no blank at
either end, which an alphabet without blanks makes sure of.
-/

namespace LookupEngine.Lookup.Password

/-- At a path a text is stored that reads as `password` does without the blanks around it. -/
def Keeps (path password : String) (world : World) : Prop :=
  ∃ text, world.disk.readText world.here path = .ok text ∧ Text.trim text = Text.trim password

/-- The worlds that may follow on `first` while nothing but lookups of passwords touches what is
stored at a path: whatever else happens, reading there comes to the same. -/
inductive Undisturbed (path : String) (first : World) : World → Prop
  | refl : Undisturbed path first first
  | lookup {between : World} (context : Context) (options : Options) (terms : List String)
      (h : Undisturbed path first between) :
      Undisturbed path first ((run context options terms).perform between).2
  | other {between after : World} (h : Undisturbed path first between)
      (hsame : after.disk.readText after.here path =
        between.disk.readText between.here path) : Undisturbed path first after

theorem Keeps.later {context : Context} {options : Options} {terms : List String}
    {path password : String} {before after : World}
    (hleaves : Leaves context options terms before after) (h : Keeps path password before) :
    Keeps path password after := by
  obtain ⟨text, hread, htrim⟩ := h
  refine ⟨text, ?_, htrim⟩
  rw [hleaves.here]
  exact hleaves.disk.toGrows.readText hread

/-- What is kept is kept as long as nothing else changes it. -/
theorem Keeps.of_undisturbed {path password : String} {first later : World}
    (hhistory : Undisturbed path first later) (h : Keeps path password first) :
    Keeps path password later := by
  induction hhistory with
  | refl => exact h
  | lookup context options terms _ ih => exact ih.later (leaves_run context options terms _)
  | other _ hsame ih =>
    obtain ⟨text, hread, htrim⟩ := ih
    exact ⟨text, hsame.trans hread, htrim⟩

/-- What is published reads as it was written. -/
theorem readText_of_publish {disk after : Disk} {here : Location} {path text : String}
    {mode : Nat} (h : disk.publish here path (Utf8.encode text) mode = .ok after) :
    after.readText here path = .ok text := by
  obtain ⟨location, hlocate, hfree, rfl⟩ := Disk.publish_eq_ok h
  have hstatus := Disk.status_set hlocate hfree
    (fun target (hlink : Entry.file (Utf8.encode text) mode = .link target) => by cases hlink)
  rw [Disk.readText, Disk.readBytes, hstatus]
  simp only [Utf8.decode?_encode]

theorem keeps_of_stores {world after : World} {path password value : String}
    (h : Stores world path password (.ok value, after)) : Keeps path value after := by
  cases h with
  | taken text hread => exact ⟨text, hread, (Text.trim_trim text).symm⟩
  | published disk hpublish =>
    exact ⟨password ++ "\n", readText_of_publish hpublish, Text.trim_append_lineFeed password⟩

theorem keeps_of_gives {context : Context} {spec : Spec} {world after : World}
    {written value : String} (hstorage : spec.storage? = some written)
    (h : Gives context spec world (.ok value, after)) :
    Keeps (context.resolve world.environment written) value after := by
  cases h with
  | unstored result hnone =>
    rw [hnone] at hstorage
    cases hstorage
  | existing other text hother hread =>
    rw [hother] at hstorage
    obtain rfl := Option.some.inj hstorage
    exact ⟨text, hread, (Text.trim_trim text).symm⟩
  | stored other password outcome hother hfree hpassword hstores =>
    rw [hother] at hstorage
    obtain rfl := Option.some.inj hstorage
    exact keeps_of_stores hstores

theorem perform_one_eq_ok {context : Context} {options : Options} {term : String}
    {world after : World} {values : List Value}
    (h : (one context options term).perform world = (.ok values, after)) :
    ∃ spec value, Spec.parse context.settings.password options term = .ok spec ∧
      values = [.string value] ∧ Gives context spec world (.ok value, after) := by
  rw [perform_one] at h
  split at h
  · cases h
  next spec hparse =>
  split at h
  · cases h
  next value between houtcome =>
  obtain ⟨hvalues, rfl⟩ := Prod.mk.inj h
  have hgives := perform_ofSpec context spec world
  rw [houtcome] at hgives
  exact ⟨spec, value, hparse, (Except.ok.inj hvalues).symm, hgives⟩

/-- A term that succeeds leaves its value at its path. -/
theorem keeps_of_perform_one {context : Context} {options : Options} {term path value : String}
    {world after : World}
    (hpath : storagePath? context options world.environment term = some path)
    (h : (one context options term).perform world = (.ok [.string value], after)) :
    Keeps path value after := by
  obtain ⟨spec, written, hparse, hwritten, rfl⟩ := storagePath?_eq_some hpath
  obtain ⟨spec', value', hparse', hvalues, hgives⟩ := perform_one_eq_ok h
  rw [hparse] at hparse'
  obtain rfl := Except.ok.inj hparse'
  obtain rfl : value = value' := by simpa using hvalues
  exact keeps_of_gives hwritten hgives

/-- A term whose path keeps a password gives that, whatever it asks for. -/
theorem perform_one_of_keeps {context : Context} {options : Options}
    {term path password : String} {world : World}
    (hpath : storagePath? context options world.environment term = some path)
    (h : Keeps path password world) :
    (one context options term).perform world = (.ok [.string (Text.trim password)], world) := by
  obtain ⟨spec, written, hparse, hwritten, rfl⟩ := storagePath?_eq_some hpath
  obtain ⟨text, hread, htrim⟩ := h
  have hspec : (ofSpec context spec).perform world = (.ok (Text.trim password), world) := by
    rw [ofSpec]
    rw [hwritten]
    dsimp only
    rw [Action.perform_bind_of_ok _ (Action.perform_get world)]
    rw [Action.perform_bind, Action.perform_ofExcept, stored?_of_readText hread]
    dsimp only
    rw [htrim, Action.perform_pure]
  rw [perform_one, hparse]
  dsimp only
  rw [hspec]

/-- A lookup that succeeds gives one value for each term, at its turn after those before it. -/
theorem exists_turn {context : Context} {options : Options} {terms : List String}
    {world after : World} {values : List Value} {i : Nat} {term : String}
    (hrun : (run context options terms).perform world = (.ok values, after))
    (hterm : terms[i]? = some term) :
    ∃ earlier later value between,
      (one context options term).perform ((run context options earlier).perform world).2 =
          (.ok [.string value], between) ∧
        values[i]? = some (.string value) ∧
        after = ((run context options later).perform between).2 := by
  induction terms generalizing world values i with
  | nil => cases hterm
  | cons head rest ih =>
    rw [perform_run_cons] at hrun
    split at hrun
    · cases hrun
    next hlive =>
    rcases hone : (one context options head).perform world with ⟨failure | found, between⟩
    · rw [hone] at hrun
      cases hrun
    rw [hone] at hrun
    obtain ⟨spec, value, hparse, rfl, hgives⟩ := perform_one_eq_ok hone
    rcases hrest : (run context options rest).perform between with ⟨failure | others, last⟩
    · simp only [Action.joined, hrest] at hrun
      cases hrun
    simp only [Action.joined, hrest] at hrun
    obtain ⟨hvalues, rfl⟩ := Prod.mk.inj hrun
    obtain rfl := Except.ok.inj hvalues
    cases i with
    | zero =>
      obtain rfl : head = term := by simpa using hterm
      exact ⟨[], rest, value, between, hone, rfl, by rw [hrest]⟩
    | succ i =>
      obtain ⟨earlier, later, other, middle, hturn, hvalue, hafter⟩ := ih hrest (by simpa using hterm)
      refine ⟨head :: earlier, later, other, middle, ?_, by simpa using hvalue, hafter⟩
      rw [perform_run_cons, if_neg hlive, hone, Action.snd_joined_ok]
      exact hturn

theorem mem_of_mem_draw {draws : Nat → Nat} {first length : Nat} {alphabet : List Char}
    {c : Char} (h : c ∈ draw draws first length alphabet) : c ∈ alphabet := by
  cases alphabet with
  | nil => exact h
  | cons head rest =>
    obtain ⟨i, _, rfl⟩ := List.mem_map.1 h
    have hindex : draws (first + i) % (head :: rest).length < (head :: rest).length :=
      Nat.mod_lt _ (Nat.succ_pos _)
    rw [List.getD_eq_getElem _ _ hindex]
    exact List.getElem_mem hindex

theorem head?_draw (draws : Nat → Nat) (first : Nat) {length : Nat} (hlength : 0 < length)
    (alphabet : List Char) :
    (draw draws first length alphabet).head? = alphabet[draws first % alphabet.length]? := by
  obtain ⟨more, rfl⟩ := Nat.exists_eq_succ_of_ne_zero (Nat.ne_of_gt hlength)
  cases alphabet with
  | nil => rfl
  | cons c rest =>
    have hindex : draws first % (c :: rest).length < (c :: rest).length :=
      Nat.mod_lt _ (Nat.succ_pos _)
    rw [draw, Nat.succ_eq_add_one, List.range_succ_eq_map, List.map_cons, List.head?_cons,
      Nat.add_zero, List.getD_eq_getElem _ _ hindex, List.getElem?_eq_getElem hindex]

theorem isTrimmed_of_generate? {draws : Nat → Nat} {first length : Nat}
    {charset password : String} (hplain : ∀ c ∈ charset.toList, Text.isBlank c = false)
    (h : generate? draws first length charset = some password) :
    Text.IsTrimmed password.toList := by
  rw [generate?] at h
  split at h
  · cases h
  · obtain rfl := Option.some.inj h
    apply Text.isTrimmed_of_forall_not_blank
    intro c hc
    rw [String.toList_ofList] at hc
    exact hplain c (mem_of_mem_draw hc)

/-- Whether all passwords of an alphabet are as they are when they are trimmed depends on
nothing but the blanks in it. -/
theorem generate?_isTrimmed_iff {length : Nat} (hlength : 0 < length) (charset : String) :
    (∀ draws first password, generate? draws first length charset = some password →
        Text.IsTrimmed password.toList) ↔
      ∀ c ∈ charset.toList, Text.isBlank c = false := by
  constructor
  · intro h c hc
    obtain ⟨i, hi, hat⟩ := List.getElem_of_mem hc
    have hne : ¬ charset.isEmpty = true := by
      intro hempty
      rw [String.isEmpty_iff.1 hempty] at hc
      cases hc
    have htrimmed := h (fun _ => i) 0 _ (if_neg hne)
    rw [String.toList_ofList] at htrimmed
    apply htrimmed.1
    rw [head?_draw _ _ hlength, Nat.mod_eq_of_lt hi, List.getElem?_eq_getElem hi, hat]
  · intro hplain draws first password h
    exact isTrimmed_of_generate? hplain h

theorem isTrimmed_of_gives {context : Context} {spec : Spec} {world after : World}
    {written value : String} (hstorage : spec.storage? = some written)
    (hplain : ∀ c ∈ spec.charset.toList, Text.isBlank c = false)
    (h : Gives context spec world (.ok value, after)) : Text.IsTrimmed value.toList := by
  have hread : ∀ text, Text.IsTrimmed (Text.trim text).toList := by
    intro text
    rw [Text.toList_trim]
    exact Text.isTrimmed_trimChars text.toList
  cases h with
  | unstored result hnone =>
    rw [hnone] at hstorage
    cases hstorage
  | existing other text hother htext => exact hread text
  | stored other password outcome hother hfree hpassword hstores =>
    cases hstores with
    | taken text htext => exact hread text
    | published disk hpublish => exact isTrimmed_of_generate? hplain hpassword

section

variable {context context' : Context} {options options' : Options} {terms : List String}
  {term term' path v : String} {world later : World} {values : List Value} {i : Nat}

/-- A value that a lookup has given for a path is kept there, and it is trimmed if the alphabet
that the term asks for has no blank. -/
theorem keeps_of_run
    (hrun : ((run context options terms).perform world).1 = .ok values)
    (hterm : terms[i]? = some term) (hvalue : values[i]? = some (.string v))
    (hpath : storagePath? context options world.environment term = some path) :
    Keeps path v ((run context options terms).perform world).2 ∧
      ∀ spec, Spec.parse context.settings.password options term = .ok spec →
        (∀ c ∈ spec.charset.toList, Text.isBlank c = false) → Text.IsTrimmed v.toList := by
  rcases hperform : (run context options terms).perform world with ⟨result, after⟩
  rw [hperform] at hrun
  obtain rfl : result = .ok values := hrun
  obtain ⟨earlier, rest, value, between, hturn, hgiven, rfl⟩ := exists_turn hperform hterm
  obtain rfl : value = v := by simpa using hgiven.symm.trans hvalue
  have hearlier := leaves_run context options earlier world
  rw [← hearlier.environment] at hpath
  have hkeeps := keeps_of_perform_one hpath hturn
  refine ⟨hkeeps.later (leaves_run context options rest between), ?_⟩
  intro spec hparse hplain
  obtain ⟨spec', written, hparse', hwritten, _⟩ := storagePath?_eq_some hpath
  obtain ⟨spec'', value', hparse'', hvalues, hgives⟩ := perform_one_eq_ok hturn
  obtain rfl : spec = spec' := Except.ok.inj (hparse.symm.trans hparse')
  obtain rfl : spec = spec'' := Except.ok.inj (hparse.symm.trans hparse'')
  obtain rfl : value = value' := by simpa using hvalues
  exact isTrimmed_of_gives hwritten hplain hgives

/-- A lookup of several terms gives what is kept at the path of each of them. -/
theorem value_of_keeps {after : World} (hkeeps : Keeps path v world)
    (hpath : storagePath? context options world.environment term = some path)
    (hrun : (run context options terms).perform world = (.ok values, after))
    (hterm : terms[i]? = some term) : values[i]? = some (.string (Text.trim v)) := by
  obtain ⟨earlier, rest, value, between, hturn, hgiven, _⟩ := exists_turn hrun hterm
  have hearlier := leaves_run context options earlier world
  rw [← hearlier.environment] at hpath
  rw [perform_one_of_keeps hpath (hkeeps.later hearlier)] at hturn
  obtain ⟨hvalues, _⟩ := Prod.mk.inj hturn
  obtain rfl : Text.trim v = value := by simpa using hvalues
  exact hgiven

/-- Once a lookup has given `v` for a path, every later one that nobody cancels gives `v` without
the blanks around it, whatever it asks for, and it makes nothing.  That is `v` exactly where `v`
has no blank at either end, as it is where the alphabet of the first lookup has none. -/
theorem later_lookup_gives_trimmed
    (hrun : ((run context options terms).perform world).1 = .ok values)
    (hterm : terms[i]? = some term) (hvalue : values[i]? = some (.string v))
    (hpath : storagePath? context options world.environment term = some path)
    (hhistory : Undisturbed path ((run context options terms).perform world).2 later)
    (hpath' : storagePath? context' options' later.environment term' = some path) :
    (later.isCancelled = false →
        (run context' options' [term']).perform later =
          (.ok [.string (Text.trim v)], later)) ∧
      (∀ (terms' : List String) (values' : List Value) (after : World) (j : Nat),
        (run context' options' terms').perform later = (.ok values', after) →
          terms'[j]? = some term' → values'[j]? = some (.string (Text.trim v))) ∧
      (Text.trim v = v ↔ Text.IsTrimmed v.toList) ∧
      ∀ spec, Spec.parse context.settings.password options term = .ok spec →
        (∀ c ∈ spec.charset.toList, Text.isBlank c = false) → Text.IsTrimmed v.toList := by
  obtain ⟨hfirst, halphabet⟩ := keeps_of_run hrun hterm hvalue hpath
  have hkeeps := Keeps.of_undisturbed hhistory hfirst
  refine ⟨?_, ?_, Text.trim_eq_self_iff v, halphabet⟩
  · intro hlive
    have hnot : ¬ later.isCancelled = true := by simp [hlive]
    rw [perform_run_singleton, if_neg hnot]
    exact perform_one_of_keeps hpath' hkeeps
  · intro terms' values' after j hrun' hterm'
    exact value_of_keeps hkeeps hpath' hrun' hterm'

end

/-- One term that gives a text. -/
theorem run_singleton_eq_ok {context : Context} {options : Options} {term value : String}
    {world : World} {spec : Spec} (hlive : world.isCancelled = false)
    (hparse : Spec.parse context.settings.password options term = .ok spec)
    (hvalue : ((ofSpec context spec).perform world).1 = .ok value) :
    (run context options [term]).perform world =
      (.ok [.string value], ((ofSpec context spec).perform world).2) := by
  have hnot : ¬ world.isCancelled = true := by simp [hlive]
  rw [perform_run_singleton, if_neg hnot, perform_one, hparse]
  dsimp only
  rcases houtcome : (ofSpec context spec).perform world with ⟨result, after⟩
  rw [houtcome] at hvalue
  obtain rfl : result = .ok value := hvalue
  rfl

/-- An empty disk. -/
def emptyWorld : World := .still .empty ⟨[], none⟩

def plainContext : Context := ⟨.default, none⟩

/-- What a term asks for that says nothing but a length of four. -/
def fourLetters : Spec :=
  ⟨some "pw", 4, "abcdefghijklmnopqrstuvwxyzABCDEFGHIJKLMNOPQRSTUVWXYZ0123456789.:-_"⟩

/-- The first password has four letters, and a later lookup that asks for eight gives it
again. -/
theorem later_lookup_gives_four_letters :
    ((run plainContext [] ["pw length=4"]).perform emptyWorld).1 = .ok [.string "aaaa"] ∧
      storagePath? plainContext [] emptyWorld.environment "pw length=4" = some "pw" ∧
      storagePath? plainContext []
          ((run plainContext [] ["pw length=4"]).perform emptyWorld).2.environment
          "pw length=8" = some "pw" ∧
      ((run plainContext [] ["pw length=8"]).perform
        ((run plainContext [] ["pw length=4"]).perform emptyWorld).2).1 =
          .ok [.string "aaaa"] := by
  have hparse : Spec.parse plainContext.settings.password [] "pw length=4" =
      .ok fourLetters := by
    decide +kernel
  have hmade : ((ofSpec plainContext fourLetters).perform emptyWorld).1 = .ok "aaaa" := by
    decide +kernel
  have hfirst : ((run plainContext [] ["pw length=4"]).perform emptyWorld).1 =
      .ok [.string "aaaa"] := by
    rw [run_singleton_eq_ok rfl hparse hmade]
  have hpath : storagePath? plainContext [] emptyWorld.environment "pw length=4" =
      some "pw" := by
    decide +kernel
  have hpath' : storagePath? plainContext []
      ((run plainContext [] ["pw length=4"]).perform emptyWorld).2.environment
      "pw length=8" = some "pw" := by
    rw [(leaves_run plainContext [] ["pw length=4"] emptyWorld).environment]
    decide +kernel
  have hlive : ((run plainContext [] ["pw length=4"]).perform emptyWorld).2.isCancelled =
      false := by
    rw [(leaves_run plainContext [] ["pw length=4"] emptyWorld).others]
    rfl
  have hlater := later_lookup_gives_trimmed (i := 0) hfirst rfl rfl hpath .refl hpath'
  have htrim : Text.trim "aaaa" = "aaaa" := by decide +kernel
  refine ⟨hfirst, hpath, hpath', ?_⟩
  rw [hlater.1 hlive, htrim]

/-- The alphabet of one blank, as an option says it. -/
def blankOptions : Options := [("chars", .string " ")]

def fourBlanks : Spec := ⟨some "pw", 4, " "⟩

/-- The first lookup gives four blanks, and the second one nothing. -/
theorem blank_password_is_lost :
    ((run plainContext blankOptions ["pw length=4"]).perform emptyWorld).1 =
        .ok [.string "    "] ∧
      ((run plainContext blankOptions ["pw length=4"]).perform
        ((run plainContext blankOptions ["pw length=4"]).perform emptyWorld).2).1 =
          .ok [.string ""] := by
  have hparse : Spec.parse plainContext.settings.password blankOptions "pw length=4" =
      .ok fourBlanks := by
    decide +kernel
  have hmade : ((ofSpec plainContext fourBlanks).perform emptyWorld).1 = .ok "    " := by
    decide +kernel
  have hlive : ((ofSpec plainContext fourBlanks).perform emptyWorld).2.isCancelled = false := by
    decide +kernel
  have hread : ((ofSpec plainContext fourBlanks).perform
      ((ofSpec plainContext fourBlanks).perform emptyWorld).2).1 = .ok "" := by
    decide +kernel
  rw [run_singleton_eq_ok rfl hparse hmade]
  exact ⟨rfl, by rw [run_singleton_eq_ok hlive hparse hread]⟩

end LookupEngine.Lookup.Password
