import LookupEngine.Proofs.Machine.SameTree
import LookupEngine.Proofs.Number.Spelling
import LookupEngine.Proofs.Result
import LookupEngine.Proofs.Settings.Files
import LookupEngine.Proofs.Text.Utf8
/-!
# Layers of settings

A setting has the value that a variable of the environment gives it, else the one that the file
says, else its default.  The file is the first that exists among those that are asked, and no
other file matters: loading fails exactly where that one cannot be read as its extension says,
and two disks that differ in what other files hold load the same.
-/

namespace LookupEngine.Settings

/-! ## Which file is asked -/

/-- The files that may hold the settings, the most important first: the one that is named alone,
else the one that the variable names alone, else the three usual ones. -/
inductive Asks (environment : Environment) : Option String → List String → Prop
  | named (path : String) : Asks environment (some path) [path]
  | told {path : String} (h : environment.text? fileVariable = some path) :
    Asks environment none [path]
  | usual {home : String} (hvariable : environment.text? fileVariable = none)
      (hhome : environment.homePath? = some home) :
    Asks environment none
      ["lookup.toml", Path.join home ".rustible/lookup.toml", "/etc/rustible/lookup.toml"]
  | homeless (hvariable : environment.text? fileVariable = none)
      (hhome : environment.homePath? = none) :
    Asks environment none ["lookup.toml", "/etc/rustible/lookup.toml"]

theorem asks_iff {environment : Environment} {explicit : Option String} {paths : List String} :
    Asks environment explicit paths ↔ candidates environment explicit = paths := by
  constructor
  · intro h
    cases h with
    | named path => rfl
    | told htold => rw [candidates, htold]; rfl
    | usual htold hhome => rw [candidates, htold, hhome]; rfl
    | homeless htold hhome => rw [candidates, htold, hhome]; rfl
  · rintro rfl
    cases explicit with
    | some path => exact .named path
    | none =>
      rw [candidates, Option.none_or]
      cases htold : environment.text? fileVariable with
      | some path => exact .told htold
      | none =>
        cases hhome : environment.homePath? with
        | some home => exact .usual htold hhome
        | none => exact .homeless htold hhome

example : candidates ⟨[("RUSTIBLE_LOOKUP_CONFIG", Utf8.encode "a.toml")], none⟩ none =
    ["a.toml"] := by decide +kernel

/-- The first of the files that are asked that exists. -/
def IsSource (disk : Disk) (here : Location) (environment : Environment)
    (explicit : Option String) (path : String) : Prop :=
  ∃ before after, Asks environment explicit (before ++ path :: after) ∧
    disk.pathExists here path = true ∧ ∀ other ∈ before, disk.pathExists here other = false

theorem source?_eq_some_iff {disk : Disk} {here : Location} {environment : Environment}
    {explicit : Option String} {path : String} :
    source? disk here environment explicit = some path ↔
      IsSource disk here environment explicit path := by
  rw [source?, List.find?_eq_some_iff_append]
  simp only [Bool.not_eq_true', IsSource, asks_iff]
  constructor
  · rintro ⟨hexists, before, after, hpaths, hbefore⟩
    exact ⟨before, after, hpaths, hexists, hbefore⟩
  · rintro ⟨before, after, hpaths, hexists, hbefore⟩
    exact ⟨hexists, before, after, hpaths, hbefore⟩

theorem source?_eq_none_iff {disk : Disk} {here : Location} {environment : Environment}
    {explicit : Option String} :
    source? disk here environment explicit = none ↔
      ∀ path, ¬ IsSource disk here environment explicit path := by
  rw [Option.eq_none_iff_forall_ne_some]
  simp only [ne_eq, source?_eq_some_iff]

/-! ## Which layer has the last word -/

section

variable {α : Type}

/-- The value of a setting: what the environment gives, else what the file says, else the
default. -/
inductive Ranked (gives : α → Prop) (said : Option α) (otherwise : α) : α → Prop
  | given {value : α} (h : gives value) : Ranked gives said otherwise value
  | said {value : α} (hgives : ∀ given, ¬ gives given) (hsaid : said = some value) :
    Ranked gives said otherwise value
  | default (hgives : ∀ given, ¬ gives given) (hsaid : said = none) :
    Ranked gives said otherwise otherwise

theorem ranked_iff {gives : α → Prop} {given? : Option α}
    (hgives : ∀ given, gives given ↔ given? = some given) {said : Option α} {otherwise value : α} :
    Ranked gives said otherwise value ↔ value = given?.getD (said.getD otherwise) := by
  cases given? with
  | some given =>
    have hgiven : gives given := (hgives given).2 rfl
    constructor
    · intro h
      cases h with
      | given hvalue => exact (Option.some.inj ((hgives value).1 hvalue)).symm
      | said hnone _ => exact absurd hgiven (hnone given)
      | default hnone _ => exact absurd hgiven (hnone given)
    · rintro rfl
      exact .given hgiven
  | none =>
    have hnone : ∀ given, ¬ gives given := by
      intro given hgiven
      cases (hgives given).1 hgiven
    constructor
    · intro h
      cases h with
      | given hvalue => exact absurd hvalue (hnone value)
      | said _ hsaid => rw [hsaid]; rfl
      | default _ hsaid => rw [hsaid]; rfl
    · rintro rfl
      cases said with
      | some value => exact .said hnone rfl
      | none => exact .default hnone rfl

end

/-- A variable gives a number: its text is the decimal form of one that fits. -/
def GivesWord (environment : Environment) (name : String) (n : Nat) : Prop :=
  ∃ text, environment.text? name = some text ∧ IsWord text n

/-- A variable gives a truth value: its text is one of four words in any case. -/
def GivesFlag (environment : Environment) (name : String) (flag : Bool) : Prop :=
  ∃ text, environment.text? name = some text ∧
    Text.lowerAscii text ∈
      if flag then ["true", "yes", "1", "on"] else ["false", "no", "0", "off"]

theorem isWord_of_readUnsigned? {text : String} {n : Nat}
    (h : Integer.readUnsigned? Integer.greatestUnsigned text.toList = some n) :
    IsWord text n := by
  unfold Integer.readUnsigned? at h
  rw [Option.filter_eq_some_iff, Digits.read?_eq_some_iff] at h
  obtain ⟨⟨hnumber, hvalue⟩, hbound⟩ := h
  refine ⟨_, ?_, hnumber.1, hnumber.2, hvalue, by simpa using hbound⟩
  split
  · next rest heq => exact .inr heq
  · exact .inl rfl

theorem givesWord_iff {environment : Environment} {name : String} (n : Nat) :
    GivesWord environment name n ↔ word? environment name = some n := by
  constructor
  · rintro ⟨text, htext, hword⟩
    exact word?_eq_some htext hword
  · intro h
    obtain ⟨text, htext, hread⟩ := Option.bind_eq_some_iff.1 h
    exact ⟨text, htext, isWord_of_readUnsigned? hread⟩

theorem givesFlag_iff {environment : Environment} (flag : Bool) :
    GivesFlag environment certsVariable flag ↔ certs? environment = some flag := by
  constructor
  · rintro ⟨text, htext, hword⟩
    rw [certs?, htext, Option.bind_some]
    cases flag with
    | true => exact ofWord?_of_mem_true hword
    | false => exact ofWord?_of_mem_false hword
  · intro h
    obtain ⟨text, htext, hword⟩ := Option.bind_eq_some_iff.1 h
    refine ⟨text, htext, ?_⟩
    rw [Flag.ofWord?] at hword
    split at hword
    · next hmem =>
      obtain rfl := Option.some.inj hword
      exact List.contains_iff_mem.1 hmem
    · split at hword
      · next hmem =>
        obtain rfl := Option.some.inj hword
        exact List.contains_iff_mem.1 hmem
      · cases hword

/-- A variable gives a text for a setting that may be nothing. -/
def GivesHome (environment : Environment) (home : Option String) : Prop :=
  ∃ text, environment.text? homeVariable = some text ∧ home = some text

theorem givesHome_iff {environment : Environment} (home : Option String) :
    GivesHome environment home ↔ (environment.text? homeVariable).map some = some home := by
  rw [Option.map_eq_some_iff]
  simp only [GivesHome, eq_comm]

/-- The settings that the environment, a file and the defaults make together. -/
structure Follows (settings : Settings) (environment : Environment) (said : Said) : Prop where
  timeout : Ranked (GivesWord environment timeoutVariable) said.timeout
    default.http.timeoutSeconds settings.http.timeoutSeconds
  certs : Ranked (GivesFlag environment certsVariable) said.certs default.http.validateCerts
    settings.http.validateCerts
  agent : settings.http.userAgent = said.agent.getD default.http.userAgent
  length : Ranked (GivesWord environment lengthVariable) said.length default.password.length
    settings.password.length
  chars : settings.password.chars = said.chars.getD default.password.chars
  shell : Ranked (fun shell => environment.text? shellVariable = some shell) said.shell
    default.pipe.shell settings.pipe.shell
  home : Ranked (GivesHome environment) said.home default.paths.home settings.paths.home

theorem follows_iff {settings : Settings} {environment : Environment} {said : Said} :
    settings.Follows environment said ↔ settings = said.orDefault.override environment := by
  have hhome : ((environment.text? homeVariable).map some).getD (said.home.getD none) =
      (environment.text? homeVariable).or (said.home.getD none) := by
    cases environment.text? homeVariable <;> rfl
  constructor
  · intro h
    have htimeout := (ranked_iff givesWord_iff).1 h.timeout
    have hcerts := (ranked_iff givesFlag_iff).1 h.certs
    have hlength := (ranked_iff givesWord_iff).1 h.length
    have hshell := (ranked_iff fun _ => Iff.rfl).1 h.shell
    have hpaths := ((ranked_iff givesHome_iff).1 h.home).trans hhome
    have hagent := h.agent
    have hchars := h.chars
    obtain ⟨⟨timeout, certs, agent⟩, ⟨length, chars⟩, ⟨shell⟩, ⟨home⟩⟩ := settings
    subst htimeout hcerts hagent hlength hchars hshell hpaths
    rfl
  · rintro rfl
    exact
      { timeout := (ranked_iff givesWord_iff).2 rfl
        certs := (ranked_iff givesFlag_iff).2 rfl
        agent := rfl
        length := (ranked_iff givesWord_iff).2 rfl
        chars := rfl
        shell := (ranked_iff fun _ => Iff.rfl).2 rfl
        home := (ranked_iff givesHome_iff).2 hhome.symm }

/-! ## Loading -/

section

variable {disk : Disk} {here : Location} {environment : Environment} {explicit : Option String}

theorem load_eq_error_iff {problem : LoadProblem} :
    load disk here environment explicit = .error problem ↔
      ∃ path, IsSource disk here environment explicit path ∧
        Spoils disk here path problem := by
  rw [load]
  cases hsource : source? disk here environment explicit with
  | none =>
    have hnone := source?_eq_none_iff.1 hsource
    constructor
    · intro h
      cases h
    · rintro ⟨path, hpath, _⟩
      exact absurd hpath (hnone path)
  | some path =>
    constructor
    · intro h
      have hfile := Result.map_eq_error_iff.1 h
      exact ⟨path, source?_eq_some_iff.1 hsource, fromFile_eq_error_iff.1 hfile⟩
    · rintro ⟨other, hother, hspoils⟩
      obtain rfl : path = other :=
        Option.some.inj (hsource.symm.trans (source?_eq_some_iff.2 hother))
      exact Result.map_eq_error_iff.2 (fromFile_eq_error_iff.2 hspoils)

theorem load_eq_ok_iff {settings : Settings} :
    load disk here environment explicit = .ok settings ↔
      (∃ path said, IsSource disk here environment explicit path ∧
        FileSays disk here path said ∧ settings.Follows environment said) ∨
      ((∀ path, ¬ IsSource disk here environment explicit path) ∧
        settings.Follows environment .nothing) := by
  rw [load]
  cases hsource : source? disk here environment explicit with
  | none =>
    have hnone := source?_eq_none_iff.1 hsource
    rw [follows_iff, Said.orDefault_nothing]
    constructor
    · intro h
      exact .inr ⟨hnone, (Except.ok.inj h).symm⟩
    · rintro (⟨path, _, hpath, _⟩ | ⟨_, rfl⟩)
      · exact absurd hpath (hnone path)
      · rfl
  | some path =>
    have hpath := source?_eq_some_iff.1 hsource
    dsimp only
    rw [Result.map_eq_ok_iff]
    constructor
    · rintro ⟨found, hfile, rfl⟩
      obtain ⟨said, hsaid, rfl⟩ := fromFile_eq_ok_iff_says.1 hfile
      exact .inl ⟨path, said, hpath, hsaid, follows_iff.2 rfl⟩
    · rintro (⟨other, said, hother, hsaid, hfollows⟩ | ⟨hnone, _⟩)
      · obtain rfl : path = other :=
          Option.some.inj (hsource.symm.trans (source?_eq_some_iff.2 hother))
        exact ⟨said.orDefault, fromFile_eq_ok_iff_says.2 ⟨said, hsaid, rfl⟩,
          (follows_iff.1 hfollows).symm⟩
      · exact absurd hpath (hnone path)

theorem load_eq_of_sameTree {other : Disk} (htree : disk.SameTree other)
    (hsource : ∀ path location, IsSource disk here environment explicit path →
      disk.locate true here path = .ok location →
      other.find? location = disk.find? location) :
    load other here environment explicit = load disk here environment explicit := by
  have hexists : other.pathExists here = disk.pathExists here := by
    funext path
    exact (htree.pathExists here path).symm
  rw [load, load, source?, source?, hexists]
  cases hfound : (candidates environment explicit).find? (disk.pathExists here) with
  | none => rfl
  | some path =>
    have hpath := source?_eq_some_iff.1 hfound
    dsimp only
    rw [fromFile, fromFile, htree.readText fun location => hsource path location hpath]

end

/-- Loading asks one file, the first that exists.  It fails exactly where that file spoils it, it
gives what the environment, that file and the defaults make together, and whatever another file
holds makes no difference. -/
theorem load_follows_source (disk : Disk) (here : Location) (environment : Environment)
    (explicit : Option String) :
    (∀ problem, load disk here environment explicit = .error problem ↔
      ∃ path, IsSource disk here environment explicit path ∧ Spoils disk here path problem) ∧
    (∀ settings, load disk here environment explicit = .ok settings ↔
      (∃ path said, IsSource disk here environment explicit path ∧
        FileSays disk here path said ∧ settings.Follows environment said) ∨
      ((∀ path, ¬ IsSource disk here environment explicit path) ∧
        settings.Follows environment .nothing)) ∧
    ∀ other, disk.SameTree other →
      (∀ path location, IsSource disk here environment explicit path →
        disk.locate true here path = .ok location →
        other.find? location = disk.find? location) →
      load other here environment explicit = load disk here environment explicit :=
  ⟨fun _ => load_eq_error_iff, fun _ => load_eq_ok_iff, fun _ => load_eq_of_sameTree⟩

/-- A directory with settings, on a system whose own are no TOML. -/
def twoFiles : Disk :=
  ⟨[(["lookup.toml"],
      .file (Utf8.encode "[http]\ntimeout_secs = 5\n[password]\nlength = 7\n") Disk.plainFile),
    (["etc"], .directory Disk.plainDirectory),
    (["etc", "rustible"], .directory Disk.plainDirectory),
    (["etc", "rustible", "lookup.toml"], .file (Utf8.encode "[http\n") Disk.plainFile)]⟩

/-- A timeout that is no number, and a length. -/
def twoVariables : Environment :=
  ⟨[(timeoutVariable, Utf8.encode "soon"), (lengthVariable, Utf8.encode "12")], none⟩

theorem load_follows_source_of_two_files :
    (load twoFiles [] twoVariables none).map
        (fun settings => (settings.http.timeoutSeconds, settings.password.length)) = .ok (5, 12) ∧
      load (twoFiles.set ["etc", "rustible", "lookup.toml"]
          (.file (Utf8.encode "[http]\ntimeout_secs = 9\n") Disk.plainFile)) [] twoVariables none =
        load twoFiles [] twoVariables none := by
  constructor
  · decide +kernel
  have hsource : source? twoFiles [] twoVariables none = some "lookup.toml" := by decide +kernel
  have hlocate : twoFiles.locate true [] "lookup.toml" = .ok ["lookup.toml"] := by decide +kernel
  apply (load_follows_source twoFiles [] twoVariables none).2.2
  · have hsystem : twoFiles.find? ["etc", "rustible", "lookup.toml"] =
        some (.file (Utf8.encode "[http\n") Disk.plainFile) := by decide +kernel
    exact Disk.SameTree.set hsystem
  · intro path location hpath hlocation
    obtain rfl : "lookup.toml" = path :=
      Option.some.inj (hsource.symm.trans (source?_eq_some_iff.2 hpath))
    obtain rfl := Except.ok.inj (hlocate.symm.trans hlocation)
    exact Disk.find?_set_of_ne twoFiles (by decide) _

/-- A variable that is set to what is no text names no file, and the usual ones are asked as if
it were not set. -/
theorem variable_without_text_is_passed_over :
    ((⟨[(fileVariable, [0xff])], none⟩ : Environment).bytes? fileVariable = some [0xff] ∧
        ∀ name : String, Utf8.encode name ≠ [0xff]) ∧
      (load twoFiles [] ⟨[(fileVariable, [0xff])], none⟩ none).map
          (fun settings => settings.http.timeoutSeconds) = .ok 5 ∧
      (default.override ⟨[(fileVariable, [0xff])], none⟩).http.timeoutSeconds = 30 := by
  refine ⟨⟨by decide +kernel, ?_⟩, by decide +kernel, by decide +kernel⟩
  intro name hname
  have hdecode := Utf8.decode?_encode name
  rw [hname] at hdecode
  cases hdecode

end LookupEngine.Settings
