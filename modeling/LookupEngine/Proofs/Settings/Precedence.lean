import Mathlib.Data.List.DropRight
import LookupEngine.Program
/-!
# Which settings have the last word

The variables of the environment outweigh the file that settings are loaded from.  A run whose
settings cannot be loaded falls back to the defaults, though, and those know nothing of the
environment.  The settings of a run therefore obey the environment exactly when they could be
loaded or the defaults happen to say the same.
-/

namespace LookupEngine

namespace Settings

/-- A decimal numeral of an unsigned word, perhaps after a plus sign, and its value. -/
def IsWord (text : String) (n : Nat) : Prop :=
  ∃ digits : List Char, (text.toList = digits ∨ text.toList = '+' :: digits) ∧ digits ≠ [] ∧
    (∀ c ∈ digits, Digits.isDecimal c = true) ∧ Digits.value 10 digits = n ∧
    n ≤ Integer.greatestUnsigned

/-- The settings that the environment gives a valid value for have that value. -/
structure Obeys (settings : Settings) (environment : Environment) : Prop where
  timeout : ∀ text n, environment.text? timeoutVariable = some text → IsWord text n →
    settings.http.timeoutSeconds = n
  certsOn : ∀ text, environment.text? certsVariable = some text →
    Text.lowerAscii text ∈ ["true", "yes", "1", "on"] → settings.http.validateCerts = true
  certsOff : ∀ text, environment.text? certsVariable = some text →
    Text.lowerAscii text ∈ ["false", "no", "0", "off"] → settings.http.validateCerts = false
  length : ∀ text n, environment.text? lengthVariable = some text → IsWord text n →
    settings.password.length = n
  shell : ∀ text, environment.text? shellVariable = some text → settings.pipe.shell = text
  home : ∀ text, environment.text? homeVariable = some text → settings.paths.home = some text

theorem read?_eq_some_of_digits {digits : List Char} (hne : digits ≠ [])
    (hdigits : ∀ c ∈ digits, Digits.isDecimal c = true) :
    Digits.read? 10 digits = some (Digits.value 10 digits) := by
  have hall : digits.all (Digits.isDigitOf 10) = true := List.all_eq_true.2 hdigits
  have hempty : digits.isEmpty = false := by simpa using hne
  rw [Digits.read?, hempty, hall]
  rfl

/-- Reading a word skips one plus sign, and digits never start with another. -/
theorem readUnsigned?_of_isWord {text : String} {n : Nat} (h : IsWord text n) :
    Integer.readUnsigned? Integer.greatestUnsigned text.toList = some n := by
  obtain ⟨digits, htext, hne, hdigits, hvalue, hbound⟩ := h
  have hread := read?_eq_some_of_digits hne hdigits
  rw [hvalue] at hread
  have hfilter : (Digits.read? 10 digits).filter (· ≤ Integer.greatestUnsigned) = some n := by
    rw [hread, Option.filter_some, if_pos (by simpa using hbound)]
  rcases htext with htext | htext
  · rw [htext, ← hfilter]
    cases digits with
    | nil => exact absurd rfl hne
    | cons c rest =>
      have hplus : c ≠ '+' := by
        rintro rfl
        exact absurd (hdigits '+' (by simp)) (by decide)
      unfold Integer.readUnsigned?
      split
      · next heq => exact absurd (List.cons.inj heq).1 hplus
      · rfl
  · rw [htext]
    exact hfilter

theorem word?_eq_some {environment : Environment} {name text : String} {n : Nat}
    (hvalue : environment.text? name = some text) (hword : IsWord text n) :
    word? environment name = some n := by
  rw [word?, hvalue, Option.bind_some, readUnsigned?_of_isWord hword]

theorem ofWord?_of_mem_true {word : String} (h : word ∈ ["true", "yes", "1", "on"]) :
    Flag.ofWord? word = some true := by
  rw [Flag.ofWord?, if_pos (List.contains_iff_mem.2 h)]

theorem ofWord?_of_mem_false {word : String} (h : word ∈ ["false", "no", "0", "off"]) :
    Flag.ofWord? word = some false := by
  simp only [List.mem_cons, List.not_mem_nil, or_false] at h
  rcases h with rfl | rfl | rfl | rfl <;> decide

/-- Whatever the settings were, the environment has the last word. -/
theorem override_obeys (settings : Settings) (environment : Environment) :
    (settings.override environment).Obeys environment where
  timeout text n hvalue hword := by
    simp only [override, word?_eq_some hvalue hword, Option.getD_some]
  certsOn text hvalue hword := by
    simp only [override, certs?, hvalue, Option.bind_some, ofWord?_of_mem_true hword,
      Option.getD_some]
  certsOff text hvalue hword := by
    simp only [override, certs?, hvalue, Option.bind_some, ofWord?_of_mem_false hword,
      Option.getD_some]
  length text n hvalue hword := by
    simp only [override, word?_eq_some hvalue hword, Option.getD_some]
  shell text hvalue := by
    simp only [override, hvalue, Option.getD_some]
  home text hvalue := by
    simp only [override, hvalue, Option.some_or]

example : default.override
    ⟨[("RUSTIBLE_LOOKUP_HOME", Utf8.encode "/srv"),
      ("RUSTIBLE_LOOKUP_HTTP_TIMEOUT", Utf8.encode "5"),
      ("RUSTIBLE_LOOKUP_PASSWORD_LENGTH", Utf8.encode "8"),
      ("RUSTIBLE_LOOKUP_SHELL", Utf8.encode "/bin/bash"),
      ("RUSTIBLE_LOOKUP_VALIDATE_CERTS", Utf8.encode "No")], none⟩ =
    ⟨{ defaultHttp with timeoutSeconds := 5, validateCerts := false },
      { defaultPassword with length := 8 }, ⟨"/bin/bash"⟩, ⟨some "/srv"⟩⟩ := by decide +kernel

/-- The settings can be loaded: no candidate exists, or the first that does holds a text that
reads as its extension says. -/
def Loads (world : World) (config : Option String) : Prop :=
  ∀ path, source? world.disk world.here world.environment config = some path →
    ∃ text settings, world.disk.readText world.here path = .ok text ∧
      ofText? ((Path.extension? path).getD "") text = some settings

theorem fromFile_eq_ok_iff {disk : Disk} {here : Location} {path : String}
    {settings : Settings} :
    fromFile disk here path = .ok settings ↔
      ∃ text, disk.readText here path = .ok text ∧
        ofText? ((Path.extension? path).getD "") text = some settings := by
  rw [fromFile]
  cases disk.readText here path with
  | error fault => simp
  | ok text =>
    simp only [Except.ok.injEq, exists_eq_left']
    cases ofText? ((Path.extension? path).getD "") text <;> simp

/-- Loaded settings are those of some file, or the defaults, under the environment. -/
theorem load_of_loads {world : World} {config : Option String} (h : Loads world config) :
    ∃ settings : Settings, load world.disk world.here world.environment config =
      .ok (settings.override world.environment) := by
  rw [load]
  cases hsource : source? world.disk world.here world.environment config with
  | none => exact ⟨default, rfl⟩
  | some path =>
    obtain ⟨text, settings, hread, hparse⟩ := h path hsource
    have hfile := fromFile_eq_ok_iff.2 ⟨text, hread, hparse⟩
    refine ⟨settings, ?_⟩
    simp only [hfile, Except.map]

theorem loads_of_load_eq_ok {world : World} {config : Option String} {settings : Settings}
    (h : load world.disk world.here world.environment config = .ok settings) :
    Loads world config := by
  intro path hsource
  rw [load, hsource] at h
  cases hfile : fromFile world.disk world.here path with
  | error problem => simp only [hfile, Except.map, reduceCtorEq] at h
  | ok found =>
    obtain ⟨text, hread, hparse⟩ := fromFile_eq_ok_iff.1 hfile
    exact ⟨text, found, hread, hparse⟩

end Settings

namespace Program

theorem settings_of_loads {world : World} {config : Option String}
    (h : Settings.Loads world config) :
    ∃ loaded : Settings, settings world config = loaded.override world.environment := by
  obtain ⟨loaded, hload⟩ := Settings.load_of_loads h
  exact ⟨loaded, by rw [settings, hload]⟩

theorem settings_of_not_loads {world : World} {config : Option String}
    (h : ¬ Settings.Loads world config) : settings world config = .default := by
  rw [settings]
  split
  · next loaded hload => exact absurd (Settings.loads_of_load_eq_ok hload) h
  · rfl

/-- Every run of a lookup takes the settings that `settings` finds, and they obey the
environment exactly when they could be loaded or the defaults obey it. -/
theorem run_settings_obey_iff {arguments : List String} {world : World}
    {invocation : Invocation}
    (hparse : Invocation.parse world.environment arguments = .ok invocation)
    (hlookup : invocation.list = false) :
    run arguments world = runLookup (settings world invocation.config) invocation world ∧
      ((settings world invocation.config).Obeys world.environment ↔
        Settings.Loads world invocation.config ∨ Settings.default.Obeys world.environment) := by
  constructor
  · simp only [run, hparse, hlookup, Bool.false_eq_true, if_false]
  by_cases hloads : Settings.Loads world invocation.config
  · obtain ⟨loaded, hsettings⟩ := settings_of_loads hloads
    rw [hsettings]
    exact ⟨fun _ => .inl hloads, fun _ => Settings.override_obeys loaded world.environment⟩
  · rw [settings_of_not_loads hloads]
    exact ⟨.inr, fun h => h.resolve_left hloads⟩

/-- A directory with a file of settings that is no TOML, and a variable that asks for short
passwords. -/
def malformedWorld : World :=
  .still ⟨[(["lookup.toml"], .file (Utf8.encode "[http\n") Disk.plainFile)]⟩
    ⟨[(Settings.lengthVariable, Utf8.encode "5")], none⟩

/-- Asks for a password of the only character `x`. -/
def shortPassword : Invocation :=
  ⟨some "password", ["/dev/null"], ["chars=x"], [], none, none, false, .json, 0⟩

theorem run_settings_obey_malformedWorld :
    Invocation.parse malformedWorld.environment ["password", "/dev/null", "-o", "chars=x"] =
        .ok shortPassword ∧
      ((settings malformedWorld none).Obeys malformedWorld.environment ↔
        Settings.Loads malformedWorld none ∨
          Settings.default.Obeys malformedWorld.environment) := by
  have hparse : Invocation.parse malformedWorld.environment
      ["password", "/dev/null", "-o", "chars=x"] = .ok shortPassword := by decide +kernel
  exact ⟨hparse, (run_settings_obey_iff hparse rfl).2⟩

/-- Passwords have twenty characters where the environment asks for five. -/
theorem malformed_settings_outweigh_environment :
    (malformedWorld.environment.text? Settings.lengthVariable = some "5" ∧
        Settings.IsWord "5" 5 ∧ (settings malformedWorld none).password.length = 20) ∧
      (run ["password", "/dev/null", "-o", "chars=x"] malformedWorld).1 =
        ⟨0, "[\n  \x22xxxxxxxxxxxxxxxxxxxx\x22\n]\n", ""⟩ := by
  have hword : Settings.IsWord "5" 5 := by
    refine ⟨['5'], .inl (by decide), by decide, ?_, by decide, by decide⟩
    rw [List.forall_mem_singleton]
    rfl
  exact ⟨⟨by decide +kernel, hword, by decide +kernel⟩, by decide +kernel⟩

end Program

end LookupEngine
