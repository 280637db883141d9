import LookupEngine.Proofs.Settings.Precedence
/-!
# What files say of the settings

A document says some settings and leaves others out.  Decoding it gives what it says with the
defaults for the rest, and a text is read in the formats that the extension of its file demands.
What is said is kept apart from what comes of it, since a setting that is left out and one that
is said to be as the default are not the same to a reader of the file.
-/

namespace LookupEngine.Settings

/-- What a file says of the settings. -/
structure Said where
  timeout : Option Nat
  certs : Option Bool
  agent : Option String
  length : Option Nat
  chars : Option String
  shell : Option String
  /-- A file may say that there is no home. -/
  home : Option (Option String)

namespace Said

/-- What is said where there is no file. -/
def nothing : Said := ⟨none, none, none, none, none, none, none⟩

/-- The settings that are said, and the defaults for the others. -/
def orDefault (said : Said) : Settings where
  http :=
    ⟨said.timeout.getD defaultHttp.timeoutSeconds, said.certs.getD defaultHttp.validateCerts,
      said.agent.getD defaultHttp.userAgent⟩
  password :=
    ⟨said.length.getD defaultPassword.length, said.chars.getD defaultPassword.chars⟩
  pipe := ⟨said.shell.getD defaultPipe.shell⟩
  paths := ⟨said.home.getD defaultPaths.home⟩

theorem orDefault_nothing : nothing.orDefault = default := rfl

end Said

/-! ## What a document says -/

section

variable {Node : Type} {α : Type}

/-- A field says the value that it reads as, and a missing one says nothing. -/
inductive FieldSays (read : Node → Option α) : Option Node → Option α → Prop
  | missing : FieldSays read none none
  | present {node : Node} {value : α} (h : read node = some value) :
    FieldSays read (some node) (some value)

theorem field?_eq_some_iff {read : Node → Option α} {otherwise value : α}
    {field : Option Node} :
    field? read otherwise field = some value ↔
      ∃ said, FieldSays read field said ∧ value = said.getD otherwise := by
  constructor
  · intro h
    cases field with
    | none => exact ⟨none, .missing, (Option.some.inj h).symm⟩
    | some node => exact ⟨some value, .present h, rfl⟩
  · rintro ⟨said, hsaid, rfl⟩
    cases hsaid with
    | missing => rfl
    | present h => exact h

variable [Document Node]

/-- The fields of a section.  A missing one has none. -/
def sectionFields? (names : List String) : Option Node → Option (List (Option Node))
  | none => some (names.map fun _ => none)
  | some node => Document.record? names node

/-- The section about fetching says this. -/
def HttpSays (section? : Option Node) (timeout : Option Nat) (certs : Option Bool)
    (agent : Option String) : Prop :=
  ∃ timeoutField certsField agentField,
    sectionFields? ["timeout_secs", "validate_certs", "user_agent"] section? =
      some [timeoutField, certsField, agentField] ∧
    FieldSays Document.natural? timeoutField timeout ∧
    FieldSays Document.flag? certsField certs ∧ FieldSays Document.text? agentField agent

/-- The section about passwords says this. -/
def PasswordSays (section? : Option Node) (length : Option Nat) (chars : Option String) : Prop :=
  ∃ lengthField charsField,
    sectionFields? ["length", "chars"] section? = some [lengthField, charsField] ∧
    FieldSays Document.natural? lengthField length ∧ FieldSays Document.text? charsField chars

/-- A section of one field says this. -/
def SingleSays (name : String) (read : Node → Option α) (section? : Option Node)
    (said : Option α) : Prop :=
  ∃ field, sectionFields? [name] section? = some [field] ∧ FieldSays read field said

/-- A document with sections that say this.  One with a field of the wrong shape says nothing at
all, not even in its other fields. -/
def Says (node : Node) (said : Said) : Prop :=
  ∃ http password pipe paths,
    Document.record? ["http", "password", "pipe", "paths"] node =
      some [http, password, pipe, paths] ∧
    HttpSays http said.timeout said.certs said.agent ∧
    PasswordSays password said.length said.chars ∧
    SingleSays "shell" Document.text? pipe said.shell ∧
    SingleSays "home" Document.optionalText? paths said.home

theorem decodeHttp?_eq_some_iff {section? : Option Node} {settings : HttpSettings} :
    field? decodeHttp? defaultHttp section? = some settings ↔
      ∃ timeout certs agent, HttpSays section? timeout certs agent ∧
        settings = ⟨timeout.getD defaultHttp.timeoutSeconds,
          certs.getD defaultHttp.validateCerts, agent.getD defaultHttp.userAgent⟩ := by
  cases section? with
  | none =>
    constructor
    · intro h
      exact ⟨none, none, none, ⟨none, none, none, rfl, .missing, .missing, .missing⟩,
        (Option.some.inj h).symm⟩
    · rintro ⟨_, _, _, ⟨_, _, _, hfields, htimeout, hcerts, hagent⟩, rfl⟩
      cases hfields
      cases htimeout
      cases hcerts
      cases hagent
      rfl
  | some node =>
    constructor
    · intro h
      rw [field?, decodeHttp?] at h
      split at h
      · next timeoutField certsField agentField hfields =>
        split at h
        · next htimeout hcerts hagent =>
          obtain ⟨timeout, timeoutSaid, rfl⟩ := field?_eq_some_iff.1 htimeout
          obtain ⟨certs, certsSaid, rfl⟩ := field?_eq_some_iff.1 hcerts
          obtain ⟨agent, agentSaid, rfl⟩ := field?_eq_some_iff.1 hagent
          exact ⟨timeout, certs, agent, ⟨_, _, _, hfields, timeoutSaid, certsSaid, agentSaid⟩,
            (Option.some.inj h).symm⟩
        · cases h
      · cases h
    · rintro ⟨timeout, certs, agent, ⟨_, _, _, hfields, htimeout, hcerts, hagent⟩, rfl⟩
      rw [sectionFields?] at hfields
      rw [field?, decodeHttp?, hfields]
      simp only [field?_eq_some_iff.2 ⟨timeout, htimeout, rfl⟩,
        field?_eq_some_iff.2 ⟨certs, hcerts, rfl⟩, field?_eq_some_iff.2 ⟨agent, hagent, rfl⟩]

theorem decodePassword?_eq_some_iff {section? : Option Node} {settings : PasswordSettings} :
    field? decodePassword? defaultPassword section? = some settings ↔
      ∃ length chars, PasswordSays section? length chars ∧
        settings = ⟨length.getD defaultPassword.length, chars.getD defaultPassword.chars⟩ := by
  cases section? with
  | none =>
    constructor
    · intro h
      exact ⟨none, none, ⟨none, none, rfl, .missing, .missing⟩, (Option.some.inj h).symm⟩
    · rintro ⟨_, _, ⟨_, _, hfields, hlength, hchars⟩, rfl⟩
      cases hfields
      cases hlength
      cases hchars
      rfl
  | some node =>
    constructor
    · intro h
      rw [field?, decodePassword?] at h
      split at h
      · next lengthField charsField hfields =>
        split at h
        · next hlength hchars =>
          obtain ⟨length, lengthSaid, rfl⟩ := field?_eq_some_iff.1 hlength
          obtain ⟨chars, charsSaid, rfl⟩ := field?_eq_some_iff.1 hchars
          exact ⟨length, chars, ⟨_, _, hfields, lengthSaid, charsSaid⟩, (Option.some.inj h).symm⟩
        · cases h
      · cases h
    · rintro ⟨length, chars, ⟨_, _, hfields, hlength, hchars⟩, rfl⟩
      rw [sectionFields?] at hfields
      rw [field?, decodePassword?, hfields]
      simp only [field?_eq_some_iff.2 ⟨length, hlength, rfl⟩,
        field?_eq_some_iff.2 ⟨chars, hchars, rfl⟩]

theorem single_eq_some_iff {β : Type} {name : String} {read : Node → Option α} {otherwise : α}
    {make : α → β} {decode : Node → Option β}
    (hdecode : ∀ node, decode node = match Document.record? [name] node with
      | some [field] => (field? read otherwise field).map make
      | _ => none) {section? : Option Node} {settings : β} :
    field? decode (make otherwise) section? = some settings ↔
      ∃ said, SingleSays name read section? said ∧ settings = make (said.getD otherwise) := by
  cases section? with
  | none =>
    constructor
    · intro h
      exact ⟨none, ⟨none, rfl, .missing⟩, (Option.some.inj h).symm⟩
    · rintro ⟨_, ⟨_, hfields, hsaid⟩, rfl⟩
      cases hfields
      cases hsaid
      rfl
  | some node =>
    constructor
    · intro h
      rw [field?, hdecode] at h
      split at h
      · next field hfields =>
        obtain ⟨value, hvalue, rfl⟩ := Option.map_eq_some_iff.1 h
        obtain ⟨said, hsaid, rfl⟩ := field?_eq_some_iff.1 hvalue
        exact ⟨said, ⟨_, hfields, hsaid⟩, rfl⟩
      · cases h
    · rintro ⟨said, ⟨_, hfields, hsaid⟩, rfl⟩
      rw [sectionFields?] at hfields
      rw [field?, hdecode, hfields]
      simp only [field?_eq_some_iff.2 ⟨said, hsaid, rfl⟩, Option.map_some]

theorem decodePipe?_eq_some_iff {section? : Option Node} {settings : PipeSettings} :
    field? decodePipe? defaultPipe section? = some settings ↔
      ∃ shell, SingleSays "shell" Document.text? section? shell ∧
        settings = ⟨shell.getD defaultPipe.shell⟩ :=
  single_eq_some_iff fun _ => rfl

theorem decodePaths?_eq_some_iff {section? : Option Node} {settings : PathSettings} :
    field? decodePaths? defaultPaths section? = some settings ↔
      ∃ home, SingleSays "home" Document.optionalText? section? home ∧
        settings = ⟨home.getD defaultPaths.home⟩ :=
  single_eq_some_iff fun _ => rfl

/-- Decoding gives what the document says, and the defaults for the rest. -/
theorem decode?_eq_some_iff {node : Node} {settings : Settings} :
    decode? node = some settings ↔ ∃ said, Says node said ∧ settings = said.orDefault := by
  constructor
  · intro h
    rw [decode?] at h
    split at h
    · next http password pipe paths hsections =>
      split at h
      · next hhttp hpassword hpipe hpaths =>
        obtain ⟨timeout, certs, agent, httpSaid, rfl⟩ := decodeHttp?_eq_some_iff.1 hhttp
        obtain ⟨length, chars, passwordSaid, rfl⟩ := decodePassword?_eq_some_iff.1 hpassword
        obtain ⟨shell, pipeSaid, rfl⟩ := decodePipe?_eq_some_iff.1 hpipe
        obtain ⟨home, pathsSaid, rfl⟩ := decodePaths?_eq_some_iff.1 hpaths
        exact ⟨⟨timeout, certs, agent, length, chars, shell, home⟩,
          ⟨http, password, pipe, paths, hsections, httpSaid, passwordSaid, pipeSaid, pathsSaid⟩,
          (Option.some.inj h).symm⟩
      · cases h
    · cases h
  · rintro ⟨said, ⟨_, _, _, _, hsections, httpSaid, passwordSaid, pipeSaid, pathsSaid⟩, rfl⟩
    rw [decode?, hsections]
    simp only [decodeHttp?_eq_some_iff.2 ⟨_, _, _, httpSaid, rfl⟩,
      decodePassword?_eq_some_iff.2 ⟨_, _, passwordSaid, rfl⟩,
      decodePipe?_eq_some_iff.2 ⟨_, pipeSaid, rfl⟩,
      decodePaths?_eq_some_iff.2 ⟨_, pathsSaid, rfl⟩]
    rfl

end

/-! ## What a file says -/

def YamlSays (text : String) (said : Said) : Prop :=
  ∃ node, Yaml.parse? text = some node ∧ Says node said

def JsonSays (text : String) (said : Said) : Prop :=
  ∃ node, Json.Source.parse? text = some node ∧ Says node said

def TomlSays (text : String) (said : Said) : Prop :=
  ∃ node, Toml.parse? text = some node ∧ Says node said

/-- What a text says in the format that an extension demands.  Without a known extension it is
TOML, or YAML if it is no TOML. -/
inductive Reads (text : String) : String → Said → Prop
  | yaml {extension : String} {said : Said} (hextension : extension ∈ ["yml", "yaml"])
      (hsaid : YamlSays text said) : Reads text extension said
  | json {said : Said} (hsaid : JsonSays text said) : Reads text "json" said
  | toml {extension : String} {said : Said} (hextension : extension ∉ ["yml", "yaml", "json"])
      (hsaid : TomlSays text said) : Reads text extension said
  | either {extension : String} {said : Said} (hextension : extension ∉ ["yml", "yaml", "json"])
      (htoml : ∀ other, ¬ TomlSays text other) (hsaid : YamlSays text said) :
    Reads text extension said

/-- What the file at a path says. -/
def FileSays (disk : Disk) (here : Location) (path : String) (said : Said) : Prop :=
  ∃ text, disk.readText here path = .ok text ∧
    Reads text ((Path.extension? path).getD "") said

theorem bind_decode?_eq_some_iff {Node : Type} [Document Node] {node? : Option Node}
    {settings : Settings} :
    node?.bind decode? = some settings ↔
      ∃ said, (∃ node, node? = some node ∧ Says node said) ∧ settings = said.orDefault := by
  rw [Option.bind_eq_some_iff]
  constructor
  · rintro ⟨node, hnode, hdecode⟩
    obtain ⟨said, hsaid, rfl⟩ := decode?_eq_some_iff.1 hdecode
    exact ⟨said, ⟨node, hnode, hsaid⟩, rfl⟩
  · rintro ⟨said, ⟨node, hnode, hsaid⟩, rfl⟩
    exact ⟨node, hnode, decode?_eq_some_iff.2 ⟨said, hsaid, rfl⟩⟩

theorem ofYaml?_eq_some_iff {text : String} {settings : Settings} :
    ofYaml? text = some settings ↔ ∃ said, YamlSays text said ∧ settings = said.orDefault :=
  bind_decode?_eq_some_iff

theorem ofJson?_eq_some_iff {text : String} {settings : Settings} :
    ofJson? text = some settings ↔ ∃ said, JsonSays text said ∧ settings = said.orDefault :=
  bind_decode?_eq_some_iff

theorem ofToml?_eq_some_iff {text : String} {settings : Settings} :
    ofToml? text = some settings ↔ ∃ said, TomlSays text said ∧ settings = said.orDefault :=
  bind_decode?_eq_some_iff

theorem ofToml?_eq_none_iff {text : String} :
    ofToml? text = none ↔ ∀ said, ¬ TomlSays text said := by
  constructor
  · intro hnone said hsaid
    rw [ofToml?_eq_some_iff.2 ⟨said, hsaid, rfl⟩] at hnone
    cases hnone
  · intro h
    rw [Option.eq_none_iff_forall_ne_some]
    intro settings hsome
    obtain ⟨said, hsaid, _⟩ := ofToml?_eq_some_iff.1 hsome
    exact h said hsaid

theorem reads_yaml_iff {extension text : String} {said : Said}
    (h : extension = "yml" ∨ extension = "yaml") :
    Reads text extension said ↔ YamlSays text said := by
  have hmem : extension ∈ ["yml", "yaml"] := by simpa using h
  have hknown : extension ∈ ["yml", "yaml", "json"] := List.mem_append_left ["json"] hmem
  constructor
  · intro hreads
    cases hreads with
    | yaml _ hsaid => exact hsaid
    | json _ => rcases h with h | h <;> exact absurd h (by decide)
    | toml hextension _ => exact absurd hknown hextension
    | either hextension _ _ => exact absurd hknown hextension
  · exact .yaml hmem

theorem reads_json_iff {text : String} {said : Said} :
    Reads text "json" said ↔ JsonSays text said := by
  have hknown : "json" ∈ ["yml", "yaml", "json"] := by decide
  constructor
  · intro hreads
    cases hreads with
    | yaml hextension _ => exact absurd hextension (by decide)
    | json hsaid => exact hsaid
    | toml hextension _ => exact absurd hknown hextension
    | either hextension _ _ => exact absurd hknown hextension
  · exact .json

theorem reads_other_iff {extension text : String} {said : Said}
    (h : extension ∉ ["yml", "yaml", "json"]) :
    Reads text extension said ↔
      TomlSays text said ∨ (∀ other, ¬ TomlSays text other) ∧ YamlSays text said := by
  constructor
  · intro hreads
    cases hreads with
    | yaml hextension _ => exact absurd (List.mem_append_left ["json"] hextension) h
    | json _ => exact absurd (by decide) h
    | toml _ hsaid => exact .inl hsaid
    | either _ htoml hsaid => exact .inr ⟨htoml, hsaid⟩
  · rintro (hsaid | ⟨htoml, hsaid⟩)
    · exact .toml h hsaid
    · exact .either h htoml hsaid

/-- A text is read as its extension demands. -/
theorem ofText?_eq_some_iff {extension text : String} {settings : Settings} :
    ofText? extension text = some settings ↔
      ∃ said, Reads text extension said ∧ settings = said.orDefault := by
  rw [ofText?]
  by_cases hyaml : extension = "yml" ∨ extension = "yaml"
  · rw [if_pos hyaml, ofYaml?_eq_some_iff]
    simp only [reads_yaml_iff hyaml]
  rw [if_neg hyaml]
  by_cases hjson : extension = "json"
  · rw [if_pos hjson, ofJson?_eq_some_iff, hjson]
    simp only [reads_json_iff]
  rw [if_neg hjson, Option.or_eq_some_iff, ofToml?_eq_none_iff, ofToml?_eq_some_iff,
    ofYaml?_eq_some_iff]
  have hother : extension ∉ ["yml", "yaml", "json"] := by
    simpa only [List.mem_cons, List.not_mem_nil, or_false, not_or, and_assoc] using
      And.intro (not_or.1 hyaml) hjson
  simp only [reads_other_iff hother]
  constructor
  · rintro (⟨said, hsaid, rfl⟩ | ⟨htoml, said, hsaid, rfl⟩)
    · exact ⟨said, .inl hsaid, rfl⟩
    · exact ⟨said, .inr ⟨htoml, hsaid⟩, rfl⟩
  · rintro ⟨said, hsaid | ⟨htoml, hsaid⟩, rfl⟩
    · exact .inl ⟨said, hsaid, rfl⟩
    · exact .inr ⟨htoml, said, hsaid, rfl⟩

/-- Loading one file gives what it says. -/
theorem fromFile_eq_ok_iff_says {disk : Disk} {here : Location} {path : String}
    {settings : Settings} :
    fromFile disk here path = .ok settings ↔
      ∃ said, FileSays disk here path said ∧ settings = said.orDefault := by
  rw [fromFile_eq_ok_iff]
  constructor
  · rintro ⟨text, hread, hparse⟩
    obtain ⟨said, hreads, rfl⟩ := ofText?_eq_some_iff.1 hparse
    exact ⟨said, ⟨text, hread, hreads⟩, rfl⟩
  · rintro ⟨said, ⟨text, hread, hreads⟩, rfl⟩
    exact ⟨text, hread, ofText?_eq_some_iff.2 ⟨said, hreads, rfl⟩⟩

/-- Why a file gives no settings: it cannot be read, or its text says nothing. -/
inductive Spoils (disk : Disk) (here : Location) (path : String) : LoadProblem → Prop
  | unreadable {fault : Fault} (h : disk.readText here path = .error fault) :
    Spoils disk here path (.unreadable path fault)
  | malformed {text : String} (hread : disk.readText here path = .ok text)
      (hsaid : ∀ said, ¬ Reads text ((Path.extension? path).getD "") said) :
    Spoils disk here path (.malformed path)

theorem fromFile_eq_error_iff {disk : Disk} {here : Location} {path : String}
    {problem : LoadProblem} :
    fromFile disk here path = .error problem ↔ Spoils disk here path problem := by
  rw [fromFile]
  constructor
  · intro h
    split at h
    · next fault hread =>
      obtain rfl := Except.error.inj h
      exact .unreadable hread
    · next text hread =>
      split at h
      · cases h
      · next hnone =>
        obtain rfl := Except.error.inj h
        refine .malformed hread fun said hreads => ?_
        rw [ofText?_eq_some_iff.2 ⟨said, hreads, rfl⟩] at hnone
        cases hnone
  · intro h
    cases h with
    | unreadable hread => simp only [hread]
    | malformed hread hsaid =>
      simp only [hread]
      split
      · next settings hsome =>
        obtain ⟨said, hreads, _⟩ := ofText?_eq_some_iff.1 hsome
        exact absurd hreads (hsaid said)
      · rfl

end LookupEngine.Settings
