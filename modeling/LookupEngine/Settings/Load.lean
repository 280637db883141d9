import LookupEngine.Machine.Disk
import LookupEngine.Machine.Environment
import LookupEngine.Options
import LookupEngine.Toml
import LookupEngine.Yaml
/-!
# Loading settings

Settings come from the first file that exists among some candidates, read as its extension
says, and then from the environment, which has the last word.  Where neither speaks, the
defaults hold.
-/

namespace LookupEngine

/-- Why settings cannot be loaded. -/
inductive LoadProblem where
  | unreadable (path : String) (fault : Fault)
  | malformed (path : String)
deriving Repr, DecidableEq

namespace LoadProblem

def message : LoadProblem → String
  | unreadable path _ => s!"Failed to read config file: {path}"
  | malformed path => s!"Failed to parse config file: {path}"

/-- What the system says, if it is to blame. -/
def fault? : LoadProblem → Option Fault
  | unreadable _ fault => some fault
  | malformed _ => none

end LoadProblem

namespace Settings

def ofJson? (text : String) : Option Settings := (Json.Source.parse? text).bind decode?

def ofToml? (text : String) : Option Settings := (Toml.parse? text).bind decode?

def ofYaml? (text : String) : Option Settings := (Yaml.parse? text).bind decode?

/-- Reads a text as the extension of its file says; without a known one it may be TOML or
YAML. -/
def ofText? (extension : String) (text : String) : Option Settings :=
  if extension = "yml" ∨ extension = "yaml" then ofYaml? text
  else if extension = "json" then ofJson? text
  else (ofToml? text).or (ofYaml? text)

/-- Reads a file. -/
def fromFile (disk : Disk) (here : Location) (path : String) : Except LoadProblem Settings :=
  match disk.readText here path with
  | .error fault => .error (.unreadable path fault)
  | .ok text =>
    match ofText? ((Path.extension? path).getD "") text with
    | some settings => .ok settings
    | none => .error (.malformed path)

/-- The variables that outweigh the file. -/
def timeoutVariable : String := "RUSTIBLE_LOOKUP_HTTP_TIMEOUT"
def certsVariable : String := "RUSTIBLE_LOOKUP_VALIDATE_CERTS"
def lengthVariable : String := "RUSTIBLE_LOOKUP_PASSWORD_LENGTH"
def shellVariable : String := "RUSTIBLE_LOOKUP_SHELL"
def homeVariable : String := "RUSTIBLE_LOOKUP_HOME"

/-- The variable that names the file. -/
def fileVariable : String := "RUSTIBLE_LOOKUP_CONFIG"

def word? (environment : Environment) (name : String) : Option Nat :=
  (environment.text? name).bind fun text =>
    Integer.readUnsigned? Integer.greatestUnsigned text.toList

def certs? (environment : Environment) : Option Bool :=
  (environment.text? certsVariable).bind fun text => Flag.ofWord? (Text.lowerAscii text)

/-- The settings with those that the environment gives in their place.  A variable whose value
cannot be used changes nothing. -/
def override (settings : Settings) (environment : Environment) : Settings where
  http :=
    { settings.http with
      timeoutSeconds := (word? environment timeoutVariable).getD settings.http.timeoutSeconds
      validateCerts := (certs? environment).getD settings.http.validateCerts }
  password :=
    { settings.password with
      length := (word? environment lengthVariable).getD settings.password.length }
  pipe := ⟨(environment.text? shellVariable).getD settings.pipe.shell⟩
  paths := ⟨(environment.text? homeVariable).or settings.paths.home⟩

/-- The files that are asked for settings, the most important first: one that is named alone,
else those of the directory, of the home directory and of the system. -/
def candidates (environment : Environment) (explicit : Option String) : List String :=
  match explicit.or (environment.text? fileVariable) with
  | some path => [path]
  | none =>
    "lookup.toml" ::
      ((environment.homePath?.map fun home => Path.join home ".rustible/lookup.toml").toList ++
        ["/etc/rustible/lookup.toml"])

/-- The first candidate that exists. -/
def source? (disk : Disk) (here : Location) (environment : Environment)
    (explicit : Option String) : Option String :=
  (candidates environment explicit).find? (disk.pathExists here)

/-- Loads the settings. -/
def load (disk : Disk) (here : Location) (environment : Environment) (explicit : Option String) :
    Except LoadProblem Settings :=
  match source? disk here environment explicit with
  | none => .ok (default.override environment)
  | some path => (fromFile disk here path).map fun settings => settings.override environment

end Settings

end LookupEngine
