import LookupEngine.Context
import LookupEngine.Lookup.Card
import LookupEngine.Machine.World
import LookupEngine.Options
/-!
# Reading files

The lookups `file`, which gives the text of each file, and `lines`, which gives its lines.
The text of a file can be stripped of blanks in front and of line breaks at the end, and a
file that cannot be read can be passed over.
-/

namespace LookupEngine.Lookup

/-- What to do with a file that cannot be read. -/
inductive Strictness where
  | strict
  | warn
  | ignore
deriving Repr, DecidableEq

namespace Strictness

def ofWord (word : String) : Strictness :=
  if word = "ignore" then ignore else if word = "warn" then warn else strict

/-- Reads a word in any case; one that means nothing means to be strict. -/
def parse (text : String) : Strictness := ofWord (Text.lowerAscii (Text.trim text))

def name : Strictness → String
  | strict => "strict"
  | warn => "warn"
  | ignore => "ignore"

end Strictness

namespace File

structure Manner where
  rstrip : Bool
  lstrip : Bool
  errors : Strictness
deriving Repr, DecidableEq

def manner (options : Options) : Manner where
  rstrip := options.flagOr "rstrip" false
  lstrip := options.flagOr "lstrip" false
  errors := ((options.text? "errors").map Strictness.parse).getD .strict

/-- Strips blanks in front, then line breaks at the end. -/
def strip (manner : Manner) (text : String) : String :=
  let cs := if manner.lstrip then Text.trimStartChars text.toList else text.toList
  String.ofList
    (if manner.rstrip then Text.dropEndWhile (fun c => c = '\n' || c = '\r') cs else cs)

/-- The text of one file, or nothing if it is passed over. -/
def one (context : Context) (manner : Manner) (term : String) : Action World (List Value) := do
  let world ← get
  let path := context.resolve world.environment term
  match world.disk.readText world.here path with
  | .ok text => pure [.string (strip manner text)]
  | .error fault =>
    if manner.errors = .strict then throw (.sourceUnavailable path (.fault fault)) else pure []

def run (context : Context) (options : Options) (terms : List String) :
    Action World (List Value) :=
  Action.collect World.isCancelled (one context (manner options)) terms

def card : Card :=
  .builtin "file" "Reads file contents from the filesystem"
    ["/etc/hostname", "~/.ssh/id_ed25519.pub"]
    [.withDefault "rstrip" "Strip trailing newlines" "bool" "false",
      .withDefault "lstrip" "Strip leading whitespace" "bool" "false",
      .withDefault "errors" "strict, warn or ignore" "string" "strict"]

end File

namespace Lines

/-- The lines of a text. -/
def ofText (strip : Bool) (text : String) : List String :=
  (Text.lines text).map fun line => if strip then Text.trim line else line

def one (context : Context) (strip : Bool) (term : String) : Action World (List Value) := do
  let world ← get
  let path := context.resolve world.environment term
  match world.disk.readText world.here path with
  | .ok text => pure ((ofText strip text).map .string)
  | .error fault => throw (.sourceUnavailable path (.fault fault))

def run (context : Context) (options : Options) (terms : List String) :
    Action World (List Value) :=
  Action.collect World.isCancelled (one context (options.flagOr "strip" false)) terms

def card : Card :=
  .builtin "lines" "Reads files line by line" ["inventory/hosts.txt"]
    [.withDefault "strip" "Trim whitespace from each line" "bool" "false"]

end Lines

end LookupEngine.Lookup
