import LookupEngine.Context
import LookupEngine.Lookup.Card
import LookupEngine.Machine.World
import LookupEngine.Options
/-!
# Command output

The lookup `pipe` hands each term as a command to a runner and gives what it writes.  The
runner belongs to some state, and the lookup knows of it only what it has to: whether the
caller has cancelled.  A command that does not end well fails the lookup.
-/

namespace LookupEngine.Lookup.Command

/-- How a command has ended, and what it has written. -/
structure Output where
  code : Int
  stdout : String
  stderr : String
deriving Repr, DecidableEq

/-- Runs a command in a directory, or in the one of the process. -/
abbrev Runner (State : Type) := String → Option String → Action State Output

structure Manner where
  rstrip : Bool
  directory : Option String
deriving Repr, DecidableEq

def manner (context : Context) (environment : Environment) (options : Options) : Manner where
  rstrip := options.flagOr "rstrip" true
  directory := ((options.text? "cwd").map (context.resolve environment)).or context.workDir

variable {State : Type}

/-- The value of one command. -/
def one (runner : Runner State) (manner : Manner) (command : String) :
    Action State (List Value) := do
  let output ← runner command manner.directory
  if output.code = 0 then
    pure [.string (if manner.rstrip then Text.trimEnd output.stdout else output.stdout)]
  else throw (.sourceUnavailable command (.exit output.code (Text.trim output.stderr)))

def run (isCancelled : State → Bool) (runner : Runner State) (manner : Manner)
    (commands : List String) : Action State (List Value) :=
  Action.collect isCancelled (one runner manner) commands

def card : Card :=
  .builtin "pipe" "Runs commands and returns their output"
    ["date +%Y-%m-%d", "git rev-parse HEAD"]
    [.withDefault "rstrip" "Strip trailing whitespace" "bool" "true",
      .plain "cwd" "Directory to run the command in" "path"]

end LookupEngine.Lookup.Command
