import LookupEngine.Settings
import LookupEngine.Path
import LookupEngine.Machine.Environment
/-!
# Contexts

What every lookup is run with: the settings and the directory that relative paths are
resolved against.
-/

namespace LookupEngine

structure Context where
  settings : Settings
  workDir : Option String
deriving Repr, DecidableEq

/-- The directory that `~` stands for: the one of the settings, else the process's. -/
def Settings.home? (settings : Settings) (environment : Environment) : Option String :=
  settings.paths.home.or environment.home?

namespace Context

/-- The path with its tilde expanded. -/
def expandHome (context : Context) (environment : Environment) (path : String) : String :=
  Path.expandTilde (context.settings.home? environment) path

/-- A relative path inside the working directory. -/
def inWorkDir (context : Context) (path : String) : String :=
  match context.workDir with
  | some dir => Path.join dir path
  | none => path

/-- The path that a term names: its tilde expanded, then joined to the working directory. -/
def resolve (context : Context) (environment : Environment) (path : String) : String :=
  context.inWorkDir (context.expandHome environment path)

end Context

end LookupEngine
