import LookupEngine.Context
import LookupEngine.Glob
import LookupEngine.Lookup.Card
import LookupEngine.Machine.World
import LookupEngine.Options
/-!
# Finding files

The lookups `fileglob`, which lists the regular files that match a pattern, and
`first_found`, which gives the first path that leads to anything.
-/

namespace LookupEngine.Lookup

namespace FileGlob

def one (context : Context) (term : String) : Action World (List Value) := do
  let world ← get
  match Glob.files ⟨world.disk, world.here⟩ (context.resolve world.environment term) with
  | .ok paths => pure (paths.map .string)
  | .error problem => throw (.invalidTerm term (.pattern problem))

def run (context : Context) (terms : List String) : Action World (List Value) :=
  Action.collect World.isCancelled (one context) terms

def card : Card :=
  .builtin "fileglob" "Lists regular files matching glob patterns"
    ["/etc/nginx/conf.d/*.conf", "files/**/*.j2"] []

end FileGlob

namespace FirstFound

structure Manner where
  files : List String
  paths : List String
  skip : Bool
deriving Repr, DecidableEq

def manner (options : Options) : Manner where
  files := (options.list? "files").getD []
  paths := (options.list? "paths").getD []
  skip := options.flagOr "skip" false

/-- The paths at which a candidate may be: in each of the directories, or where it says
itself. -/
def probes (context : Context) (environment : Environment) (paths : List String)
    (candidate : String) : List String :=
  let expanded := context.expandHome environment candidate
  if paths.isEmpty || Path.isAbsolute expanded then [context.resolve environment candidate]
  else paths.map fun dir => Path.join (context.resolve environment dir) expanded

/-- The first path of a candidate that leads to anything. -/
def probe? (context : Context) (paths : List String) (world : World) (candidate : String) :
    Option String :=
  (probes context world.environment paths candidate).find? fun path =>
    world.disk.pathExists world.here path

/-- The first path of all candidates that leads to anything. -/
def search (context : Context) (paths : List String) :
    List String → Action World (Option String)
  | [] => pure none
  | candidate :: rest => do
    Action.check World.isCancelled
    match probe? context paths (← get) candidate with
    | some path => pure (some path)
    | none => search context paths rest

def run (context : Context) (options : Options) (terms : List String) :
    Action World (List Value) := do
  let manner := manner options
  let candidates := terms ++ manner.files
  match ← search context manner.paths candidates with
  | some path => pure [.string path]
  | none => if manner.skip then pure [] else throw (.noMatch candidates)

def card : Card :=
  .builtin "first_found" "Returns the first existing path from a list of candidates"
    ["vars/RedHat.yml vars/default.yml"]
    [.plain "files" "Extra candidate files" "list",
      .plain "paths" "Directories to search candidates in" "list",
      .withDefault "skip" "Return nothing instead of failing" "bool" "false"]

end FirstFound

end LookupEngine.Lookup
