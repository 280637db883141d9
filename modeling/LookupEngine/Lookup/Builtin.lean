import LookupEngine.Lookup.Command
import LookupEngine.Lookup.Fetch
import LookupEngine.Lookup.Finding
import LookupEngine.Lookup.Password
import LookupEngine.Lookup.Progression
import LookupEngine.Lookup.Reading
import LookupEngine.Lookup.Table
import LookupEngine.Lookup.Variable
import LookupEngine.Registry
import LookupEngine.Shell
/-!
# Lookups that come with the program

The ten lookups as plugins, and the registry that holds them under their own names.
-/

namespace LookupEngine.Lookup

def file : Plugin :=
  .forgetful File.card Plugin.acceptAll fun context request =>
    File.run context request.options request.terms

def lines : Plugin :=
  .forgetful Lines.card Plugin.acceptAll fun context request =>
    Lines.run context request.options request.terms

def fileGlob : Plugin :=
  .forgetful FileGlob.card Plugin.acceptAll fun context request =>
    FileGlob.run context request.terms

def firstFound : Plugin :=
  .forgetful FirstFound.card Plugin.acceptAll fun context request =>
    FirstFound.run context request.options request.terms

def env : Plugin :=
  .forgetful Variable.card Plugin.acceptAll fun _ request =>
    Variable.run request.options request.terms

/-- The lookup of commands, with a runner that may depend on the settings. -/
def pipeWith (runner : Settings → Command.Runner World) : Plugin :=
  .forgetful Command.card Plugin.acceptAll fun context request => do
    let world ← get
    Command.run World.isCancelled (runner context.settings)
      (Command.manner context world.environment request.options) request.terms

/-- Commands are run by the shell of the settings. -/
def pipe : Plugin := pipeWith fun settings => Shell.runner settings.pipe.shell

def url : Plugin :=
  .forgetful Fetch.card Fetch.validate fun context request =>
    Fetch.run context request.options request.terms

def password : Plugin :=
  .forgetful Password.card Plugin.acceptAll fun context request =>
    Password.run context request.options request.terms

def sequence : Plugin :=
  .forgetful Progression.card Plugin.acceptAll fun _ request => Progression.run request.terms

def csvFile : Plugin :=
  .forgetful Table.card Plugin.acceptAll fun context request =>
    Table.run context request.options request.terms

/-- All of them. -/
def builtins : List Plugin :=
  [file, env, pipe, fileGlob, firstFound, lines, url, password, sequence, csvFile]

end LookupEngine.Lookup

namespace LookupEngine.Registry

/-- The registry of the lookups that come with the program, each made a factory in some way. -/
def builtinWith {Factory : Type} (make : Plugin → Factory) : Registry Factory :=
  Lookup.builtins.foldl
    (fun registry plugin => registry.register plugin.card.name (make plugin)) .empty

/-- The registry of the lookups that come with the program. -/
def builtin : Registry := builtinWith id

end LookupEngine.Registry
