/-!
# Settings

What a lookup takes from its configuration: how URLs are fetched, how passwords are
made, which shell runs commands and where `~` leads.
-/

namespace LookupEngine

structure HttpSettings where
  timeoutSeconds : Nat
  validateCerts : Bool
  userAgent : String
deriving Repr, DecidableEq

structure PasswordSettings where
  length : Nat
  chars : String
deriving Repr, DecidableEq

structure PipeSettings where
  shell : String
deriving Repr, DecidableEq

structure PathSettings where
  home : Option String
deriving Repr, DecidableEq

structure Settings where
  http : HttpSettings
  password : PasswordSettings
  pipe : PipeSettings
  paths : PathSettings
deriving Repr, DecidableEq

/-- The name under which the program speaks of itself. -/
def programName : String := "rustible-lookup"

def programVersion : String := "0.1.0"

def programAuthors : String := "Rustible Contributors"

namespace Settings

def defaultHttp : HttpSettings := ⟨30, true, s!"{programName}/{programVersion}"⟩

def defaultPassword : PasswordSettings := ⟨20, "ascii_letters,digits,.:-_"⟩

def defaultPipe : PipeSettings := ⟨"/bin/sh"⟩

def defaultPaths : PathSettings := ⟨none⟩

/-- The settings where no file and no variable says otherwise. -/
def default : Settings := ⟨defaultHttp, defaultPassword, defaultPipe, defaultPaths⟩

end Settings

end LookupEngine
