import LookupEngine.Text.Entries
import LookupEngine.Text.Utf8
/-!
# Environments

The variables of a process.  A value is any bytes without a NUL; whoever wants text
decides what to do with a value that is none.
-/

namespace LookupEngine

structure Environment where
  entries : Entries Bytes
  /-- The home directory that the account data of the system name. -/
  accountHome : Option String
deriving Repr, DecidableEq

namespace Environment

def bytes? (environment : Environment) (name : String) : Option Bytes :=
  environment.entries.find? name

/-- The value of a variable that is text. -/
def text? (environment : Environment) (name : String) : Option String :=
  (environment.bytes? name).bind Utf8.decode?

def set (environment : Environment) (name : String) (value : Bytes) : Environment :=
  { environment with entries := environment.entries.insert name value }

def unset (environment : Environment) (name : String) : Environment :=
  { environment with entries := environment.entries.erase name }

/-- The home directory: the variable `HOME` unless it is empty, else the account's. -/
def home? (environment : Environment) : Option String :=
  match environment.bytes? "HOME" with
  | some (b :: rest) => some (Utf8.decodeLossy (b :: rest))
  | _ => environment.accountHome

/-- The home directory as a path.  One that is no text names nothing, as every name on a disk
is text. -/
def homePath? (environment : Environment) : Option String :=
  match environment.bytes? "HOME" with
  | some (b :: rest) => Utf8.decode? (b :: rest)
  | _ => environment.accountHome

end Environment

end LookupEngine
