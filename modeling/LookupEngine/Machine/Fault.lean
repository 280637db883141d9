import LookupEngine.Number.Integer
/-!
# Faults

What the operating system, or the reading of its data, refuses.  The texts are those of
the system; what the system itself refuses has a number there.
-/

namespace LookupEngine

inductive Fault where
  | missing
  | denied
  | alreadyExists
  | notDirectory
  | isDirectory
  | invalid
  | nameTooLong
  | linkLoop
  | wrongFormat
  | unreachable
  | refused
  | notText
  | nulInName
  | nulInArgument
  | noEntity
  | stated (text : String)
deriving Repr, DecidableEq

namespace Fault

def description : Fault → String
  | missing => "No such file or directory"
  | denied => "Permission denied"
  | alreadyExists => "File exists"
  | notDirectory => "Not a directory"
  | isDirectory => "Is a directory"
  | invalid => "Invalid argument"
  | nameTooLong => "File name too long"
  | linkLoop => "Too many levels of symbolic links"
  | wrongFormat => "Exec format error"
  | unreachable => "Network is unreachable"
  | refused => "Connection refused"
  | notText => "stream did not contain valid UTF-8"
  | nulInName => "file name contained an unexpected NUL byte"
  | nulInArgument => "nul byte found in provided data"
  | noEntity => "entity not found"
  | stated text => text

/-- The number under which the system knows a fault. -/
def number? : Fault → Option Nat
  | missing => some 2
  | wrongFormat => some 8
  | denied => some 13
  | alreadyExists => some 17
  | notDirectory => some 20
  | isDirectory => some 21
  | invalid => some 22
  | nameTooLong => some 36
  | linkLoop => some 40
  | unreachable => some 101
  | refused => some 111
  | _ => none

/-- The description, with the number if there is one. -/
def message (fault : Fault) : String :=
  match fault.number? with
  | some n => s!"{fault.description} (os error {Integer.write n})"
  | none => fault.description

end Fault

end LookupEngine
