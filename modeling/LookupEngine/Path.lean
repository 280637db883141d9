import LookupEngine.Text.Split
/-!
# Paths

A path is the text that names a file; nothing is resolved here.  Joining keeps `.` and
`..`, and an absolute right side replaces the left one.
-/

namespace LookupEngine.Path

def isAbsoluteChars : List Char → Bool
  | '/' :: _ => true
  | _ => false

def isAbsolute (path : String) : Bool := isAbsoluteChars path.toList

def joinChars (base rest : List Char) : List Char :=
  if isAbsoluteChars rest || base.isEmpty then rest
  else if base.getLast? = some '/' then base ++ rest
  else base ++ '/' :: rest

/-- `rest` inside the directory `base`. -/
def join (base rest : String) : String := String.ofList (joinChars base.toList rest.toList)

/-- A path read backwards without the slashes and single dots at its end.  A dot that
starts the path stays, and so does one slash. -/
def trimBack : List Char → List Char
  | ['/'] => ['/']
  | '/' :: rest => trimBack rest
  | ['.', '/'] => ['/']
  | '.' :: '/' :: rest => trimBack ('/' :: rest)
  | cs => cs

/-- What is left of a path read backwards after its last name. -/
def dropLastName (cs : List Char) : List Char := cs.dropWhile (· ≠ '/')

/-- The directory part of a path.  The root and the empty path have none, and a path of
one name has an empty one. -/
def parent? (path : String) : Option String :=
  match trimBack path.toList.reverse with
  | [] => none
  | ['/'] => none
  | cs => some (String.ofList (trimBack (dropLastName cs)).reverse)

/-- The last name of a path, unless it ends in `..`. -/
def fileName? (path : String) : Option String :=
  let name := ((trimBack path.toList.reverse).takeWhile (· ≠ '/')).reverse
  if name.isEmpty || name = ['.', '.'] || name = ['.'] then none else some (String.ofList name)

/-- What follows the last dot of the last name, unless the name starts with that dot. -/
def extension? (path : String) : Option String :=
  (fileName? path).bind fun name =>
    match Text.splitOnce '.' name.toList.reverse with
    | none => none
    | some (after, before) => if before.isEmpty then none else some (String.ofList after.reverse)

/-- The names of a path in order.  A slash at the end counts as a dot after it, so that
what it follows has to be a directory. -/
def names (path : List Char) : List (List Char) :=
  let found := (Text.splitAny (· = '/') path).filter (!·.isEmpty)
  if path.getLast? = some '/' then found ++ [['.']] else found

/-- The path without the slashes at its end, unless it has nothing else. -/
def bare (path : String) : String :=
  let plain := String.ofList (path.toList.reverse.dropWhile (· = '/')).reverse
  if plain.isEmpty then path else plain

/-- Puts `home` in the place of a tilde that is the whole path or stands before its first
slash. -/
def expandTilde (home : Option String) (path : String) : String :=
  match path.toList, home with
  | ['~'], some home => home
  | '~' :: '/' :: rest, some home => String.ofList (home.toList ++ '/' :: rest)
  | _, _ => path

end LookupEngine.Path
