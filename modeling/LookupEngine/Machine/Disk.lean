import LookupEngine.Machine.Fault
import LookupEngine.Path
import LookupEngine.Text.Utf8
/-!
# Disks

A disk is a finite map from locations to entries.  A location is the list of names on
the way from the root, so it passes no link; the root itself is always a directory.
Paths are walked name by name as the system does it: links are followed, but no more
than forty of them, and every name but the last has to be there.
-/

namespace LookupEngine

/-- The names on the way from the root. -/
abbrev Location := List String

inductive Entry where
  | file (content : Bytes) (mode : Nat)
  | directory (mode : Nat)
  | link (target : String)
  /-- A device that reads as empty. -/
  | device
  /-- A program of the system. -/
  | program
deriving Repr, DecidableEq

structure Disk where
  entries : List (Location × Entry)
deriving Repr, DecidableEq

namespace Disk

/-- The most links that one walk follows. -/
def mostLinks : Nat := 40

/-- The most bytes in one name. -/
def longestName : Nat := 255

/-- The most bytes in a path. -/
def longestPath : Nat := 4095

/-- The mode of directories and files that are put on the disk without one of their own. -/
def plainDirectory : Nat := 0o755
def plainFile : Nat := 0o644

def empty : Disk := ⟨[]⟩

/-- What is at a location. -/
def find? (disk : Disk) (location : Location) : Option Entry :=
  if location.isEmpty then some (.directory plainDirectory) else disk.entries.lookup location

/-- Puts an entry at a location, in place of what was there. -/
def set (disk : Disk) (location : Location) (entry : Entry) : Disk :=
  ⟨(location, entry) :: disk.entries.filter fun (other, _) => other != location⟩

/-- Removes a location and everything below it. -/
def clear (disk : Disk) (location : Location) : Disk :=
  ⟨disk.entries.filter fun (other, _) => !location.isPrefixOf other⟩

def isDirectoryAt (disk : Disk) (location : Location) : Bool :=
  match disk.find? location with
  | some (.directory _) => true
  | _ => false

/-- The names directly below a location. -/
def namesBelow (disk : Disk) (location : Location) : List String :=
  (disk.entries.filterMap fun (other, _) =>
    if other.dropLast = location then other.getLast? else none).mergeSort fun a b => decide (a ≤ b)

/-- Goes from a directory to what it has under a name.  The last name need not be there.  A
link is followed by `onLink`, with the names that its target and the rest of the walk have; a
link at the end is followed only under `follow`. -/
def enter (disk : Disk) (follow : Bool)
    (onLink : Location → List (List Char) → Except Fault Location) (here : Location)
    (name : List Char) (rest : List (List Char)) (goOn : Location → Except Fault Location) :
    Except Fault Location :=
  let there := here ++ [String.ofList name]
  match disk.find? there with
  | none => if rest.isEmpty then .ok there else .error .missing
  | some (.link target) =>
    if rest.isEmpty && !follow then .ok there
    else
      onLink (if Path.isAbsolute target then [] else here) (Path.names target.toList ++ rest)
  | some _ => goOn there

/-- Walks over some names as far as the first link that has to be followed. -/
def descend (disk : Disk) (follow : Bool)
    (onLink : Location → List (List Char) → Except Fault Location) :
    Location → List (List Char) → Except Fault Location
  | here, [] => .ok here
  | here, name :: rest =>
    if !disk.isDirectoryAt here then .error .notDirectory
    else if name = ['.'] then descend disk follow onLink here rest
    else if name = ['.', '.'] then descend disk follow onLink here.dropLast rest
    else if (String.ofList name).utf8ByteSize > longestName then .error .nameTooLong
    else
      disk.enter follow onLink here name rest fun there =>
        descend disk follow onLink there rest

/-- Where a walk over some names ends that follows at most `links` links. -/
def walk (disk : Disk) (follow : Bool) :
    Nat → Location → List (List Char) → Except Fault Location
  | 0 => disk.descend follow fun _ _ => .error .linkLoop
  | links + 1 => disk.descend follow (walk disk follow links)

/-- Walks a path from a directory.  A system call takes no NUL byte and no path that is
empty or too long. -/
def locate (disk : Disk) (follow : Bool) (here : Location) (path : String) :
    Except Fault Location :=
  if path.toList.contains (Char.ofNat 0) then .error .nulInName
  else if path.isEmpty then .error .missing
  else if path.utf8ByteSize > longestPath then .error .nameTooLong
  else
    walk disk follow mostLinks (if Path.isAbsolute path then [] else here) (Path.names path.toList)

/-- The entry that a path leads to, through links. -/
def status (disk : Disk) (here : Location) (path : String) : Except Fault (Location × Entry) :=
  match disk.locate true here path with
  | .error fault => .error fault
  | .ok location =>
    match disk.find? location with
    | none => .error .missing
    | some entry => .ok (location, entry)

/-- Whether a path leads to anything. -/
def pathExists (disk : Disk) (here : Location) (path : String) : Bool :=
  match disk.status here path with
  | .ok _ => true
  | .error _ => false

def isDirectory (disk : Disk) (here : Location) (path : String) : Bool :=
  match disk.status here path with
  | .ok (_, .directory _) => true
  | _ => false

/-- Whether a path leads to a regular file. -/
def isFile (disk : Disk) (here : Location) (path : String) : Bool :=
  match disk.status here path with
  | .ok (_, .file _ _) => true
  | .ok (_, .program) => true
  | _ => false

def readBytes (disk : Disk) (here : Location) (path : String) : Except Fault Bytes :=
  match disk.status here path with
  | .error fault => .error fault
  | .ok (_, .file content _) => .ok content
  | .ok (_, .directory _) => .error .isDirectory
  | .ok (_, _) => .ok []

/-- The content of a file that is text. -/
def readText (disk : Disk) (here : Location) (path : String) : Except Fault String :=
  match disk.readBytes here path with
  | .error fault => .error fault
  | .ok content =>
    match Utf8.decode? content with
    | some text => .ok text
    | none => .error .notText

/-- The names in a directory in order. -/
def list (disk : Disk) (here : Location) (path : String) : Except Fault (List String) :=
  match disk.status here path with
  | .error fault => .error fault
  | .ok (location, .directory _) => .ok (disk.namesBelow location)
  | .ok _ => .error .notDirectory

/-- Makes one directory.  A path that ends in a dot names something that is there. -/
def makeDirectory (disk : Disk) (here : Location) (mode : Nat) (path : String) :
    Except Fault Disk :=
  match disk.locate false here (Path.bare path) with
  | .error fault => .error fault
  | .ok location =>
    match disk.find? location with
    | some _ => .error .alreadyExists
    | none => .ok (disk.set location (.directory mode))

/-- Makes a directory, unless it is there already. -/
def ensureDirectory (disk : Disk) (here : Location) (mode : Nat) (path : String) :
    Except Fault Unit × Disk :=
  match disk.makeDirectory here mode path with
  | .ok disk => (.ok (), disk)
  | .error fault => (if disk.isDirectory here path then .ok () else .error fault, disk)

/-- Makes a directory and those it is in, as far as they are missing.  Every step goes to a
shorter path, and what has been made stays where a later step fails. -/
def makeDirectoriesWithin : Nat → Disk → Location → Nat → String → Except Fault Unit × Disk
  | 0, disk, _, _, _ => (.error .missing, disk)
  | steps + 1, disk, here, mode, path =>
    if path.isEmpty then (.ok (), disk)
    else
      match disk.makeDirectory here mode path with
      | .error .missing =>
        match Path.parent? path with
        | none => (.error (.stated "failed to create whole tree"), disk)
        | some parent =>
          match makeDirectoriesWithin steps disk here mode parent with
          | (.error fault, disk) => (.error fault, disk)
          | (.ok (), disk) => disk.ensureDirectory here mode path
      | _ => disk.ensureDirectory here mode path

def makeDirectories (disk : Disk) (here : Location) (mode : Nat) (path : String) :
    Except Fault Unit × Disk :=
  makeDirectoriesWithin (path.length + 1) disk here mode path

/-- Whether the last name of a path, as it is written, is `.` or `..`. -/
def endsInDots (path : String) : Bool :=
  match ((Path.names path.toList).filter (· ≠ ['.'])).getLast?, (Path.names path.toList).getLast? with
  | some ['.', '.'], _ => true
  | none, _ => true
  | _, some ['.'] => path.toList.getLast? ≠ some '/'
  | _, _ => false

/-- Puts a finished file under a name that is still free.  A link there counts as taken,
wherever it leads. -/
def publish (disk : Disk) (here : Location) (path : String) (content : Bytes) (mode : Nat) :
    Except Fault Disk :=
  match disk.locate false here (Path.bare path) with
  | .error fault => .error fault
  | .ok location =>
    if endsInDots path then .error .alreadyExists
    else
      match disk.find? location with
      | some _ => .error .alreadyExists
      | none =>
        if path.toList.getLast? = some '/' then .error .notDirectory
        else .ok (disk.set location (.file content mode))

/-- Writes a file, through links, and keeps the mode of one that is there. -/
def writeFile (disk : Disk) (here : Location) (path : String) (content : Bytes) :
    Except Fault Disk :=
  match disk.locate true here path with
  | .error fault => .error fault
  | .ok location =>
    match disk.find? location with
    | none => .ok (disk.set location (.file content plainFile))
    | some (.file _ mode) => .ok (disk.set location (.file content mode))
    | some (.directory _) => .error .isDirectory
    | some _ => .ok disk

/-- Makes a link under a name that is still free. -/
def makeLink (disk : Disk) (here : Location) (path target : String) : Except Fault Disk :=
  match disk.locate false here path with
  | .error fault => .error fault
  | .ok location =>
    match disk.find? location with
    | some _ => .error .alreadyExists
    | none => .ok (disk.set location (.link target))

/-- Removes a file, a link, or a directory with everything in it. -/
def remove (disk : Disk) (here : Location) (path : String) : Except Fault Disk :=
  match disk.locate false here path with
  | .error fault => .error fault
  | .ok location =>
    match disk.find? location with
    | none => .error .missing
    | some _ => if location.isEmpty then .error .denied else .ok (disk.clear location)

/-- The permission bits of what a path leads to. -/
def mode? (disk : Disk) (here : Location) (path : String) : Option Nat :=
  match disk.status here path with
  | .ok (_, .file _ mode) => some mode
  | .ok (_, .directory mode) => some mode
  | .ok (_, .device) => some 0o666
  | .ok (_, .program) => some 0o755
  | _ => none

end Disk

end LookupEngine
