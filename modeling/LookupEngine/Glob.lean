import LookupEngine.Glob.Pattern
import LookupEngine.Machine.Disk
/-!
# Expanding globs

The paths on a disk that match a pattern.  The pattern is cut at its slashes, and each
component is matched against the names in the directories that the ones before it led to.
A component without wildcards is looked up and need not be listed.  Any number of
directories in between are visited depth first, links included, so the search ends only
because no path longer than the system takes leads anywhere.
-/

namespace LookupEngine.Glob

/-- Where a search looks: the disk, seen from a directory. -/
structure Site where
  disk : Disk
  here : Location

namespace Site

def isDirectory (site : Site) (path : String) : Bool := site.disk.isDirectory site.here path

/-- Whether there is anything at a path, be it a link that leads nowhere. -/
def isTaken (site : Site) (path : String) : Bool :=
  match site.disk.locate false site.here path with
  | .ok location => (site.disk.find? location).isSome
  | .error _ => false

/-- The names in a directory in order. -/
def names (site : Site) (path : String) : List String :=
  match site.disk.list site.here path with
  | .ok names => names
  | .error _ => []

end Site

/-- A name inside a directory; what is in `.` is called by its name alone. -/
def inside (path name : String) : String := if path = "." then name else Path.join path name

/-- The patterns after those that also stand for any directories. -/
def afterDirectories : List Pattern → List Pattern
  | [] => []
  | pattern :: rest => if pattern.isRecursive then afterDirectories rest else pattern :: rest

/-- The entries `.` and `..` of a directory, which only a pattern with a leading dot
matches. -/
def dots (pattern : Pattern) : List String :=
  if pattern.head? = some (.literal '.') then
    ["..", "."].filter fun name => pattern.matchesName name.toList
  else []

mutual

/-- The paths below `path` that match the patterns.  `pattern` is the first of them. -/
def expand (site : Site) : Nat → Pattern → List Pattern → String → List String
  | 0, _, _, _ => []
  | depth + 1, pattern, rest, path =>
    match pattern.literal? with
    | some name =>
      let name := String.ofList name
      let next := inside path name
      let found := if name = "." ∨ name = ".." then site.isDirectory path else site.isTaken next
      if found then proceed site depth rest next else []
    | none =>
      if site.isDirectory path then
        (dots pattern).flatMap (fun name => proceed site depth rest (Path.join path name)) ++
          (site.names path).flatMap fun name => visit site depth pattern rest (inside path name) name
      else []

/-- Goes on behind a path that has matched. -/
def proceed (site : Site) : Nat → List Pattern → String → List String
  | _, [], path => [path]
  | 0, _ :: _, _ => []
  | depth + 1, pattern :: rest, path => expand site depth pattern rest path

/-- The matches at and below an entry that is called `name`. -/
def visit (site : Site) : Nat → Pattern → List Pattern → String → String → List String
  | 0, _, _, _, _ => []
  | depth + 1, pattern, rest, path, name =>
    let here (pattern : Pattern) (rest : List Pattern) : List String :=
      if pattern.matchesName name.toList then proceed site depth rest path else []
    if pattern.isRecursive then
      match afterDirectories rest with
      | [] =>
        if site.isDirectory path then path :: expand site depth pattern [] path else []
      | next :: later =>
        here next later ++
          (if site.isDirectory path then expand site depth pattern (next :: later) path else [])
    else here pattern rest

end

/-- The components of a pattern; nothing follows a slash at the end. -/
def components (cs : List Char) : List (List Char) :=
  let pieces := Text.splitAny (· = '/') cs
  if pieces.getLast? = some [] then pieces.dropLast else pieces

/-- A step down takes at most three calls and adds a name to the path, or uses up a
component. -/
def deepest (patterns : List Pattern) : Nat := 3 * (Disk.longestPath + patterns.length + 1)

/-- The paths that match the components of a pattern below a directory. -/
def matchesBelow (site : Site) (start : String) (patterns : List Pattern) : List String :=
  proceed site (deepest patterns) patterns start

/-- The paths that match a pattern, in the order in which they are found. -/
def paths (site : Site) (pattern : String) : Except Problem (List String) :=
  let cs := pattern.toList
  match Pattern.parse cs with
  | .error problem => .error problem
  | .ok _ =>
    let (start, below) := match cs with
      | '/' :: below => ("/", below)
      | below => (".", below)
    match (components below).mapM Pattern.parse with
    | .error problem => .error problem
    | .ok patterns =>
      let patterns := if below.isEmpty then [[]] else patterns
      let found := matchesBelow site start patterns
      if cs.getLast? = some '/' then .ok (found.filter site.isDirectory) else .ok found

/-- The regular files that match a pattern. -/
def files (site : Site) (pattern : String) : Except Problem (List String) :=
  (paths site pattern).map fun found => found.filter fun path => site.disk.isFile site.here path

end LookupEngine.Glob
