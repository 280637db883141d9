import LookupEngine.Program
/-!
# The command line

The outer layer of the program.  It looks at the machine once, as far as the arguments and the
settings name files and variables, runs the program on what it has seen, and then writes the
files that are new and the report.  All decisions are the program's.
-/

namespace LookupEngine.CommandLine

/-- Names that an argument may hold: itself, its words, and what follows an equals sign. -/
def namesIn (argument : String) : List String :=
  let words := (Text.words argument.toList).map String.ofList
  (argument :: words).flatMap fun word =>
    match Text.splitOnce '=' word.toList with
    | some (_, value) => [word, String.ofList value]
    | none => [word]

/-- The variables that matter to every run. -/
def usualVariables : List String :=
  ["HOME", "PATH", Settings.fileVariable, Settings.timeoutVariable, Settings.certsVariable,
    Settings.lengthVariable, Settings.shellVariable, Settings.homeVariable,
    Invocation.workDirVariable]

/-- Looks at variables. -/
def environment : List String → IO Environment
  | [] => pure ⟨[], none⟩
  | name :: rest => do
    let seen ← environment rest
    match ← IO.getEnv name with
    | some value => pure (seen.set name (Utf8.encode value))
    | none => pure seen

/-- The location of a path that is read as it is written. -/
def location (here : Location) (path : String) : Location :=
  (Path.names path.toList).foldl
    (fun place name =>
      if name = ['.'] then place
      else if name = ['.', '.'] then place.dropLast
      else place ++ [String.ofList name])
    (if Path.isAbsolute path then [] else here)

/-- Puts the directories on the way to a location on a disk. -/
def withDirectories (disk : Disk) (place : Location) : Disk :=
  (List.range place.length).foldl
    (fun disk n =>
      let place := place.take n
      if (disk.find? place).isSome then disk else disk.set place (.directory Disk.plainDirectory))
    disk

/-- The content of a file, if there is one. -/
def contentOf (path : String) : IO (Option Bytes) := do
  try
    let bytes ← IO.FS.readBinFile path
    pure (some bytes.toList)
  catch _ => pure none

/-- Looks at files. -/
def diskOf (here : Location) : List String → IO Disk
  | [] => pure (withDirectories Disk.empty (here ++ [""]))
  | path :: rest => do
    let disk ← diskOf here rest
    match ← contentOf path with
    | none => pure disk
    | some content =>
      let place := location here path
      pure ((withDirectories disk place).set place (.file content Disk.plainFile))

/-- Where the files of a run may be. -/
def pathsOf (environment : Environment) (arguments : List String) : List String :=
  let names := arguments.flatMap namesIn
  let directories := names ++ (environment.text? Invocation.workDirVariable).toList
  let expanded := names.map (Path.expandTilde environment.home?)
  Settings.candidates environment none ++ expanded ++
    directories.flatMap fun dir => expanded.map (Path.join dir)

/-- The random numbers that bytes stand for; they are used again in a changed form when they
run out. -/
def drawsOf (bytes : Array UInt8) (n : Nat) : Nat :=
  let words := bytes.size / 8
  let start := 8 * (n % words)
  let word := (List.range 8).foldl
    (fun sum i => sum * 256 + ((bytes[start + i]?).getD 0).toNat) 0
  (word + n / words * 0x9E3779B97F4A7C15) % (Integer.greatestUnsigned + 1)

/-- Looks at the machine. -/
def look (arguments : List String) : IO World := do
  let environment ← environment (usualVariables ++ arguments.flatMap namesIn)
  let here := location [] (toString (← IO.currentDir))
  let disk ← diskOf here (pathsOf environment arguments)
  let bytes ← IO.getRandomBytes 65536
  pure {
    disk, here, environment
    network := .none
    draws := drawsOf bytes.data
    drawn := 0
    clock := 0
    cancelledAt := none }

/-- Writes the files that differ from what has been seen. -/
def keep (before : Disk) : List (Location × Entry) → IO Unit
  | [] => pure ()
  | (place, entry) :: rest => do
    match entry with
    | .file content mode =>
      if before.find? place ≠ some entry then
        let path := "/" ++ String.intercalate "/" place
        IO.FS.createDirAll ("/" ++ String.intercalate "/" place.dropLast)
        IO.FS.writeBinFile path ⟨content.toArray⟩
        if mode = 0o600 then IO.setAccessRights path { user := { read := true, write := true } }
    | _ => pure ()
    keep before rest

def run (arguments : List String) : IO UInt32 := do
  let world ← look arguments
  let (report, after) := Program.run arguments world
  keep world.disk after.disk.entries
  IO.print report.stdout
  IO.eprint report.stderr
  pure (UInt32.ofNat report.exit)

end LookupEngine.CommandLine

def main (arguments : List String) : IO UInt32 := LookupEngine.CommandLine.run arguments
