import LookupEngine.Shell.Process
/-!
# Utilities

The programs of the system that commands are made of, as far as they read and write files and
streams.
-/

namespace LookupEngine.Shell.Utility

/-- Reports a mistake of a utility. -/
def complain (process : Process) (text : String) : Process :=
  (process.say true (ofText (text ++ "\n"))).withStatus 1

/-- The options in front and the operands. -/
def divide (arguments : List (List Char)) : List Char × List (List Char) :=
  match arguments with
  | ['-', '-'] :: rest => ([], rest)
  | ('-' :: c :: letters) :: rest =>
    let (others, operands) := divide rest
    (c :: letters ++ others, operands)
  | rest => ([], rest)

/-- The content of a file; a single dash stands for the input. -/
def content (name : String) (process : Process) (operand : List Char) :
    Except String (List Char × Process) :=
  if operand = ['-'] then .ok (process.input, { process with input := [] })
  else
    match process.world.disk.readBytes process.world.here (toText operand) with
    | .ok bytes => .ok (ofBytes bytes, process)
    | .error fault => .error s!"{name}: {toText operand}: {fault.description}"

/-- Writes what `f` makes of each file, or of the input. -/
def filter (name : String) (f : List Char → List Char) (operands : List (List Char))
    (process : Process) : Process :=
  let operands := if operands.isEmpty then [['-']] else operands
  operands.foldl
    (fun process operand =>
      match content name process operand with
      | .ok (cs, process) => process.say false (f cs)
      | .error problem => complain process problem)
    (process.withStatus 0)

/-- The lines of a text; what follows the last break is one if there is anything. -/
def lines (cs : List Char) : List (List Char) :=
  let pieces := Text.splitAny (· = '\n') cs
  if pieces.getLast? = some [] then pieces.dropLast else pieces

def ofLines (lines : List (List Char)) : List Char := lines.flatMap fun line => line ++ ['\n']

/-- The number behind `-n` or behind a dash, and the operands. -/
def count (arguments : List (List Char)) : Nat × List (List Char) :=
  match arguments with
  | ['-', 'n'] :: n :: rest => (Digits.value 10 n, rest)
  | ('-' :: 'n' :: n) :: rest => (Digits.value 10 n, rest)
  | ('-' :: d :: n) :: rest =>
    if d.isDigit then (Digits.value 10 (d :: n), rest) else (10, arguments)
  | rest => (10, rest)

def head (arguments : List (List Char)) : Process → Process :=
  let (n, operands) := count arguments
  filter "head" (fun cs => ofLines ((lines cs).take n)) operands

def tail (arguments : List (List Char)) : Process → Process :=
  let (n, operands) := count arguments
  filter "tail" (fun cs => ofLines ((lines cs).drop ((lines cs).length - n))) operands

/-- The characters of a set with its ranges. -/
def members : List Char → List Char
  | a :: '-' :: b :: rest =>
    (List.range (b.toNat + 1 - a.toNat)).map (fun i => Char.ofNat (a.toNat + i)) ++ members rest
  | '\\' :: 'n' :: rest => '\n' :: members rest
  | '\\' :: 't' :: rest => '\t' :: members rest
  | c :: rest => c :: members rest
  | [] => []

/-- The character in the place of `c`; the last of a shorter set stands for all others. -/
def replaced (old new : List Char) (c : Char) : Char :=
  match old.findIdx? (· = c) with
  | some i => (new[i]?.or new.getLast?).getD c
  | none => c

def exchange (arguments : List (List Char)) : Process → Process :=
  match arguments with
  | [['-', 'd'], set] => filter "tr" (·.filter fun c => !(members set).contains c) []
  | [old, new] => filter "tr" (·.map (replaced (members old) (members new))) []
  | _ => fun process => complain process "tr: missing operand"

def removeRepeats : List (List Char) → List (List Char)
  | a :: b :: rest => if a = b then removeRepeats (b :: rest) else a :: removeRepeats (b :: rest)
  | rest => rest

def sorted (options : List Char) (found : List (List Char)) : List (List Char) :=
  let value (line : List Char) := Digits.value 10 (line.takeWhile Digits.isDecimal)
  let found := if options.contains 'n' then
      found.mergeSort fun a b => value a < value b || (value a = value b && comesBefore a b)
    else found.mergeSort comesBefore
  let found := if options.contains 'u' then removeRepeats found else found
  if options.contains 'r' then found.reverse else found

def sort (arguments : List (List Char)) : Process → Process :=
  let (options, operands) := divide arguments
  filter "sort" (fun cs => ofLines (sorted options (lines cs))) operands

def fieldWords (cs : List Char) : List (List Char) :=
  (Text.splitAny isFieldBlank cs).filter (!·.isEmpty)

def wordCount (arguments : List (List Char)) : Process → Process :=
  let (options, operands) := divide arguments
  let numbers (cs : List Char) : Nat :=
    if options.contains 'l' then cs.count '\n'
    else if options.contains 'w' then (fieldWords cs).length else cs.length
  filter "wc" (fun cs =>
    let name := match operands with
      | [name] => ' ' :: name
      | _ => []
    Digits.write 10 (numbers cs) ++ name ++ ['\n']) operands

def baseName (arguments : List (List Char)) (process : Process) : Process :=
  let plain (path : List Char) := toText path |> Path.fileName? |>.getD "/"
  match arguments with
  | [] => complain process "basename: missing operand"
  | [path] => (process.print (plain path ++ "\n")).withStatus 0
  | path :: ending :: _ =>
    let name := ofText (plain path)
    let short := name.take (name.length - ending.length)
    let shown := if short ++ ending = name && !short.isEmpty then short else name
    (process.say false (shown ++ ['\n'])).withStatus 0

def directoryName (arguments : List (List Char)) (process : Process) : Process :=
  match arguments with
  | [] => complain process "dirname: missing operand"
  | path :: _ =>
    let parent := (Path.parent? (toText path)).getD "/"
    (process.print ((if parent.isEmpty then "." else parent) ++ "\n")).withStatus 0

/-- Numbers from one to another. -/
def numbers (first step last : Int) : List Int :=
  if step = 0 then []
  else (List.range ((last - first) / step + 1).toNat).map fun (i : Nat) => first + step * i

def sequence (arguments : List (List Char)) (process : Process) : Process :=
  let shown (found : List Int) :=
    (process.say false (ofLines (found.map Integer.writeChars))).withStatus 0
  match arguments.map (Integer.readSigned? 10) with
  | [some last] => shown (numbers 1 1 last)
  | [some first, some last] => shown (numbers first 1 last)
  | [some first, some step, some last] => shown (numbers first step last)
  | _ => complain process "seq: missing operand"

/-- The milliseconds of a time in seconds, minutes or hours. -/
def milliseconds? (cs : List Char) : Option Nat :=
  let (unit, digits) := match cs.reverse with
    | 's' :: rest => (1000, rest.reverse)
    | 'm' :: rest => (60000, rest.reverse)
    | 'h' :: rest => (3600000, rest.reverse)
    | _ => (1000, cs)
  match Text.splitOnce '.' digits with
  | none => (Digits.read? 10 digits).map (· * unit)
  | some (whole, part) =>
    (Digits.read? 10 (whole ++ part)).map fun n => n * unit / Nat.pow 10 part.length

/-- Lets time pass, until the caller loses patience. -/
def wait (milliseconds : Nat) (process : Process) : Process :=
  let world := process.world
  let pass (n : Nat) (process : Process) : Process :=
    { process with world := { world with clock := world.clock + n } }
  match world.patience with
  | some left =>
    if left ≤ milliseconds then { pass left process with flow := .cancelled }
    else pass milliseconds process
  | none => pass milliseconds process

def sleep (arguments : List (List Char)) (process : Process) : Process :=
  match arguments.mapM milliseconds? with
  | some (time :: times) => wait (times.foldl (· + ·) time) (process.withStatus 0)
  | some [] => complain process "sleep: missing operand"
  | none =>
    complain process
      s!"sleep: invalid time interval '{shown}'\nTry 'sleep --help' for more information."
where
  shown : String := toText ((arguments.find? fun time => (milliseconds? time).isNone).getD [])

/-- Changes the disk for each operand.  An action that fails may have changed it too. -/
def forEach (name : String) (action : Disk → Location → String → Except Fault Unit × Disk)
    (operands : List (List Char)) (process : Process) : Process :=
  operands.foldl
    (fun process operand =>
      match action process.world.disk process.world.here (toText operand) with
      | (.ok (), disk) => process.withDisk disk
      | (.error fault, disk) =>
        complain (process.withDisk disk) s!"{name} '{toText operand}': {fault.description}")
    (process.withStatus 0)

/-- An action that changes nothing where it fails. -/
def wholly (action : Disk → Location → String → Except Fault Disk) (disk : Disk)
    (here : Location) (path : String) : Except Fault Unit × Disk :=
  match action disk here path with
  | .ok disk => (.ok (), disk)
  | .error fault => (.error fault, disk)

def removeOne (options : List Char) (disk : Disk) (here : Location) (path : String) :
    Except Fault Disk :=
  let recursive := options.contains 'r' || options.contains 'R'
  match disk.locate false here path with
  | .error fault => if options.contains 'f' then .ok disk else .error fault
  | .ok location =>
    if (disk.find? location).isNone && options.contains 'f' then .ok disk
    else if disk.isDirectoryAt location && !recursive then .error .isDirectory
    else disk.remove here path

def remove (arguments : List (List Char)) : Process → Process :=
  let (options, operands) := divide arguments
  forEach "rm: cannot remove" (wholly (removeOne options)) operands

def makeDirectory (arguments : List (List Char)) : Process → Process :=
  let (options, operands) := divide arguments
  let action (disk : Disk) (here : Location) (path : String) : Except Fault Unit × Disk :=
    if options.contains 'p' then disk.makeDirectories here Disk.plainDirectory path
    else wholly (fun disk here => disk.makeDirectory here Disk.plainDirectory) disk here path
  forEach "mkdir: cannot create directory" action operands

def touch (arguments : List (List Char)) : Process → Process :=
  forEach "touch: cannot touch"
    (wholly fun disk here path =>
      if disk.pathExists here path then .ok disk else disk.writeFile here path []) arguments

/-- The names that `ls` shows of a directory. -/
def visible (options : List Char) (names : List String) : List String :=
  if options.contains 'a' then "." :: ".." :: names
  else if options.contains 'A' then names
  else names.filter fun name => name.toList.head? ≠ some '.'

def listOne (options : List Char) (several : Bool) (process : Process) (operand : List Char) :
    Process :=
  let disk := process.world.disk
  let here := process.world.here
  let path := toText operand
  match disk.list here path with
  | .ok names =>
    let title := if several then s!"{path}:\n" else ""
    process.print (title ++ String.join ((visible options names).map (· ++ "\n")))
  | .error .notDirectory => process.print (path ++ "\n")
  | .error fault =>
    (complain process s!"ls: cannot access '{path}': {fault.description}").withStatus 2

def list (arguments : List (List Char)) (process : Process) : Process :=
  let (options, operands) := divide arguments
  let operands := if operands.isEmpty then [['.']] else operands
  operands.foldl (listOne options (operands.length > 1)) (process.withStatus 0)

def printVariables (arguments : List (List Char)) (process : Process) : Process :=
  let environment := process.world.environment
  match arguments with
  | [] =>
    (process.say false (environment.entries.flatMap fun (name, value) =>
      ofText name ++ '=' :: ofBytes value ++ ['\n'])).withStatus 0
  | names =>
    names.foldl
      (fun process name =>
        match environment.bytes? (toText name) with
        | some value => process.say false (ofBytes value ++ ['\n'])
        | none => process.withStatus 1)
      (process.withStatus 0)

/-- What the program of a name does. -/
def run? (name : String) : Option (List (List Char) → Process → Process) :=
  match name with
  | "true" => some fun _ process => process.withStatus 0
  | "false" => some fun _ process => process.withStatus 1
  | "cat" => some fun arguments => filter "cat" id (divide arguments).2
  | "head" => some head
  | "tail" => some tail
  | "tr" => some exchange
  | "sort" => some sort
  | "uniq" => some (filter "uniq" fun cs => ofLines (removeRepeats (lines cs)))
  | "wc" => some wordCount
  | "basename" => some baseName
  | "dirname" => some directoryName
  | "seq" => some sequence
  | "sleep" => some sleep
  | "rm" => some remove
  | "mkdir" => some makeDirectory
  | "touch" => some touch
  | "ls" => some list
  | "printenv" => some printVariables
  | _ => none

end LookupEngine.Shell.Utility
