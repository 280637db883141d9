import LookupEngine.Shell.Process
/-!
# Conditions of a shell

What `test` and `[` decide: comparisons of texts and numbers, and questions about files, joined
by `-a` and `-o`.
-/

namespace LookupEngine.Shell.Condition

/-- Decides a question about one text. -/
def unary? (process : Process) (question : String) (cs : List Char) : Option Bool :=
  let disk := process.world.disk
  let here := process.world.here
  let path := toText cs
  match question with
  | "-n" => some (!cs.isEmpty)
  | "-z" => some cs.isEmpty
  | "-e" => some (disk.pathExists here path)
  | "-f" => some (disk.isFile here path)
  | "-d" => some (disk.isDirectory here path)
  | "-r" => some (disk.pathExists here path)
  | "-w" => some (disk.pathExists here path)
  | "-x" => some ((disk.mode? here path).any fun mode => mode % 2 = 1)
  | "-s" => some (match disk.readBytes here path with
    | .ok bytes => !bytes.isEmpty
    | .error _ => disk.isDirectory here path)
  | "-h" => some (isLink path)
  | "-L" => some (isLink path)
  | _ => none
where
  isLink (path : String) : Bool :=
    match process.world.disk.locate false process.world.here path with
    | .ok location =>
      match process.world.disk.find? location with
      | some (.link _) => true
      | _ => false
    | .error _ => false

/-- Compares two numbers. -/
def numeric? (comparison : String) : Option (Int → Int → Bool) :=
  match comparison with
  | "-eq" => some fun a b => a = b
  | "-ne" => some fun a b => a ≠ b
  | "-lt" => some fun a b => a < b
  | "-le" => some fun a b => a ≤ b
  | "-gt" => some fun a b => a > b
  | "-ge" => some fun a b => a ≥ b
  | _ => none

def number (cs : List Char) : Except String Int :=
  match Integer.readSigned? 10 (Text.trimChars cs) with
  | some n => .ok n
  | none => .error s!"Illegal number: {toText cs}"

/-- Decides a condition without `-a` and `-o`. -/
def primary (process : Process) : List (List Char) → Except String Bool
  | [] => .ok false
  | [cs] => .ok (!cs.isEmpty)
  | ['!'] :: rest => (primary process rest).map (!·)
  | [question, cs] =>
    match unary? process (toText question) cs with
    | some answer => .ok answer
    | none => .error s!"{toText question}: unexpected operator"
  | [left, comparison, right] =>
    match toText comparison with
    | "=" => .ok (left = right)
    | "!=" => .ok (left ≠ right)
    | comparison =>
      match numeric? comparison with
      | none => .error s!"{comparison}: unexpected operator"
      | some compare => do return compare (← number left) (← number right)
  | _ :: comparison :: _ => .error s!"{toText comparison}: unexpected operator"

/-- The parts of a condition between a word that joins them. -/
def partsAt (joint : List Char) : List (List Char) → List (List (List Char))
  | [] => [[]]
  | cs :: rest =>
    if cs = joint then [] :: partsAt joint rest
    else
      match partsAt joint rest with
      | [] => [[cs]]
      | part :: parts => (cs :: part) :: parts

def all (process : Process) : List (List (List Char)) → Except String Bool
  | [] => .ok true
  | part :: rest => do
    if ← primary process part then all process rest else pure false

def any (process : Process) : List (List (List Char)) → Except String Bool
  | [] => .ok false
  | part :: rest => do
    if ← all process (partsAt ['-', 'a'] part) then pure true else any process rest

/-- Decides a condition. -/
def holds (process : Process) (words : List (List Char)) : Except String Bool :=
  if words.length ≤ 3 then primary process words else any process (partsAt ['-', 'o'] words)

end LookupEngine.Shell.Condition
