import LookupEngine.Proofs.Machine.Disk
/-!
# Trees with other contents

A walk looks at directories and links and never into a file.  Two disks that differ only in what
their files hold therefore lead every path to the same place, and reading a path gives the same
on both if the one file that it leads to is the same.
-/

namespace LookupEngine

/-- What an entry is apart from the content of a file. -/
def Entry.shape : Entry → Entry
  | .file _ mode => .file [] mode
  | entry => entry

namespace Disk

/-- The two disks have the same entries, but for what the files hold. -/
def SameTree (disk other : Disk) : Prop :=
  ∀ location, (disk.find? location).map Entry.shape = (other.find? location).map Entry.shape

namespace SameTree

variable {disk other : Disk}

/-- What can be at one location of both disks. -/
theorem find?_cases (h : SameTree disk other) (location : Location) :
    (disk.find? location = none ∧ other.find? location = none) ∨
      ∃ entry entry', disk.find? location = some entry ∧ other.find? location = some entry' ∧
        entry.shape = entry'.shape := by
  have hshape := h location
  cases hdisk : disk.find? location with
  | none =>
    rw [hdisk, Option.map_none, eq_comm, Option.map_eq_none_iff] at hshape
    exact .inl ⟨rfl, hshape⟩
  | some entry =>
    rw [hdisk, Option.map_some, eq_comm, Option.map_eq_some_iff] at hshape
    obtain ⟨entry', hother, hshape⟩ := hshape
    exact .inr ⟨entry, entry', rfl, hother, hshape.symm⟩

/-- Only what one file holds changes where another content is put in its place. -/
theorem set {location : Location} {content content' : Bytes} {mode : Nat}
    (h : disk.find? location = some (.file content mode)) :
    SameTree disk (disk.set location (.file content' mode)) := by
  intro place
  by_cases hplace : place = location
  · have hne : location ≠ [] := by
      rintro rfl
      rw [find?_nil] at h
      cases h
    rw [hplace, h, find?_set_self disk hne]
    rfl
  · rw [find?_set_of_ne disk hplace]

theorem isDirectoryAt (h : SameTree disk other) (location : Location) :
    disk.isDirectoryAt location = other.isDirectoryAt location := by
  rw [Disk.isDirectoryAt, Disk.isDirectoryAt]
  rcases h.find?_cases location with ⟨hdisk, hother⟩ | ⟨entry, entry', hdisk, hother, hshape⟩
  · rw [hdisk, hother]
  · rw [hdisk, hother]
    cases entry <;> cases entry' <;> first | rfl | cases hshape

section

variable (follow : Bool) (onLink : Location → List (List Char) → Except Fault Location)

theorem enter (h : SameTree disk other) (here : Location) (name : List Char)
    (rest : List (List Char)) (goOn : Location → Except Fault Location) :
    disk.enter follow onLink here name rest goOn =
      other.enter follow onLink here name rest goOn := by
  unfold Disk.enter
  dsimp only
  rcases h.find?_cases (here ++ [String.ofList name]) with
    ⟨hdisk, hother⟩ | ⟨entry, entry', hdisk, hother, hshape⟩
  · rw [hdisk, hother]
  · rw [hdisk, hother]
    cases entry <;> cases entry' <;> first | rfl | cases hshape
    rfl

theorem descend (h : SameTree disk other) (here : Location) (names : List (List Char)) :
    disk.descend follow onLink here names = other.descend follow onLink here names := by
  induction names generalizing here with
  | nil => rfl
  | cons name rest ih =>
    have hgo : (fun there => disk.descend follow onLink there rest) =
        fun there => other.descend follow onLink there rest := by
      funext there
      exact ih there
    rw [Disk.descend, Disk.descend, h.isDirectoryAt, ih, ih, hgo, h.enter]

end

theorem walk (h : SameTree disk other) (follow : Bool) (links : Nat) :
    disk.walk follow links = other.walk follow links := by
  induction links with
  | zero =>
    funext here names
    exact h.descend follow _ here names
  | succ links ih =>
    funext here names
    rw [Disk.walk, Disk.walk, ih]
    exact h.descend follow _ here names

theorem locate (h : SameTree disk other) (follow : Bool) (here : Location) (path : String) :
    disk.locate follow here path = other.locate follow here path := by
  rw [Disk.locate, Disk.locate, h.walk]

theorem pathExists (h : SameTree disk other) (here : Location) (path : String) :
    disk.pathExists here path = other.pathExists here path := by
  rw [Disk.pathExists, Disk.pathExists, status, status, h.locate]
  cases other.locate true here path with
  | error fault => rfl
  | ok location =>
    dsimp only
    rcases h.find?_cases location with ⟨hdisk, hother⟩ | ⟨entry, entry', hdisk, hother, _⟩
    · rw [hdisk, hother]
    · rw [hdisk, hother]

/-- Reading a path takes nothing from the disk but the way to one file and that file. -/
theorem readText (h : SameTree disk other) {here : Location} {path : String}
    (hsame : ∀ location, disk.locate true here path = .ok location →
      other.find? location = disk.find? location) :
    disk.readText here path = other.readText here path := by
  have hstatus : disk.status here path = other.status here path := by
    rw [status, status, ← h.locate]
    cases hlocate : disk.locate true here path with
    | error fault => rfl
    | ok location =>
      dsimp only
      rw [hsame location hlocate]
  rw [Disk.readText, Disk.readText, readBytes, readBytes, hstatus]

end SameTree

end Disk

end LookupEngine
