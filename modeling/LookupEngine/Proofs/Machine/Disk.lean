import Mathlib.Data.List.Basic
import LookupEngine.Machine.Disk
import LookupEngine.Proofs.Path.Steps
/-!
# Growing disks

A disk grows when it gets new entries that are no links and keeps those it has.  Every walk
that came to an end on the smaller disk comes to the same end on the larger one: a name that was
free at the end of a walk may be taken afterwards, but it leads nowhere else.  Where new entries
are found by name is stated beside that, since growth keeps such names valid.
-/

namespace LookupEngine.Disk

@[simp]
theorem find?_nil (disk : Disk) : disk.find? [] = some (.directory plainDirectory) := rfl

theorem find?_of_ne_nil (disk : Disk) {location : Location} (h : location ≠ []) :
    disk.find? location = disk.entries.lookup location := by
  rw [find?, if_neg (by simpa using h)]

theorem ne_nil_of_free {disk : Disk} {location : Location} (h : disk.find? location = none) :
    location ≠ [] := by
  rintro rfl
  rw [find?_nil] at h
  cases h

theorem lookup_filter_of_ne {location other : Location} (h : other ≠ location)
    (entries : List (Location × Entry)) :
    (entries.filter fun (found, _) => found != location).lookup other =
      entries.lookup other := by
  induction entries with
  | nil => rfl
  | cons first rest ih =>
    obtain ⟨found, entry⟩ := first
    by_cases hfound : found = location
    · have hother : (other == found) = false := by
        rw [hfound]
        exact beq_false_of_ne h
      rw [List.filter_cons_of_neg (by simp [hfound]), ih, List.lookup_cons, hother]
    · rw [List.filter_cons_of_pos (by simpa using hfound), List.lookup_cons, List.lookup_cons, ih]

theorem find?_set_self (disk : Disk) {location : Location} (h : location ≠ [])
    (entry : Entry) : (disk.set location entry).find? location = some entry := by
  rw [find?_of_ne_nil _ h]
  exact List.lookup_cons_self

theorem find?_set_of_ne (disk : Disk) {location other : Location} (h : other ≠ location)
    (entry : Entry) : (disk.set location entry).find? other = disk.find? other := by
  by_cases hother : other = []
  · rw [hother, find?_nil, find?_nil]
  · have hkey : (other == location) = false := beq_false_of_ne h
    rw [find?_of_ne_nil _ hother, find?_of_ne_nil _ hother]
    rw [set, List.lookup_cons, hkey]
    exact lookup_filter_of_ne h disk.entries

/-- Reading tells what is missing from what is there and cannot be read. -/
theorem not_pathExists_of_readText {disk : Disk} {here : Location} {path : String}
    (h : disk.readText here path = .error .missing) : disk.pathExists here path = false := by
  rw [readText] at h
  cases hbytes : disk.readBytes here path with
  | ok content =>
    simp only [hbytes] at h
    split at h <;> cases h
  | error fault =>
    simp only [hbytes] at h
    obtain rfl := Except.error.inj h
    rw [readBytes] at hbytes
    rw [pathExists]
    cases hstatus : disk.status here path with
    | error fault => rfl
    | ok found =>
      obtain ⟨location, entry⟩ := found
      rw [hstatus] at hbytes
      cases entry <;> cases hbytes

/-- What is at a location leads nowhere else. -/
def IsPlain (disk : Disk) (location : Location) : Prop :=
  ∀ target, disk.find? location ≠ some (.link target)

/-- `after` has what `before` has, and no links besides. -/
structure Grows (before after : Disk) : Prop where
  kept : ∀ location entry, before.find? location = some entry →
    after.find? location = some entry
  plain : ∀ location, before.find? location = none → after.IsPlain location

namespace Grows

variable {before between after : Disk}

theorem refl (disk : Disk) : Grows disk disk where
  kept _ _ h := h
  plain location h target hlink := by
    rw [h] at hlink
    cases hlink

theorem trans (hfirst : Grows before between) (hsecond : Grows between after) :
    Grows before after where
  kept location entry h := hsecond.kept location entry (hfirst.kept location entry h)
  plain location h := by
    cases hbetween : between.find? location with
    | none => exact hsecond.plain location hbetween
    | some entry =>
      intro target hlink
      rw [hsecond.kept location entry hbetween, ← hbetween] at hlink
      exact hfirst.plain location h target hlink

theorem set {disk : Disk} {location : Location} {entry : Entry}
    (hfree : disk.find? location = none) (hentry : ∀ target, entry ≠ .link target) :
    Grows disk (disk.set location entry) where
  kept other found h := by
    have hother : other ≠ location := by
      rintro rfl
      rw [hfree] at h
      cases h
    rwa [find?_set_of_ne disk hother]
  plain other h target hlink := by
    by_cases hother : other = location
    · rw [hother, find?_set_self disk (ne_nil_of_free hfree)] at hlink
      exact hentry target (Option.some.inj hlink)
    · rw [find?_set_of_ne disk hother, h] at hlink
      cases hlink

theorem isDirectoryAt (h : Grows before after) {location : Location}
    (hdirectory : before.isDirectoryAt location = true) :
    after.isDirectoryAt location = true := by
  rw [Disk.isDirectoryAt] at hdirectory ⊢
  split at hdirectory
  · next mode hentry => rw [h.kept _ _ hentry]
  · cases hdirectory

/-- How walks may differ that end at the same location: one that has not followed a last link
may do so, unless there is one in the end. -/
def Agree (disk : Disk) (location : Location) (follow follow' : Bool) : Prop :=
  follow' = follow ∨ (follow' = true ∧ disk.IsPlain location)

section

variable {follow follow' : Bool} {location : Location}
  {onLink onLink' : Location → List (List Char) → Except Fault Location}

/-- A name that leads to the end of a walk, or on from there, does so on a larger disk. -/
theorem enter (h : Grows before after) (hend : Agree after location follow follow')
    (hlink : ∀ here names, onLink here names = .ok location → onLink' here names = .ok location)
    {here : Location} {name : List Char} {rest : List (List Char)}
    {goOn goOn' : Location → Except Fault Location}
    (hstop : rest = [] → ∀ there, goOn' there = .ok there)
    (hgo : ∀ there, goOn there = .ok location → goOn' there = .ok location)
    (hwalk : before.enter follow onLink here name rest goOn = .ok location) :
    after.enter follow' onLink' here name rest goOn' = .ok location := by
  unfold Disk.enter at hwalk ⊢
  dsimp only at hwalk ⊢
  generalize here ++ [String.ofList name] = there at hwalk ⊢
  cases hfound : before.find? there with
  | none =>
    simp only [hfound] at hwalk
    cases rest with
    | cons next more => cases hwalk
    | nil =>
      -- The walk has ended at a free name.  What has come there since is no link.
      obtain rfl := Except.ok.inj hwalk
      have hplain := h.plain there hfound
      cases hafter : after.find? there with
      | none => simp only [List.isEmpty_nil, if_true]
      | some entry =>
        cases entry with
        | link target => exact absurd hafter (hplain target)
        | _ => exact hstop rfl there
  | some entry =>
    rw [h.kept there entry hfound]
    simp only [hfound] at hwalk
    cases entry with
    | link target =>
      simp only at hwalk ⊢
      by_cases hlast : (rest.isEmpty && !follow) = true
      · rw [if_pos hlast] at hwalk
        obtain rfl := Except.ok.inj hwalk
        rcases hend with hsame | ⟨_, hplain⟩
        · rw [hsame, if_pos hlast]
        · exact absurd (h.kept there _ hfound) (hplain target)
      · have hon : ¬ (rest.isEmpty && !follow') = true := by
          rcases hend with hsame | ⟨hfollow, _⟩
          · rwa [hsame]
          · simp [hfollow]
        rw [if_neg hlast] at hwalk
        rw [if_neg hon]
        exact hlink _ _ hwalk
    | _ => exact hgo there hwalk

theorem descend (h : Grows before after) (hend : Agree after location follow follow')
    (hlink : ∀ here names, onLink here names = .ok location → onLink' here names = .ok location)
    {names : List (List Char)} {here : Location}
    (hwalk : before.descend follow onLink here names = .ok location) :
    after.descend follow' onLink' here names = .ok location := by
  induction names generalizing here with
  | nil => exact hwalk
  | cons name rest ih =>
    rw [Disk.descend] at hwalk ⊢
    by_cases hdirectory : before.isDirectoryAt here = true
    · rw [hdirectory] at hwalk
      rw [h.isDirectoryAt hdirectory]
      simp only [Bool.not_true, Bool.false_eq_true, if_false] at hwalk ⊢
      by_cases hdot : name = ['.']
      · rw [if_pos hdot] at hwalk ⊢
        exact ih hwalk
      rw [if_neg hdot] at hwalk ⊢
      by_cases hdots : name = ['.', '.']
      · rw [if_pos hdots] at hwalk ⊢
        exact ih hwalk
      rw [if_neg hdots] at hwalk ⊢
      by_cases hlong : (String.ofList name).utf8ByteSize > longestName
      · rw [if_pos hlong] at hwalk
        cases hwalk
      rw [if_neg hlong] at hwalk ⊢
      refine h.enter hend hlink ?_ (fun there hthere => ih hthere) hwalk
      rintro rfl there
      rfl
    · rw [Bool.not_eq_true] at hdirectory
      rw [hdirectory] at hwalk
      cases hwalk

theorem walk (h : Grows before after) (hend : Agree after location follow follow')
    {links : Nat} {here : Location} {names : List (List Char)}
    (hwalk : before.walk follow links here names = .ok location) :
    after.walk follow' links here names = .ok location := by
  induction links generalizing here names with
  | zero => exact h.descend hend (fun _ _ hloop => by cases hloop) hwalk
  | succ links ih => exact h.descend hend (fun _ _ hmore => ih hmore) hwalk

end

/-- A path leads to the same place on a larger disk. -/
theorem locate (h : Grows before after) {follow follow' : Bool} {here location : Location}
    (hend : Agree after location follow follow') {path : String}
    (hpath : before.locate follow here path = .ok location) :
    after.locate follow' here path = .ok location := by
  rw [Disk.locate] at hpath ⊢
  split at hpath
  · cases hpath
  next hnul =>
  split at hpath
  · cases hpath
  next hempty =>
  split at hpath
  · cases hpath
  next hlong =>
  rw [if_neg hnul, if_neg hempty, if_neg hlong]
  exact h.walk hend hpath

theorem status (h : Grows before after) {here location : Location} {path : String}
    {entry : Entry} (hpath : before.status here path = .ok (location, entry)) :
    after.status here path = .ok (location, entry) := by
  rw [Disk.status] at hpath ⊢
  split at hpath
  · cases hpath
  next found hfound =>
  split at hpath
  · cases hpath
  next hentry =>
  obtain ⟨rfl, rfl⟩ := Prod.mk.inj (Except.ok.inj hpath)
  rw [h.locate (.inl rfl) hfound]
  simp only [h.kept _ _ hentry]

theorem readBytes (h : Grows before after) {here : Location} {path : String} {content : Bytes}
    (hread : before.readBytes here path = .ok content) :
    after.readBytes here path = .ok content := by
  rw [Disk.readBytes] at hread ⊢
  cases hstatus : before.status here path with
  | error fault =>
    rw [hstatus] at hread
    cases hread
  | ok found =>
    rw [hstatus] at hread
    rwa [h.status hstatus]

theorem readText (h : Grows before after) {here : Location} {path text : String}
    (hread : before.readText here path = .ok text) : after.readText here path = .ok text := by
  rw [Disk.readText] at hread ⊢
  cases hbytes : before.readBytes here path with
  | error fault =>
    rw [hbytes] at hread
    cases hread
  | ok content =>
    rw [hbytes] at hread
    rwa [h.readBytes hbytes]

theorem pathExists (h : Grows before after) {here : Location} {path : String}
    (hexists : before.pathExists here path = true) : after.pathExists here path = true := by
  rw [Disk.pathExists] at hexists ⊢
  cases hstatus : before.status here path with
  | error fault =>
    rw [hstatus] at hexists
    cases hexists
  | ok found => rw [h.status hstatus]

end Grows

end LookupEngine.Disk
