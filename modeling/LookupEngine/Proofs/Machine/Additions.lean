import LookupEngine.Proofs.Machine.Disk
/-!
# What is added to a disk

Directories and finished files are put at free locations only, so a disk grows by them.  Each
of them is found again under the path that it was made for, and it stays there however the disk
grows further.
-/

namespace LookupEngine.Disk

/-- `after` has grown from `before`, and each entry that it has besides is found by a path for
which `named` has that entry. -/
structure Extends (here : Location) (named : String → Entry → Prop) (before after : Disk) : Prop
    extends Grows before after where
  found : ∀ location entry, before.find? location = none →
    after.find? location = some entry →
      ∃ path, named path entry ∧ after.status here path = .ok (location, entry)

theorem isPlain_set {disk : Disk} {location : Location} {entry : Entry}
    (hfree : disk.find? location = none) (hentry : ∀ target, entry ≠ .link target) :
    IsPlain (disk.set location entry) location := by
  intro target hlink
  rw [find?_set_self disk (ne_nil_of_free hfree)] at hlink
  exact hentry target (Option.some.inj hlink)

/-- What is put at the end of a walk is found by the path of the walk. -/
theorem status_set {disk : Disk} {follow : Bool} {here location : Location} {path : String}
    {entry : Entry} (hpath : disk.locate follow here path = .ok location)
    (hfree : disk.find? location = none) (hentry : ∀ target, entry ≠ .link target) :
    Disk.status (disk.set location entry) here path = .ok (location, entry) := by
  have hgrows := Grows.set hfree hentry
  have hlocate : Disk.locate (disk.set location entry) true here path = .ok location :=
    hgrows.locate (.inr ⟨rfl, isPlain_set hfree hentry⟩) hpath
  rw [status, hlocate]
  simp only [find?_set_self disk (ne_nil_of_free hfree)]

namespace Extends

variable {here : Location} {named named' : String → Entry → Prop} {before between after : Disk}

theorem refl (disk : Disk) : Extends here named disk disk where
  toGrows := Grows.refl disk
  found location entry hfree hentry := by
    rw [hfree] at hentry
    cases hentry

/-- What was found on the way is still found in the end. -/
theorem trans (hfirst : Extends here named before between)
    (hsecond : Extends here named between after) : Extends here named before after where
  toGrows := hfirst.toGrows.trans hsecond.toGrows
  found location entry hfree hentry := by
    cases hbetween : between.find? location with
    | none => exact hsecond.found location entry hbetween hentry
    | some early =>
      have hsame : early = entry := by
        rw [hsecond.kept location early hbetween] at hentry
        exact Option.some.inj hentry
      obtain ⟨path, hnamed, hstatus⟩ := hfirst.found location entry hfree (hsame ▸ hbetween)
      exact ⟨path, hnamed, hsecond.toGrows.status hstatus⟩

theorem mono (hnames : ∀ path entry, named path entry → named' path entry)
    (h : Extends here named before after) : Extends here named' before after where
  toGrows := h.toGrows
  found location entry hfree hentry := by
    obtain ⟨path, hnamed, hstatus⟩ := h.found location entry hfree hentry
    exact ⟨path, hnames path entry hnamed, hstatus⟩

theorem set {disk : Disk} {follow : Bool} {location : Location} {path : String} {entry : Entry}
    (hpath : disk.locate follow here path = .ok location)
    (hfree : disk.find? location = none) (hentry : ∀ target, entry ≠ .link target)
    (hnamed : named path entry) : Extends here named disk (disk.set location entry) where
  toGrows := Grows.set hfree hentry
  found other found hother hfound := by
    by_cases hsame : other = location
    · subst hsame
      rw [find?_set_self disk (ne_nil_of_free hfree)] at hfound
      obtain rfl := Option.some.inj hfound
      exact ⟨path, hnamed, status_set hpath hfree hentry⟩
    · rw [find?_set_of_ne disk hsame, hother] at hfound
      cases hfound

end Extends

theorem makeDirectory_eq_ok {disk after : Disk} {here : Location} {mode : Nat} {path : String}
    (h : disk.makeDirectory here mode path = .ok after) :
    ∃ location, disk.locate false here (Path.bare path) = .ok location ∧
      disk.find? location = none ∧ after = disk.set location (.directory mode) := by
  rw [makeDirectory] at h
  split at h
  · cases h
  next location hlocate =>
  split at h
  · cases h
  next hfree =>
  exact ⟨location, hlocate, hfree, (Except.ok.inj h).symm⟩

/-- A file is put under a name that is free and can be the name of a file. -/
theorem publish_eq_ok {disk after : Disk} {here : Location} {path : String} {content : Bytes}
    {mode : Nat} (h : disk.publish here path content mode = .ok after) :
    ∃ location, disk.locate false here path = .ok location ∧
      disk.find? location = none ∧ after = disk.set location (.file content mode) := by
  rw [publish] at h
  split at h
  · cases h
  next location hlocate =>
  split at h
  · cases h
  split at h
  · cases h
  next hfree =>
  split at h
  · cases h
  next hslash =>
  rw [Path.bare_of_getLast? hslash] at hlocate
  exact ⟨location, hlocate, hfree, (Except.ok.inj h).symm⟩

section

variable {here : Location} {mode : Nat} {named : String → Entry → Prop}

theorem extends_ensureDirectory (disk : Disk) {path : String}
    (hnamed : named (Path.bare path) (.directory mode)) :
    Extends here named disk (disk.ensureDirectory here mode path).2 := by
  rw [ensureDirectory]
  cases hmake : disk.makeDirectory here mode path with
  | error fault => exact Extends.refl disk
  | ok after =>
    obtain ⟨location, hlocate, hfree, rfl⟩ := makeDirectory_eq_ok hmake
    exact Extends.set hlocate hfree (fun target hlink => by cases hlink) hnamed

theorem makeDirectoriesWithin_empty (steps : Nat) (disk : Disk) :
    (makeDirectoriesWithin steps disk here mode "").2 = disk := by
  cases steps with
  | zero => rfl
  | succ steps => rfl

/-- Whether or not all of them can be made, the new directories are those of the path and of
the paths above it. -/
theorem extends_makeDirectoriesWithin {steps : Nat} {disk : Disk} {path : String}
    (hself : named (Path.bare path) (.directory mode))
    (habove : ∀ dir, Path.IsAbove dir path → named dir (.directory mode)) :
    Extends here named disk (makeDirectoriesWithin steps disk here mode path).2 := by
  induction steps generalizing disk path with
  | zero => exact Extends.refl disk
  | succ steps ih =>
    have hensure : ∀ disk : Disk, Extends here named disk (disk.ensureDirectory here mode path).2 :=
      fun disk => extends_ensureDirectory disk hself
    rw [makeDirectoriesWithin]
    split
    · exact Extends.refl disk
    split
    · split
      · exact Extends.refl disk
      -- A directory is missing above: it is made first, and what is above it is above the path.
      · next parent hparent =>
        have hupper : Extends here named disk
            (makeDirectoriesWithin steps disk here mode parent).2 := by
          by_cases hempty : parent = ""
          · rw [hempty, makeDirectoriesWithin_empty]
            exact Extends.refl disk
          · have hdir := Path.isAbove_of_parent? hparent hempty
            exact ih (habove _ hdir.bare) fun dir hdir' => habove dir (hdir'.trans hdir)
        split
        · next hmade =>
          rw [hmade] at hupper
          exact hupper
        · next hmade =>
          rw [hmade] at hupper
          exact hupper.trans (hensure _)
    · exact hensure disk

end

theorem locate_dot (disk : Disk) (here : Location) :
    disk.locate false here "." =
      if disk.isDirectoryAt here then .ok here else .error .notDirectory := by
  have hnames : Path.names ".".toList = [['.']] := by decide
  have hrelative : Path.isAbsolute "." = false := by decide
  rw [locate]
  rw [if_neg (by decide), if_neg (by decide), if_neg (by decide), hnames, hrelative]
  show disk.descend false (disk.walk false 39) here [['.']] = _
  rw [descend]
  cases disk.isDirectoryAt here <;> rfl

theorem makeDirectory_dot (disk : Disk) (here : Location) (mode : Nat) :
    ∃ fault, fault ≠ .missing ∧ disk.makeDirectory here mode "." = .error fault := by
  have hbare : Path.bare "." = "." := by decide
  rw [makeDirectory]
  rw [hbare, locate_dot]
  cases hdirectory : disk.isDirectoryAt here with
  | false => exact ⟨.notDirectory, by decide, rfl⟩
  | true =>
    refine ⟨.alreadyExists, by decide, ?_⟩
    rw [isDirectoryAt] at hdirectory
    split at hdirectory
    · next entry hentry => simp only [if_true, hentry]
    · cases hdirectory

/-- The directory of the process is never made. -/
theorem makeDirectories_dot (disk : Disk) (here : Location) (mode : Nat) :
    (disk.makeDirectories here mode ".").2 = disk := by
  obtain ⟨fault, hfault, hmake⟩ := makeDirectory_dot disk here mode
  rw [makeDirectories, makeDirectoriesWithin]
  rw [if_neg (by decide), hmake]
  split
  · next hmissing =>
    exact absurd (Except.error.inj hmissing) hfault
  · rw [ensureDirectory, hmake]

end LookupEngine.Disk
