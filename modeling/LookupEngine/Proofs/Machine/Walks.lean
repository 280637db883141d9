import LookupEngine.Proofs.Machine.Disk
import LookupEngine.Proofs.Path.Spelled
/-!
# Walks name by name

A walk over some names and then some more is a walk over the first and one from where it ends.
Links make this more than a fact about lists, since a link on the way puts names of its own
before those that are left and uses up one of the links that a walk may follow.
-/

namespace LookupEngine.Disk

variable {disk : Disk}

/-- What a walk does at a link when it may follow so many. -/
def followed (disk : Disk) (follow : Bool) :
    Nat → Location → List (List Char) → Except Fault Location
  | 0 => fun _ _ => .error .linkLoop
  | links + 1 => disk.walk follow links

theorem walk_eq_descend (follow : Bool) (links : Nat) :
    disk.walk follow links = disk.descend follow (disk.followed follow links) := by
  cases links <;> rfl

@[simp]
theorem walk_nil (follow : Bool) (links : Nat) (here : Location) :
    disk.walk follow links here [] = .ok here := by
  rw [walk_eq_descend]
  rfl

theorem walk_cons (follow : Bool) (links : Nat) (here : Location) (name : List Char)
    (rest : List (List Char)) :
    disk.walk follow links here (name :: rest) =
      if !disk.isDirectoryAt here then .error .notDirectory
      else if name = ['.'] then disk.walk follow links here rest
      else if name = ['.', '.'] then disk.walk follow links here.dropLast rest
      else if (String.ofList name).utf8ByteSize > longestName then .error .nameTooLong
      else
        disk.enter follow (disk.followed follow links) here name rest fun there =>
          disk.walk follow links there rest := by
  rw [walk_eq_descend]
  rfl

theorem isDirectoryAt_of_walk_cons {follow : Bool} {links : Nat} {here location : Location}
    {name : List Char} {rest : List (List Char)}
    (h : disk.walk follow links here (name :: rest) = .ok location) :
    disk.isDirectoryAt here = true := by
  rw [walk_cons] at h
  cases hdirectory : disk.isDirectoryAt here with
  | true => rfl
  | false =>
    rw [hdirectory] at h
    cases h

/-- A walk over some names comes to a directory from where it goes on.  Every walk that starts
with the same names comes there too, unless it stops at a link that it does not follow. -/
def Splits (disk : Disk) (walkOn : Bool → List (List Char) → Except Fault Location)
    (back : List (List Char)) (location : Location) : Prop :=
  ∃ between links, disk.isDirectoryAt between = true ∧
    disk.walk true links between back = .ok location ∧
    ∀ follow tail, tail ≠ [] ∨ follow = true →
      walkOn follow tail = disk.walk follow links between tail

section

variable {links : Nat} {here location : Location} {front back : List (List Char)}

theorem splits_of_followed (hback : back ≠ [])
    (hfollowed : ∀ here front, disk.followed true links here (front ++ back) = .ok location →
      disk.Splits (fun follow tail => disk.followed follow links here (front ++ tail)) back
        location)
    (h : disk.walk true links here (front ++ back) = .ok location) :
    disk.Splits (fun follow tail => disk.walk follow links here (front ++ tail)) back
      location := by
  induction front generalizing here with
  | nil =>
    obtain ⟨name, rest, rfl⟩ := List.exists_cons_of_ne_nil hback
    exact ⟨here, links, isDirectoryAt_of_walk_cons h, h, fun _ _ _ => rfl⟩
  | cons name front ih =>
    have hdirectory := isDirectoryAt_of_walk_cons h
    simp only [List.cons_append, walk_cons, hdirectory, Bool.not_true, Bool.false_eq_true,
      if_false] at h ⊢
    by_cases hdot : name = ['.']
    · simp only [if_pos hdot] at h ⊢
      exact ih h
    simp only [if_neg hdot] at h ⊢
    by_cases hdots : name = ['.', '.']
    · simp only [if_pos hdots] at h ⊢
      exact ih h
    simp only [if_neg hdots] at h ⊢
    by_cases hlong : (String.ofList name).utf8ByteSize > longestName
    · simp only [if_pos hlong, reduceCtorEq] at h
    simp only [if_neg hlong, enter] at h ⊢
    have hmore : (front ++ back).isEmpty = false := by simpa using fun _ => hback
    cases hfound : disk.find? (here ++ [String.ofList name]) with
    | none => simp only [hfound, hmore, Bool.false_eq_true, if_false, reduceCtorEq] at h
    | some entry =>
      simp only [hfound] at h ⊢
      cases entry with
      | link target =>
        simp only [hmore, Bool.false_and, Bool.false_eq_true, if_false, ← List.append_assoc] at h
        obtain ⟨between, left, hbetween, hwalk, hon⟩ := hfollowed _ _ h
        refine ⟨between, left, hbetween, hwalk, fun follow tail htail => ?_⟩
        have hlast : ((front ++ tail).isEmpty && !follow) = false := by
          rcases htail with htail | htail
          · simp [htail]
          · simp [htail]
        simp only [hlast, Bool.false_eq_true, if_false, ← List.append_assoc]
        exact hon follow tail htail
      | _ => exact ih h

/-- A walk that goes on after some names splits there. -/
theorem splits_of_walk_append (hback : back ≠ [])
    (h : disk.walk true links here (front ++ back) = .ok location) :
    disk.Splits (fun follow tail => disk.walk follow links here (front ++ tail)) back
      location := by
  induction links generalizing here front with
  | zero =>
    apply splits_of_followed hback _ h
    intro here front hloop
    cases hloop
  | succ links ih =>
    apply splits_of_followed hback _ h
    intro here front hmore
    exact ih hmore

end

theorem walk_dot {follow : Bool} {links : Nat} {here : Location}
    (h : disk.isDirectoryAt here = true) : disk.walk follow links here [['.']] = .ok here := by
  rw [walk_cons, h, walk_nil]
  rfl

/-- A walk that ends in a dot ends at a directory. -/
theorem isDirectoryAt_of_walk_dot {links : Nat} {here location : Location}
    {front : List (List Char)}
    (h : disk.walk true links here (front ++ [['.']]) = .ok location) :
    disk.isDirectoryAt location = true := by
  obtain ⟨between, left, hbetween, hwalk, _⟩ := splits_of_walk_append (List.cons_ne_nil _ _) h
  rw [walk_dot hbetween] at hwalk
  rwa [← Except.ok.inj hwalk]

/-- A walk to something passes an entry under each name that is not a dot or two. -/
theorem isSome_of_walk_cons {links : Nat} {here location : Location} {name : List Char}
    {rest : List (List Char)} (hdot : name ≠ ['.']) (hdots : name ≠ ['.', '.'])
    (h : disk.walk true links here (name :: rest) = .ok location)
    (hlocation : (disk.find? location).isSome = true) :
    (disk.find? (here ++ [String.ofList name])).isSome = true ∧
      disk.walk false links here [name] = .ok (here ++ [String.ofList name]) := by
  have hdirectory := isDirectoryAt_of_walk_cons h
  simp only [walk_cons, hdirectory, Bool.not_true, Bool.false_eq_true, if_false, if_neg hdot,
    if_neg hdots] at h ⊢
  by_cases hlong : (String.ofList name).utf8ByteSize > longestName
  · simp only [if_pos hlong, reduceCtorEq] at h
  simp only [if_neg hlong, enter] at h ⊢
  cases hfound : disk.find? (here ++ [String.ofList name]) with
  | some entry => cases entry <;> exact ⟨rfl, by simp⟩
  | none =>
    simp only [hfound] at h
    split at h
    · obtain rfl := Except.ok.inj h
      rw [hfound] at hlocation
      cases hlocation
    · cases h

/-! ## Absolute paths -/

/-- The system takes a path: it has no NUL, it is not empty and not too long. -/
structure Fits (path : String) : Prop where
  no_nul : Char.ofNat 0 ∉ path.toList
  ne_nil : path.toList ≠ []
  short : path.utf8ByteSize ≤ longestPath

theorem fits_of_locate {follow : Bool} {here location : Location} {path : String}
    (h : disk.locate follow here path = .ok location) : Fits path := by
  rw [locate] at h
  split at h
  · cases h
  next hnul =>
  split at h
  · cases h
  next hempty =>
  split at h
  · cases h
  next hlong =>
  exact ⟨by simpa using hnul, by simpa using hempty, by omega⟩

theorem locate_of_fits {path : String} (h : Fits path) (follow : Bool) (here : Location) :
    disk.locate follow here path =
      disk.walk follow mostLinks (if Path.isAbsolute path then [] else here)
        (Path.names path.toList) := by
  have hnul : ¬ path.toList.contains (Char.ofNat 0) = true := by simpa using h.no_nul
  have hempty : ¬ path.isEmpty = true := by simpa using h.ne_nil
  rw [locate, if_neg hnul, if_neg hempty, if_neg (Nat.not_lt.2 h.short)]

theorem Fits.of_prefix {path longer : String} (h : Fits longer) (hne : path.toList ≠ [])
    (hbegins : path.toList <+: longer.toList) : Fits path := by
  obtain ⟨rest, hrest⟩ := hbegins
  refine ⟨fun hnul => h.no_nul ?_, hne, ?_⟩
  · rw [← hrest]
    exact List.mem_append_left rest hnul
  · have hlonger : longer = path ++ String.ofList rest := by
      rw [← String.toList_inj, String.toList_append, String.toList_ofList, hrest]
    have hshort := h.short
    rw [hlonger, String.utf8ByteSize_append] at hshort
    omega

section

open LookupEngine.Path

variable {here location : Location} {names front rest : List (List Char)} {name : List Char}
  {path target : String}

theorem locate_spelled (hnames : ∀ name ∈ names, IsName name) (hne : names ≠ [])
    (h : path.toList = spelled names) (hfits : Fits path) (follow : Bool) :
    disk.locate follow here path = disk.walk follow mostLinks [] names := by
  rw [locate_of_fits hfits, (Spells.bare hne h).isAbsolute, h, names_spelled hnames]
  rfl

theorem locate_slashed (hnames : ∀ name ∈ names, IsName name)
    (h : path.toList = spelled names ++ ['/']) (hfits : Fits path) (follow : Bool) :
    disk.locate follow here path = disk.walk follow mostLinks [] (names ++ [['.']]) := by
  rw [locate_of_fits hfits, (Spells.slashed h).isAbsolute, h, names_spelled_slash hnames]
  rfl

theorem status_eq_ok_iff {entry : Entry} :
    disk.status here path = .ok (location, entry) ↔
      disk.locate true here path = .ok location ∧ disk.find? location = some entry := by
  rw [status]
  cases disk.locate true here path with
  | error fault => simp
  | ok found =>
    rw [Except.ok.injEq]
    constructor
    · intro h
      cases hfound : disk.find? found with
      | none =>
        simp only [hfound] at h
        cases h
      | some other =>
        simp only [hfound] at h
        obtain ⟨rfl, rfl⟩ := Prod.mk.inj (Except.ok.inj h)
        exact ⟨rfl, hfound⟩
    · rintro ⟨rfl, hentry⟩
      simp only [hentry]

/-- The names lead to the directory `between`, and the next name is one of an entry in it. -/
structure Passes (disk : Disk) (here : Location) (front : List (List Char)) (name : List Char)
    (between : Location) : Prop where
  directory : disk.isDirectoryAt between = true
  leads : ∀ path, Spells path front → disk.locate true here path = .ok between
  slashed : ∀ path, path.toList = spelled front ++ ['/'] →
    disk.locate false here path = .ok between
  entry : name ≠ ['.'] → name ≠ ['.', '.'] →
    (disk.find? (between ++ [String.ofList name])).isSome = true ∧
      ∀ path, path.toList = spelled (front ++ [name]) →
        disk.locate false here path = .ok (between ++ [String.ofList name])

/-- A path to something passes a directory before each of its names. -/
theorem exists_passes {entry : Entry} (hstatus : disk.status here target = .ok (location, entry))
    (hnames : ∀ own ∈ front ++ name :: rest, IsName own)
    (htarget : target.toList = spelled (front ++ name :: rest)) :
    ∃ between, disk.Passes here front name between := by
  obtain ⟨hlocate, hentry⟩ := status_eq_ok_iff.1 hstatus
  have hfits := fits_of_locate hlocate
  rw [locate_spelled hnames (by simp) htarget hfits] at hlocate
  obtain ⟨between, left, hbetween, hwalk, hon⟩ :=
    splits_of_walk_append (List.cons_ne_nil name rest) hlocate
  dsimp only at hon
  have hfront : ∀ own ∈ front, IsName own := fun own hown =>
    hnames own (List.mem_append_left _ hown)
  -- Each path on the way is a text with which the text of the whole path begins.
  have hslash : spelled front ++ ['/'] <+: target.toList := by
    rw [htarget, spelled_append, List.prefix_append_right_inj]
    exact ⟨name ++ spelled rest, rfl⟩
  have hslashed : ∀ path, path.toList = spelled front ++ ['/'] → ∀ follow,
      disk.locate follow here path = .ok between := by
    intro path h follow
    have hpath : Fits path := hfits.of_prefix (by simp [h]) (h ▸ hslash)
    rw [locate_slashed hfront h hpath, hon follow [['.']] (.inl (List.cons_ne_nil _ _)),
      walk_dot hbetween]
  refine ⟨between, hbetween, ?_, fun path h => hslashed path h false, ?_⟩
  · intro path hpath
    cases hpath with
    | slashed h => exact hslashed path h true
    | bare hne h =>
      have hbegins : path.toList <+: target.toList := h ▸ (List.prefix_append _ _).trans hslash
      have hnil : path.toList ≠ [] := by
        obtain ⟨first, more, rfl⟩ := List.exists_cons_of_ne_nil hne
        simp [h, spelled]
      have hends := hon true [] (.inr rfl)
      rw [List.append_nil, walk_nil] at hends
      rw [locate_spelled hfront hne h (hfits.of_prefix hnil hbegins), hends]
  · intro hdot hdots
    obtain ⟨hsome, hstop⟩ := isSome_of_walk_cons hdot hdots hwalk (by rw [hentry]; rfl)
    refine ⟨hsome, fun path h => ?_⟩
    have hbegins : path.toList <+: target.toList := by
      rw [h, htarget, spelled_concat, spelled_append, List.prefix_append_right_inj]
      exact ⟨spelled rest, rfl⟩
    have hconcat : ∀ own ∈ front ++ [name], IsName own := by
      intro own hown
      apply hnames own
      rw [List.mem_append, List.mem_cons]
      rw [List.mem_append, List.mem_singleton] at hown
      exact hown.imp_right Or.inl
    have hfit : Fits path := hfits.of_prefix (by simp [h, spelled_concat]) hbegins
    rw [locate_spelled hconcat (by simp) h hfit, hon false [name] (.inl (List.cons_ne_nil _ _)),
      hstop]

/-- What a slash follows is no file. -/
theorem not_isFile_of_slashed (hnames : ∀ own ∈ names, IsName own)
    (h : path.toList = spelled names ++ ['/']) : disk.isFile here path = false := by
  rw [isFile]
  cases hstatus : disk.status here path with
  | error fault => rfl
  | ok found =>
    obtain ⟨location, entry⟩ := found
    obtain ⟨hlocate, hentry⟩ := status_eq_ok_iff.1 hstatus
    rw [locate_slashed hnames h (fits_of_locate hlocate)] at hlocate
    have hdirectory := isDirectoryAt_of_walk_dot hlocate
    rw [isDirectoryAt, hentry] at hdirectory
    cases entry with
    | directory mode => rfl
    | _ => cases hdirectory

/-- Where there is a file there is something. -/
theorem exists_status_of_isFile (h : disk.isFile here path = true) :
    ∃ location entry, disk.status here path = .ok (location, entry) := by
  rw [isFile] at h
  cases hstatus : disk.status here path with
  | error fault =>
    rw [hstatus] at h
    cases h
  | ok found => exact ⟨found.1, found.2, rfl⟩

namespace Passes

variable {between : Location}

theorem status (h : disk.Passes here front name between) (hpath : Spells path front) :
    ∃ mode, disk.status here path = .ok (between, .directory mode) := by
  have hdirectory := h.directory
  rw [isDirectoryAt] at hdirectory
  split at hdirectory
  · next mode hentry => exact ⟨mode, status_eq_ok_iff.2 ⟨h.leads path hpath, hentry⟩⟩
  · cases hdirectory

theorem isDirectory (h : disk.Passes here front name between) (hpath : Spells path front) :
    disk.isDirectory here path = true := by
  obtain ⟨mode, hstatus⟩ := h.status hpath
  rw [Disk.isDirectory, hstatus]

theorem list (h : disk.Passes here front name between) (hpath : Spells path front) :
    disk.list here path = .ok (disk.namesBelow between) := by
  obtain ⟨mode, hstatus⟩ := h.status hpath
  rw [Disk.list, hstatus]

end Passes

theorem isSome_of_isDirectoryAt (h : disk.isDirectoryAt location = true) :
    (disk.find? location).isSome = true := by
  rw [isDirectoryAt] at h
  split at h
  · next mode hentry =>
    rw [hentry]
    rfl
  · cases h

/-- The names of a directory are those of the entries in it. -/
theorem mem_namesBelow {name : String}
    (h : (disk.find? (location ++ [name])).isSome = true) : name ∈ disk.namesBelow location := by
  rw [find?_of_ne_nil disk (by simp), Option.isSome_iff_exists] at h
  obtain ⟨entry, hentry⟩ := h
  obtain ⟨before, after, hentries, _⟩ := List.lookup_eq_some_iff.1 hentry
  rw [namesBelow, List.mem_mergeSort, List.mem_filterMap]
  exact ⟨(location ++ [name], entry), by simp [hentries], by simp⟩

/-- Every name on the disk is one that a path can have, and none of them means a directory itself
or the one above. -/
def IsNamed (disk : Disk) : Prop :=
  ∀ found ∈ disk.entries, ∀ name ∈ found.1, IsName name.toList ∧ name ≠ "." ∧ name ≠ ".."

instance (disk : Disk) : Decidable (IsNamed disk) :=
  inferInstanceAs (Decidable (∀ found ∈ disk.entries, ∀ name ∈ found.1, _))

theorem IsNamed.of_mem_namesBelow {name : String} (h : disk.IsNamed)
    (hname : name ∈ disk.namesBelow location) :
    IsName name.toList ∧ name ≠ "." ∧ name ≠ ".." := by
  rw [namesBelow, List.mem_mergeSort, List.mem_filterMap] at hname
  obtain ⟨⟨place, entry⟩, hentry, hbelow⟩ := hname
  dsimp only at hbelow
  split at hbelow
  · exact h (place, entry) hentry name (List.mem_of_getLast? hbelow)
  · cases hbelow

end

end LookupEngine.Disk
