import LookupEngine.Proofs.Glob.Expansion
/-!
# What a search reaches

A search gets past every component without wildcards that is on the way to a file, and it finds
the file where the last component matches its name.  Nothing is listed on the way, so only the
directory that holds the file has to be one that can be listed.
-/

namespace LookupEngine.Glob

open LookupEngine.Path

section

variable {site : Site} {base : List (List Char)} {path target : String}

/-- There is a file at the path that these names spell. -/
structure Reaches (site : Site) (target : String) (names : List (List Char)) : Prop where
  file : site.disk.isFile site.here target = true
  spelled : target.toList = spelled names
  proper : ∀ name ∈ names, IsName name

theorem Reaches.exists_passes {front rest : List (List Char)} {name : List Char}
    (h : Reaches site target (front ++ name :: rest)) :
    ∃ between, site.disk.Passes site.here front name between := by
  obtain ⟨location, entry, hstatus⟩ := Disk.exists_status_of_isFile h.file
  exact Disk.exists_passes hstatus h.proper h.spelled

theorem isTaken_of_locate {location : Location}
    (hlocate : site.disk.locate false site.here path = .ok location)
    (hentry : (site.disk.find? location).isSome = true) : site.isTaken path = true := by
  rw [Site.isTaken, hlocate]
  exact hentry

theorem Reaches.base_proper {rest : List (List Char)} (h : Reaches site target (base ++ rest)) :
    ∀ name ∈ base, IsName name :=
  fun name hname => h.proper name (List.mem_append_left rest hname)

theorem proceed_literals {own : List Char} {patterns : List Pattern} {depth : Nat}
    (hpath : Spells path base)
    (hthere : (if String.ofList own = "." ∨ String.ofList own = ".." then site.isDirectory path
      else site.isTaken (Path.join path (String.ofList own))) = true) :
    proceed site (depth + 2) (literals own :: patterns) path =
      proceed site depth patterns (Path.join path (String.ofList own)) := by
  rw [proceed, expand, literal?_literals]
  dsimp only
  rw [inside_eq_join hpath, if_pos hthere]

/-- An empty component is found where a directory is passed. -/
theorem proceed_empty {name : List Char} {rest : List (List Char)}
    (h : Reaches site target (base ++ name :: rest)) (hpath : Spells path base)
    (patterns : List Pattern) (depth : Nat) :
    proceed site (depth + 2) (literals [] :: patterns) path =
      proceed site depth patterns (Path.join path "") := by
  apply proceed_literals hpath
  rw [if_neg (by decide)]
  obtain ⟨between, hpasses⟩ := h.exists_passes
  have hnext := hpath.join_empty h.base_proper
  exact isTaken_of_locate (hpasses.slashed _ hnext) (Disk.isSome_of_isDirectoryAt hpasses.directory)

/-- A component without wildcards is found where its text is passed. -/
theorem proceed_name {own : List Char} {rest : List (List Char)}
    (h : Reaches site target (base ++ own :: rest)) (hpath : Spells path base)
    (patterns : List Pattern) (depth : Nat) :
    proceed site (depth + 2) (literals own :: patterns) path =
      proceed site depth patterns (Path.join path (String.ofList own)) := by
  have hown : IsName own := h.proper own (by simp)
  obtain ⟨between, hpasses⟩ := h.exists_passes
  apply proceed_literals hpath
  by_cases hdots : String.ofList own = "." ∨ String.ofList own = ".."
  · rw [if_pos hdots]
    exact hpasses.isDirectory hpath
  · rw [if_neg hdots]
    rw [not_or] at hdots
    have hdot : own ≠ ['.'] := fun heq => hdots.1 (by rw [heq])
    have hup : own ≠ ['.', '.'] := fun heq => hdots.2 (by rw [heq])
    obtain ⟨hentry, hlocate⟩ := hpasses.entry hdot hup
    exact isTaken_of_locate (hlocate _ (hpath.join h.base_proper hown)) hentry

/-- All components without wildcards are found on the way to a file. -/
theorem exists_proceed_plain {plain : List (List Char)} {rest : List (List Char)}
    (hrest : rest ≠ [])
    (h : Reaches site target (base ++ (plain.filter (!·.isEmpty) ++ rest)))
    (hpath : Spells path base) (patterns : List Pattern) (depth : Nat) :
    ∃ next, Spells next (base ++ plain.filter (!·.isEmpty)) ∧
      proceed site (depth + 2 * plain.length) (plain.map literals ++ patterns) path =
        proceed site depth patterns next := by
  induction plain generalizing base path with
  | nil => exact ⟨path, by rwa [List.filter_nil, List.append_nil], rfl⟩
  | cons own plain ih =>
    have hdepth : depth + 2 * (own :: plain).length = depth + 2 * plain.length + 2 := by
      rw [List.length_cons]
      omega
    rw [hdepth, List.map_cons, List.cons_append]
    by_cases hown : own = []
    · subst hown
      rw [List.filter_cons_of_neg (by simp)] at h ⊢
      obtain ⟨name, more, hcons⟩ : ∃ name more, plain.filter (!·.isEmpty) ++ rest = name :: more :=
        List.exists_cons_of_ne_nil (by simp [hrest])
      have hnext := Spells.slashed (hpath.join_empty h.base_proper)
      rw [proceed_empty (hcons ▸ h) hpath]
      exact ih h hnext
    · rw [List.filter_cons_of_pos (by simpa using hown), List.cons_append] at h
      rw [List.filter_cons_of_pos (by simpa using hown)]
      have hname : IsName own := h.proper own (by simp)
      have hnext := Spells.bare (by simp) (hpath.join h.base_proper hname)
      rw [proceed_name h hpath, List.append_cons]
      rw [List.append_cons] at h
      exact ih h hnext

/-- A last component that matches the name of a file finds it. -/
theorem mem_proceed_of_matches {name : List Char} {pattern : Pattern}
    (h : Reaches site target (base ++ [name])) (hpath : Spells path base)
    (hdot : name ≠ ['.']) (hdots : name ≠ ['.', '.']) (hmatches : Matches pattern name)
    (depth : Nat) : target ∈ proceed site (depth + 3) [pattern] path := by
  have hname : IsName name := h.proper name (by simp)
  have htarget : Path.join path (String.ofList name) = target := by
    rw [← String.toList_inj, hpath.join h.base_proper hname, h.spelled]
  cases hliteral : pattern.literal? with
  | some own =>
    obtain rfl := eq_literals_of_literal? hliteral
    obtain rfl := matches_literals_iff.1 hmatches
    rw [proceed_name h hpath, htarget, proceed, List.mem_singleton]
  | none =>
    obtain ⟨between, hpasses⟩ := h.exists_passes
    have hdirectory := hpasses.isDirectory hpath
    have hlisted : String.ofList name ∈ site.names path := by
      rw [Site.names, hpasses.list hpath]
      exact Disk.mem_namesBelow (hpasses.entry hdot hdots).1
    have hvisit : target ∈ visit site (depth + 1) pattern [] target (String.ofList name) := by
      simp only [visit, hmatches.isRecursive_eq_false, String.toList_ofList,
        matchesName_iff.2 hmatches, Bool.false_eq_true, if_false, if_true, proceed,
        List.mem_singleton]
    rw [proceed, expand, hliteral]
    dsimp only
    rw [Site.isDirectory, hdirectory, if_pos rfl, List.mem_append, List.mem_flatMap,
      List.mem_flatMap]
    refine .inr ⟨String.ofList name, hlisted, ?_⟩
    rwa [inside_eq_join hpath, htarget]

end

end LookupEngine.Glob
