import LookupEngine.Proofs.Glob.Matching
import LookupEngine.Proofs.Machine.Walks
/-!
# What a search finds

Every path that a search finds is the one it starts from with names that match the components.
The search is three functions that call each other with less and less depth, so what one call
finds is stated for each of them under the same statement for the calls it makes, and the depth
carries the induction.
-/

namespace LookupEngine.Glob

open LookupEngine.Path

/-- The path has the names of the base and then names that match the patterns. -/
def Finds (base : List (List Char)) (patterns : List Pattern) (path : String) : Prop :=
  ∃ names, Spells path (base ++ names) ∧ (∀ name ∈ names, IsName name) ∧
    MatchesPath patterns names

/-- The patterns hold no slash that stands for itself. -/
def NoSlash (patterns : List Pattern) : Prop :=
  ∀ pattern ∈ patterns, Token.literal '/' ∉ pattern

section

variable {base : List (List Char)} {patterns patterns' : List Pattern} {path : String}
  {name : List Char}

theorem Finds.mono (h : Finds base patterns path)
    (hmatches : ∀ names, MatchesPath patterns names → MatchesPath patterns' names) :
    Finds base patterns' path := by
  obtain ⟨names, hspells, hnames, hpath⟩ := h
  exact ⟨names, hspells, hnames, hmatches names hpath⟩

theorem Finds.under (h : Finds (base ++ [name]) patterns path) (hname : IsName name)
    (hmatches : ∀ names, MatchesPath patterns names → MatchesPath patterns' (name :: names)) :
    Finds base patterns' path := by
  obtain ⟨names, hspells, hnames, hpath⟩ := h
  rw [List.append_assoc, List.singleton_append] at hspells
  exact ⟨name :: names, hspells, List.forall_mem_cons.2 ⟨hname, hnames⟩, hmatches names hpath⟩

theorem mem_of_mem_afterDirectories {pattern : Pattern} {rest : List Pattern}
    (h : pattern ∈ afterDirectories rest) : pattern ∈ rest := by
  induction rest with
  | nil => exact h
  | cons first rest ih =>
    rw [afterDirectories] at h
    split at h
    · exact List.mem_cons_of_mem first (ih h)
    · exact h

theorem inside_eq_join {found : String} (h : Spells path base) :
    inside path found = Path.join path found := by
  rw [inside, if_neg h.ne_dot]

end

/-! ## One call -/

section

variable {site : Site}

/-- What going on behind a path finds. -/
def ProceedsWell (site : Site) (depth : Nat) : Prop :=
  ∀ patterns path base, NoSlash patterns → Spells path base → (∀ name ∈ base, IsName name) →
    ∀ found ∈ proceed site depth patterns path, Finds base patterns found

/-- What expanding a pattern below a path finds. -/
def ExpandsWell (site : Site) (depth : Nat) : Prop :=
  ∀ pattern rest path base, NoSlash (pattern :: rest) → Spells path base →
    (∀ name ∈ base, IsName name) →
    ∀ found ∈ expand site depth pattern rest path, Finds base (pattern :: rest) found

/-- What is found at and below an entry of a directory. -/
def VisitsWell (site : Site) (depth : Nat) : Prop :=
  ∀ pattern rest path base name, NoSlash (pattern :: rest) →
    Spells path (base ++ [name.toList]) → (∀ own ∈ base, IsName own) →
    IsName name.toList → name ≠ "." → name ≠ ".." →
    ∀ found ∈ visit site depth pattern rest path name, Finds base (pattern :: rest) found

theorem proceedsWell_nil {depth : Nat} {base : List (List Char)} {path found : String}
    (hpath : Spells path base) (hfound : found ∈ proceed site depth [] path) :
    Finds base [] found := by
  rw [proceed, List.mem_singleton] at hfound
  exact ⟨[], by rwa [hfound, List.append_nil], List.forall_mem_nil _, .nil⟩

theorem proceedsWell_zero : ProceedsWell site 0 := by
  intro patterns path base _ hpath _ found hfound
  cases patterns with
  | nil => exact proceedsWell_nil hpath hfound
  | cons pattern rest =>
    rw [proceed] at hfound
    cases hfound

theorem proceedsWell_succ {depth : Nat} (hexpand : ExpandsWell site depth) :
    ProceedsWell site (depth + 1) := by
  intro patterns path base hslash hpath hbase found hfound
  cases patterns with
  | nil => exact proceedsWell_nil hpath hfound
  | cons pattern rest =>
    rw [proceed] at hfound
    exact hexpand pattern rest path base hslash hpath hbase found hfound

/-- Going on behind a name that a component matches. -/
theorem finds_of_proceed {depth : Nat} (hproceed : ProceedsWell site depth) {pattern : Pattern}
    {rest : List Pattern} {path found : String} {base : List (List Char)} {name : List Char}
    (hrest : NoSlash rest) (hbase : ∀ own ∈ base, IsName own) (hname : IsName name)
    (hmatches : Matches pattern name)
    (hdots : name = ['.'] ∨ name = ['.', '.'] → pattern.head? = some (.literal '.'))
    (hpath : Spells path (base ++ [name])) (hfound : found ∈ proceed site depth rest path) :
    Finds base (pattern :: rest) found := by
  have hbelow : ∀ own ∈ base ++ [name], IsName own := by
    rw [List.forall_mem_append, List.forall_mem_singleton]
    exact ⟨hbase, hname⟩
  have hfinds := hproceed rest path (base ++ [name]) hrest hpath hbelow found hfound
  exact hfinds.under hname fun names hnames => .name hname.ne_nil hmatches hdots hnames

theorem isName_of_mem_dots {pattern : Pattern} {name : String} (h : name ∈ dots pattern) :
    IsName name.toList ∧ Matches pattern name.toList ∧
      pattern.head? = some (.literal '.') := by
  rw [dots] at h
  split at h
  · next hhead =>
    rw [List.mem_filter] at h
    obtain ⟨hmem, hmatches⟩ := h
    refine ⟨?_, matchesName_iff.1 hmatches, hhead⟩
    rw [List.mem_cons, List.mem_singleton] at hmem
    rcases hmem with rfl | rfl <;> exact ⟨by decide, by decide⟩
  · cases h

theorem mem_names_of_isNamed (hnamed : site.disk.IsNamed) {path name : String}
    (h : name ∈ site.names path) : IsName name.toList ∧ name ≠ "." ∧ name ≠ ".." := by
  rw [Site.names] at h
  split at h
  · next names hlist =>
    rw [Disk.list] at hlist
    split at hlist
    · cases hlist
    · obtain rfl := Except.ok.inj hlist
      exact hnamed.of_mem_namesBelow h
    · cases hlist
  · cases h

theorem expandsWell_succ (hnamed : site.disk.IsNamed) {depth : Nat}
    (hproceed : ProceedsWell site depth) (hvisit : VisitsWell site depth) :
    ExpandsWell site (depth + 1) := by
  intro pattern rest path base hslash hpath hbase found hfound
  obtain ⟨hpattern, hrest⟩ := List.forall_mem_cons.1 hslash
  rw [expand] at hfound
  split at hfound
  · next own hliteral =>
    obtain rfl := eq_literals_of_literal? hliteral
    dsimp only at hfound
    rw [inside_eq_join hpath] at hfound
    generalize (if String.ofList own = "." ∨ String.ofList own = ".." then _ else _ : Bool) = there
      at hfound
    cases there with
    | false => cases hfound
    | true =>
      rw [if_pos rfl] at hfound
      by_cases hown : own = []
      · subst hown
        have hnext := Spells.slashed (hpath.join_empty hbase)
        exact (hproceed rest _ base hrest hnext hbase found hfound).mono fun _ => .empty
      · have hname : IsName own := by
          refine ⟨hown, fun hmem => hpattern ?_⟩
          exact List.mem_map.2 ⟨'/', hmem, rfl⟩
        have hnext := Spells.bare (by simp) (hpath.join hbase hname)
        refine finds_of_proceed hproceed hrest hbase hname (matches_literals_iff.2 rfl) ?_ hnext
          hfound
        rintro (rfl | rfl) <;> rfl
  · split at hfound
    · rw [List.mem_append, List.mem_flatMap, List.mem_flatMap] at hfound
      rcases hfound with ⟨name, hname, hfound⟩ | ⟨name, hname, hfound⟩
      · obtain ⟨hproper, hmatches, hhead⟩ := isName_of_mem_dots hname
        have hnext := hpath.join hbase hproper
        rw [String.ofList_toList] at hnext
        exact finds_of_proceed hproceed hrest hbase hproper hmatches (fun _ => hhead)
          (.bare (by simp) hnext) hfound
      · obtain ⟨hproper, hdot, hdots⟩ := mem_names_of_isNamed hnamed hname
        have hnext := hpath.join hbase hproper
        rw [String.ofList_toList, ← inside_eq_join hpath] at hnext
        exact hvisit pattern rest _ base name hslash (.bare (by simp) hnext) hbase hproper hdot
          hdots found hfound
    · cases hfound

theorem visitsWell_succ {depth : Nat} (hproceed : ProceedsWell site depth)
    (hexpand : ExpandsWell site depth) : VisitsWell site (depth + 1) := by
  intro pattern rest path base name hslash hpath hbase hname hdot hdots found hfound
  obtain ⟨hpattern, hrest⟩ := List.forall_mem_cons.1 hslash
  have hproper : name.toList ≠ [] ∧ name.toList ≠ ['.'] ∧ name.toList ≠ ['.', '.'] := by
    refine ⟨hname.ne_nil, fun h => hdot ?_, fun h => hdots ?_⟩
    · rw [← String.toList_inj, h]
      rfl
    · rw [← String.toList_inj, h]
      rfl
  have hbelow : ∀ own ∈ base ++ [name.toList], IsName own := by
    rw [List.forall_mem_append, List.forall_mem_singleton]
    exact ⟨hbase, hname⟩
  have hnodots : name.toList = ['.'] ∨ name.toList = ['.', '.'] →
      ∀ {pattern : Pattern}, pattern.head? = some (.literal '.') := by
    rintro (h | h)
    · exact absurd h hproper.2.1
    · exact absurd h hproper.2.2
  have hlater : NoSlash (afterDirectories rest) := fun pattern hmem =>
    hrest pattern (mem_of_mem_afterDirectories hmem)
  rw [visit] at hfound
  dsimp only at hfound
  split at hfound
  · next hrecursive =>
    -- What is below the entry is matched by the same stars, which then stand for it as well.
    have hdeeper : ∀ found ∈ expand site depth pattern (afterDirectories rest) path,
        Finds base (pattern :: rest) found := by
      intro found hfound
      have hfinds := hexpand pattern _ path _ (List.forall_mem_cons.2 ⟨hpattern, hlater⟩) hpath
        hbelow found hfound
      exact hfinds.under hname fun _ h => h.directories_cons hrecursive hproper
    split at hfound
    · next hafter =>
      split at hfound
      · rw [List.mem_cons] at hfound
        rcases hfound with rfl | hfound
        · have hends : MatchesPath rest [] := .of_afterDirectories (hafter ▸ .nil)
          refine ⟨[name.toList], hpath, List.forall_mem_singleton.2 hname, ?_⟩
          exact .directories [name.toList] hrecursive (List.forall_mem_singleton.2 hproper) hends
        · exact hdeeper found (hafter ▸ hfound)
      · cases hfound
    · next next later hafter =>
      rw [hafter] at hlater hdeeper
      rw [List.mem_append] at hfound
      rcases hfound with hfound | hfound
      · split at hfound
        · next hmatches =>
          have hfinds := finds_of_proceed hproceed (List.forall_mem_cons.1 hlater).2 hbase hname
            (matchesName_iff.1 hmatches) (fun h => hnodots h) hpath hfound
          refine hfinds.mono fun names h => .directories [] hrecursive (List.forall_mem_nil _) ?_
          exact .of_afterDirectories (hafter ▸ h)
        · cases hfound
      · split at hfound
        · exact hdeeper found hfound
        · cases hfound
  · split at hfound
    · next hmatches =>
      exact finds_of_proceed hproceed hrest hbase hname (matchesName_iff.1 hmatches)
        (fun h => hnodots h) hpath hfound
    · cases hfound

/-- All three functions find only what the patterns match, however deep they may go. -/
theorem searchesWell (hnamed : site.disk.IsNamed) (depth : Nat) :
    ProceedsWell site depth ∧ ExpandsWell site depth ∧ VisitsWell site depth := by
  induction depth with
  | zero =>
    refine ⟨proceedsWell_zero, ?_, ?_⟩
    · intro pattern rest path base _ _ _ found hfound
      rw [expand] at hfound
      cases hfound
    · intro pattern rest path base name _ _ _ _ _ _ found hfound
      rw [visit] at hfound
      cases hfound
  | succ depth ih =>
    obtain ⟨hproceed, hexpand, hvisit⟩ := ih
    exact ⟨proceedsWell_succ hexpand, expandsWell_succ hnamed hproceed hvisit,
      visitsWell_succ hproceed hexpand⟩

end

end LookupEngine.Glob
