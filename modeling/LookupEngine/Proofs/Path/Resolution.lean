import LookupEngine.Context
import LookupEngine.Proofs.Path.Spelled
/-!
# Resolving paths

A path is resolved in two steps: a tilde that is the whole path or stands before its first slash
gives way to the home directory, and what is relative then is put inside the working directory.
Neither step touches an absolute path, so inside an absolute working directory nothing is left to
resolve after the first time.  The home directory is asked for only by that tilde, and the working
directory only by what the first step leaves relative, as it does when the home directory is
relative or begins with a tilde itself.
-/

namespace LookupEngine

namespace Path

/-! ## Joining -/

/-- What stands before the last slash between a directory and a path in it. -/
theorem exists_front {dir rest : List Char} (hdir : isAbsoluteChars dir = true)
    (hrest : isAbsoluteChars rest = false) :
    ∃ front, joinChars dir rest = front ++ '/' :: rest ∧ pieces front = pieces dir ∧
      (∀ c ∈ front, c ∈ dir) ∧ (front = [] ∨ ∃ more, front = '/' :: more) := by
  obtain ⟨more, rfl⟩ := isAbsoluteChars_iff.1 hdir
  rw [joinChars, hrest, if_neg (by simp)]
  by_cases hlast : ('/' :: more).getLast? = some '/'
  · obtain ⟨front, hfront⟩ := List.getLast?_eq_some_iff.1 hlast
    rw [if_pos hlast]
    refine ⟨front, ?_, ?_, ?_, ?_⟩
    · rw [hfront, List.append_assoc]
      rfl
    · rw [hfront, pieces_append_slash]
      exact (List.append_nil _).symm
    · intro c hc
      rw [hfront]
      exact List.mem_append_left _ hc
    · cases front with
      | nil => exact .inl rfl
      | cons c front =>
        obtain ⟨rfl, _⟩ := List.cons.inj hfront
        exact .inr ⟨front, rfl⟩
  · rw [if_neg hlast]
    exact ⟨'/' :: more, rfl, rfl, fun _ hc => hc, .inr ⟨more, rfl⟩⟩

section

variable {base rest : String}

/-- An absolute path is the same inside any directory. -/
theorem join_of_isAbsolute (hrest : isAbsolute rest = true) : join base rest = rest := by
  rw [isAbsolute] at hrest
  rw [join, joinChars, hrest, Bool.true_or, if_pos rfl, String.ofList_toList]

theorem isAbsolute_join (hbase : isAbsolute base = true) : isAbsolute (join base rest) = true := by
  by_cases hrest : isAbsolute rest = true
  · rwa [join_of_isAbsolute hrest]
  · obtain ⟨front, hjoin, _, _, hfront⟩ := exists_front hbase (eq_false_of_ne_true hrest)
    rw [join, isAbsolute, String.toList_ofList, hjoin, isAbsoluteChars_iff]
    rcases hfront with rfl | ⟨more, rfl⟩
    · exact ⟨rest.toList, rfl⟩
    · exact ⟨more ++ '/' :: rest.toList, rfl⟩

/-- A relative path inside a directory leads on from where the directory is. -/
theorem pieces_join (hbase : isAbsolute base = true) (hrest : isAbsolute rest = false) :
    pieces (join base rest).toList = pieces base.toList ++ pieces rest.toList := by
  obtain ⟨front, hjoin, hpieces, _⟩ := exists_front hbase hrest
  rw [join, String.toList_ofList, hjoin, pieces_append_slash, hpieces]

end

/-! ## The tilde -/

/-- The path is a tilde, or begins with one and a slash. -/
inductive StartsAtHome (path : String) : Prop
  | itself (h : path = "~")
  | below (rest : String) (h : path = "~/" ++ rest)

theorem not_startsAtHome_of_isAbsolute {path : String} (h : isAbsolute path = true) :
    ¬ StartsAtHome path := by
  obtain ⟨rest, hrest⟩ := isAbsoluteChars_iff.1 h
  rintro (rfl | ⟨below, rfl⟩)
  · exact absurd hrest (by simp)
  · exact absurd hrest (by simp)

/-- No other tilde is replaced. -/
theorem expandTilde_of_not_startsAtHome {path : String} (h : ¬ StartsAtHome path)
    (home : Option String) : expandTilde home path = path := by
  rw [expandTilde]
  · intro _ hpath _
    exact h (.itself (String.toList_inj.1 hpath))
  · intro rest _ hpath _
    apply h
    refine .below (String.ofList rest) (String.toList_inj.1 ?_)
    rw [hpath]
    simp

theorem expandTilde_itself (home : String) : expandTilde (some home) "~" = home := rfl

theorem expandTilde_below (home rest : String) :
    expandTilde (some home) ("~/" ++ rest) = home ++ ("/" ++ rest) := by
  rw [← String.toList_inj]
  simp [expandTilde]

section

variable {path : String} (h : StartsAtHome path)

include h

/-- The expanded path tells the home directory. -/
theorem expandTilde_injective {home other : String}
    (heq : expandTilde (some home) path = expandTilde (some other) path) : home = other := by
  cases h with
  | itself h =>
    subst h
    exact heq
  | below rest h =>
    subst h
    rw [expandTilde_below, expandTilde_below] at heq
    exact (String.append_left_inj _).1 heq

theorem isAbsolute_expandTilde {home : String} (hhome : isAbsolute home = true) :
    isAbsolute (expandTilde (some home) path) = true := by
  cases h with
  | itself h => rwa [h, expandTilde_itself]
  | below rest h =>
    obtain ⟨more, hmore⟩ := isAbsoluteChars_iff.1 hhome
    rw [h, expandTilde_below, isAbsolute, String.toList_append, hmore]
    rfl

end

end Path

namespace Context

open LookupEngine.Path

variable {context : Context} {environment : Environment} {dir path : String}

theorem expandHome_of_not_startsAtHome (h : ¬ StartsAtHome path) :
    context.expandHome environment path = path :=
  expandTilde_of_not_startsAtHome h _

/-- An absolute path is the same inside any working directory and inside none. -/
theorem inWorkDir_of_isAbsolute (h : isAbsolute path = true) : context.inWorkDir path = path := by
  rw [inWorkDir]
  split
  · exact join_of_isAbsolute h
  · rfl

theorem resolve_of_isAbsolute_expandHome
    (h : isAbsolute (context.expandHome environment path) = true) :
    context.resolve environment path = context.expandHome environment path :=
  inWorkDir_of_isAbsolute h

/-- An absolute path is resolved already, whatever the context. -/
theorem resolve_of_isAbsolute (h : isAbsolute path = true) :
    context.resolve environment path = path := by
  rw [resolve, expandHome_of_not_startsAtHome (not_startsAtHome_of_isAbsolute h),
    inWorkDir_of_isAbsolute h]

theorem resolve_of_workDir (hdir : context.workDir = some dir) :
    context.resolve environment path = join dir (context.expandHome environment path) := by
  rw [resolve, inWorkDir, hdir]

/-- The home directory is asked for exactly by the paths that start at it. -/
theorem resolve_ignores_home_iff :
    (∀ settings elsewhere, Context.resolve { context with settings } elsewhere path =
        context.resolve environment path) ↔ ¬ StartsAtHome path := by
  constructor
  · intro hsame hstarts
    -- An absolute home directory can be read off the resolved path, so two of them differ in it.
    have hhome : ∀ home, isAbsolute home = true →
        expandTilde (some home) path = context.resolve environment path := by
      intro home habsolute
      rw [← hsame { context.settings with paths := ⟨some home⟩ } environment]
      exact (inWorkDir_of_isAbsolute (isAbsolute_expandTilde hstarts habsolute)).symm
    have heq : "/a" = "/b" :=
      expandTilde_injective hstarts ((hhome "/a" (by decide)).trans (hhome "/b" (by decide)).symm)
    exact absurd heq (by decide)
  · intro h settings elsewhere
    rw [resolve, resolve, expandHome_of_not_startsAtHome h, expandHome_of_not_startsAtHome h]
    rfl

section

variable (hdir : context.workDir = some dir) (habsolute : isAbsolute dir = true)

include hdir habsolute

theorem isAbsolute_resolve : isAbsolute (context.resolve environment path) = true := by
  rw [resolve_of_workDir hdir]
  exact isAbsolute_join habsolute

/-- The working directory is asked for exactly by what the tilde leaves relative. -/
theorem resolve_ignores_workDir_iff :
    (∀ other, Context.resolve { context with workDir := other } environment path =
        context.resolve environment path) ↔
      isAbsolute (context.expandHome environment path) = true := by
  constructor
  · intro hsame
    -- Without a working directory the expanded path stays as it is.
    have hnone : context.expandHome environment path = context.resolve environment path :=
      hsame none
    rw [hnone]
    exact isAbsolute_resolve hdir habsolute
  · intro h other
    rw [resolve_of_isAbsolute_expandHome h]
    exact inWorkDir_of_isAbsolute h

theorem pieces_resolve :
    pieces (context.resolve environment path).toList =
      (if isAbsolute (context.expandHome environment path) then [] else pieces dir.toList) ++
        pieces (context.expandHome environment path).toList := by
  by_cases h : isAbsolute (context.expandHome environment path) = true
  · rw [if_pos h, resolve_of_isAbsolute_expandHome h, List.nil_append]
  · rw [if_neg h, resolve_of_workDir hdir, pieces_join habsolute (eq_false_of_ne_true h)]

end

/-- Inside an absolute working directory every path is resolved to an absolute one, which no
context resolves any further.  Its names are those of the expanded path, behind those of the
working directory where the expanded path is relative.  Only there does it make a difference what
the working directory is, and what the home directory is only where the path is a tilde or begins
with one and a slash. -/
theorem resolve_settles_path {context : Context} {dir : String}
    (hdir : context.workDir = some dir) (habsolute : Path.isAbsolute dir = true)
    (environment : Environment) (path : String) :
    Path.isAbsolute (context.resolve environment path) = true ∧
      (∀ later elsewhere, Context.resolve later elsewhere (context.resolve environment path) =
        context.resolve environment path) ∧
      Path.pieces (context.resolve environment path).toList =
        (if Path.isAbsolute (context.expandHome environment path) then []
          else Path.pieces dir.toList) ++
          Path.pieces (context.expandHome environment path).toList ∧
      ((∀ other, Context.resolve { context with workDir := other } environment path =
          context.resolve environment path) ↔
        Path.isAbsolute (context.expandHome environment path) = true) ∧
      ((∀ settings elsewhere, Context.resolve { context with settings } elsewhere path =
          context.resolve environment path) ↔
        ¬ Path.StartsAtHome path) := by
  have hresolved : Path.isAbsolute (context.resolve environment path) = true :=
    isAbsolute_resolve hdir habsolute
  exact ⟨hresolved, fun _ _ => resolve_of_isAbsolute hresolved, pieces_resolve hdir habsolute,
    resolve_ignores_workDir_iff hdir habsolute, resolve_ignores_home_iff⟩

/-- A home directory that is a tilde itself, so that expanding leaves the path as it is. -/
def tildeHome : Context := ⟨{ Settings.default with paths := ⟨some "~"⟩ }, some "/srv/project"⟩

/-- The tilde that the home directory puts back is a name below the working directory and no home
any more, although the path would lead elsewhere from another directory or with another home. -/
theorem resolve_settles_path_at_tilde :
    tildeHome.workDir = some "/srv/project" ∧ Path.isAbsolute "/srv/project" = true ∧
      tildeHome.resolve ⟨[], none⟩ "~/.ssh/id" = "/srv/project/~/.ssh/id" ∧
      (∀ later elsewhere, Context.resolve later elsewhere "/srv/project/~/.ssh/id" =
        "/srv/project/~/.ssh/id") ∧
      (¬ ∀ other, Context.resolve { tildeHome with workDir := other } ⟨[], none⟩ "~/.ssh/id" =
        "/srv/project/~/.ssh/id") ∧
      ¬ ∀ settings elsewhere,
        Context.resolve { tildeHome with settings } elsewhere "~/.ssh/id" =
          "/srv/project/~/.ssh/id" := by
  have hresolve : tildeHome.resolve ⟨[], none⟩ "~/.ssh/id" = "/srv/project/~/.ssh/id" := by decide
  have hrelative : Path.isAbsolute (tildeHome.expandHome ⟨[], none⟩ "~/.ssh/id") = false := by
    decide
  obtain ⟨-, hagain, -, hworkDir, hhome⟩ :=
    @resolve_settles_path tildeHome "/srv/project" rfl (by decide) ⟨[], none⟩ "~/.ssh/id"
  rw [hresolve] at hagain hworkDir hhome
  refine ⟨rfl, by decide, hresolve, hagain, fun hsame => ?_, fun hsame => ?_⟩
  · rw [hworkDir.1 hsame] at hrelative
    cases hrelative
  · exact hhome.1 hsame (.below ".ssh/id" (by decide))

end Context

end LookupEngine
