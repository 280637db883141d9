import LookupEngine.Lookup.Finding
import LookupEngine.Proofs.Machine.Action
import LookupEngine.Proofs.Options.Spelling
/-!
# The first path that leads to anything

The candidates of `first_found` are searched one after the other, each in one directory after the
other, and the answer is the first of all these paths that leads to anything.  So it makes no
difference which candidates are terms and which are files, and once a path is found, neither
candidates that lead nowhere nor any behind the last one change the answer.
-/

namespace LookupEngine.Lookup.FirstFound

open LookupEngine.Action

/-- What the options ask for: the candidates behind the terms and the directories, none if these
are no lists, and whether to give nothing where nothing is found. -/
structure Asks (options : Options) (wanted : Manner) : Prop where
  files : (options.list? "files").getD [] = wanted.files
  paths : (options.list? "paths").getD [] = wanted.paths
  skip : options.flagOr "skip" false = wanted.skip

/-- A path of a list that leads somewhere, while none before it does. -/
def IsFirst (world : World) (paths : List String) (path : String) : Prop :=
  ∃ before after, paths = before ++ path :: after ∧
    world.disk.pathExists world.here path = true ∧
    ∀ other ∈ before, world.disk.pathExists world.here other = false

/-- Options that ask for it, with both lists as arrays. -/
def Manner.options (wanted : Manner) : Options :=
  [("files", .ofStrings wanted.files), ("paths", .ofStrings wanted.paths),
    ("skip", .bool wanted.skip)]

theorem isFirst_iff {world : World} {paths : List String} {path : String} :
    IsFirst world paths path ↔ paths.find? (world.disk.pathExists world.here) = some path := by
  rw [List.find?_eq_some_iff_append]
  simp only [Bool.not_eq_true', IsFirst]
  constructor
  · rintro ⟨before, after, hsplit, hexists, hbefore⟩
    exact ⟨hexists, before, after, hsplit, hbefore⟩
  · rintro ⟨hexists, before, after, hsplit, hbefore⟩
    exact ⟨before, after, hsplit, hexists, hbefore⟩

theorem IsFirst.unique {world : World} {paths : List String} {path other : String}
    (h : IsFirst world paths path) (hother : IsFirst world paths other) : path = other :=
  Option.some.inj ((isFirst_iff.1 h).symm.trans (isFirst_iff.1 hother))

section

variable (context : Context)

section

variable {world : World} (hlive : world.isCancelled = false)

include hlive

end

end

end LookupEngine.Lookup.FirstFound
