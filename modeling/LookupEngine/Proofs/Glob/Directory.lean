import Mathlib
import LookupEngine.Lookup.Finding
import LookupEngine.Proofs.Glob.Reaching
import LookupEngine.Proofs.Machine.Action
import LookupEngine.Proofs.Path.Resolution
import LookupEngine.Proofs.Result
/-!
# Globs in a working directory

A relative pattern is expanded after the working directory has been put in front of it, as one
pattern.  Where the name of the directory has no wildcards, it stands for itself there and what is
found are the files below it that the pattern matches.  A directory whose name has a wildcard is
read as a pattern too, and then the files of other directories are found in place of its own.
-/

namespace LookupEngine.Glob

open LookupEngine.Path

/-- The text can be expanded as a pattern, with the patterns of its components. -/
def IsGlob (cs : List Char) (patterns : List Pattern) : Prop :=
  (∃ whole, Pattern.parse cs = .ok whole) ∧ (components cs).mapM Pattern.parse = .ok patterns

/-! ## Putting the directory in front -/

theorem components_append_slash (front back : List Char) :
    components (front ++ '/' :: back) =
      Text.splitAny (· = '/') front ++ components back := by
  have hback : Text.splitAny (· = '/') back ≠ [] := Text.splitAny_ne_nil _ _
  simp only [components, splitAny_append_slash]
  rw [List.getLast?_append_of_ne_nil _ hback, List.dropLast_append_of_ne_nil hback]
  split <;> rfl

/-- A directory in front of a path, cut at the slash between them and after the first slash. -/
structure Joined (dir rest front below : List Char) (plain : List (List Char)) : Prop where
  between : joinChars dir rest = front ++ '/' :: rest
  first : joinChars dir rest = '/' :: below
  of_dir : ∀ c ∈ front, c ∈ dir
  components : components below = plain ++ components rest
  pieces : plain.filter (!·.isEmpty) = pieces dir
  own : ∀ own ∈ plain, '/' ∉ own ∧ ∀ c ∈ own, c ∈ dir

theorem exists_joined {dir rest : List Char} (hdir : isAbsoluteChars dir = true)
    (hrest : isAbsoluteChars rest = false) :
    ∃ front below plain, Joined dir rest front below plain := by
  obtain ⟨front, hjoin, hpieces, hmem, hfront⟩ := exists_front hdir hrest
  rcases hfront with rfl | ⟨more, rfl⟩
  · exact ⟨[], rest, [],
      { between := hjoin, first := hjoin, of_dir := hmem, components := rfl, pieces := hpieces
        own := List.forall_mem_nil _ }⟩
  · refine ⟨'/' :: more, more ++ '/' :: rest, Text.splitAny (· = '/') more,
      { between := hjoin, first := hjoin, of_dir := hmem
        components := components_append_slash more rest, pieces := ?_, own := ?_ }⟩
    · rw [← hpieces]
      exact (pieces_append_slash [] more).symm
    · intro own hown
      exact ⟨no_slash_of_mem_splitAny hown, fun c hc =>
        hmem c (List.mem_cons_of_mem _ (Text.of_mem_splitAny hown c hc).1)⟩

/-- The patterns that are searched for: those of the components, and an empty one for the root. -/
def searched (below : List Char) (patterns : List Pattern) : List Pattern :=
  if below.isEmpty then [[]] else patterns

/-- The root is searched for only where there is nothing else. -/
theorem searched_eq_or {below : List Char} {patterns : List Pattern}
    (h : (components below).mapM Pattern.parse = .ok patterns) :
    searched below patterns = patterns ∨ searched below patterns = [[]] ∧ patterns = [] := by
  rw [searched]
  split
  · next hempty =>
    obtain rfl := List.isEmpty_iff.1 hempty
    exact .inr ⟨rfl, (Except.ok.inj h).symm⟩
  · exact .inl rfl

/-- The files of an absolute pattern are the files that a search from the root finds. -/
theorem files_of_absolute {below : List Char} {patterns : List Pattern}
    (hwhole : ∃ whole, Pattern.parse ('/' :: below) = .ok whole)
    (hcomponents : (components below).mapM Pattern.parse = .ok patterns) (site : Site) :
    files site (String.ofList ('/' :: below)) =
      .ok ((if ('/' :: below).getLast? = some '/' then
          (matchesBelow site "/" (searched below patterns)).filter site.isDirectory
        else matchesBelow site "/" (searched below patterns)).filter
          (site.disk.isFile site.here)) := by
  obtain ⟨whole, hwhole⟩ := hwhole
  simp only [files, paths, String.toList_ofList, hwhole, hcomponents, searched]
  split <;> rfl

namespace Joined

variable {dir rest front below : List Char} {plain : List (List Char)} {patterns : List Pattern}

/-- A pattern stays one behind a directory without wildcards. -/
theorem isGlob (h : Joined dir rest front below plain) (hplain : ∀ c ∈ dir, IsPlain c)
    (hglob : IsGlob rest patterns) :
    (∃ whole, Pattern.parse (joinChars dir rest) = .ok whole) ∧
      (Glob.components below).mapM Pattern.parse = .ok (plain.map literals ++ patterns) := by
  obtain ⟨hwhole, hcomponents⟩ := hglob
  constructor
  · have hfront : ∀ c ∈ front ++ ['/'], IsPlain c := by
      rw [List.forall_mem_append, List.forall_mem_singleton]
      exact ⟨fun c hc => hplain c (h.of_dir c hc), by decide⟩
    have hcut : joinChars dir rest = (front ++ ['/']) ++ rest := by
      rw [h.between, List.append_assoc]
      rfl
    have hstarts : startsComponent none = startsComponent ((front ++ ['/']).getLast?.or none) := by
      rw [List.getLast?_append_of_ne_nil _ (List.cons_ne_nil _ _)]
      rfl
    rw [hcut, Pattern.parse, tokens_append_plain hfront]
    exact exists_tokens_of_startsComponent hstarts hwhole
  · have hread : plain.mapM Pattern.parse = .ok (plain.map literals) :=
      Result.mapM_eq_ok_map fun own hown =>
        parse_plain fun c hc => hplain c ((h.own own hown).2 c hc)
    rw [h.components, List.mapM_append, hread, hcomponents]
    rfl

theorem noSlash_of_isGlob (hglob : IsGlob rest patterns) : NoSlash patterns := by
  intro pattern hpattern hslash
  obtain ⟨own, hown, hparse⟩ := Result.exists_mem_of_mapM_eq_ok hglob.2 hpattern
  have hmem : own ∈ Text.splitAny (· = '/') rest := by
    rw [Glob.components] at hown
    split at hown
    · exact List.dropLast_subset _ hown
    · exact hown
  exact no_slash_of_mem_splitAny hmem (mem_of_literal_mem_parse hparse hslash)

theorem noSlash (h : Joined dir rest front below plain) (hglob : IsGlob rest patterns) :
    NoSlash (plain.map literals ++ patterns) := by
  intro pattern hpattern hslash
  rw [List.mem_append, List.mem_map] at hpattern
  rcases hpattern with ⟨own, hown, rfl⟩ | hpattern
  · obtain ⟨c, hc, heq⟩ := List.mem_map.1 hslash
    obtain rfl := Token.literal.inj heq
    exact (h.own own hown).1 hc
  · exact noSlash_of_isGlob hglob pattern hpattern hslash

/-- The files of a pattern in a directory are the files that a search from the root finds, and all
of them unless the pattern ends in a slash. -/
theorem exists_files (h : Joined dir rest front below plain) (hplain : ∀ c ∈ dir, IsPlain c)
    (hglob : IsGlob rest patterns) (site : Site) :
    ∃ found, files site (String.ofList (joinChars dir rest)) = .ok found ∧
      (∀ path ∈ found, site.disk.isFile site.here path = true ∧
        path ∈ matchesBelow site "/" (searched below (plain.map literals ++ patterns))) ∧
      (rest ≠ [] → rest.getLast? ≠ some '/' →
        ∀ path ∈ matchesBelow site "/" (searched below (plain.map literals ++ patterns)),
          site.disk.isFile site.here path = true → path ∈ found) := by
  obtain ⟨hwhole, hcomponents⟩ := h.isGlob hplain hglob
  rw [h.first] at hwhole ⊢
  rw [files_of_absolute hwhole hcomponents]
  by_cases hlast : ('/' :: below).getLast? = some '/'
  · rw [if_pos hlast]
    refine ⟨_, rfl, ?_, ?_⟩
    · intro path hpath
      obtain ⟨hpath, hfile⟩ := List.mem_filter.1 hpath
      exact ⟨hfile, (List.mem_filter.1 hpath).1⟩
    · intro hne hslash
      refine absurd ?_ hslash
      rw [← hlast, ← h.first, h.between, List.getLast?_append_of_ne_nil _ (List.cons_ne_nil _ _),
        List.getLast?_cons_of_ne_nil hne]
  · rw [if_neg hlast]
    refine ⟨_, rfl, ?_, ?_⟩
    · intro path hpath
      obtain ⟨hpath, hfile⟩ := List.mem_filter.1 hpath
      exact ⟨hfile, hpath⟩
    · intro _ _ path hpath hfile
      exact List.mem_filter.2 ⟨hpath, hfile⟩

/-- What is found is the path of the directory with names that the pattern matches. -/
theorem exists_names (h : Joined dir rest front below plain) (hplain : ∀ c ∈ dir, IsPlain c)
    (hglob : IsGlob rest patterns) {site : Site} (hnamed : site.disk.IsNamed) {path : String}
    (hfile : site.disk.isFile site.here path = true)
    (hpath : path ∈ matchesBelow site "/" (searched below (plain.map literals ++ patterns))) :
    ∃ names, path = String.ofList (spelled (Path.pieces dir ++ names)) ∧
      MatchesPath patterns names := by
  have hsearched := searched_eq_or (h.isGlob hplain hglob).2
  have hslash : NoSlash (searched below (plain.map literals ++ patterns)) := by
    rcases hsearched with heq | ⟨heq, _⟩
    · rw [heq]
      exact h.noSlash hglob
    · rw [heq]
      exact List.forall_mem_singleton.2 List.not_mem_nil
  have hmatches : ∀ names, MatchesPath (searched below (plain.map literals ++ patterns)) names →
      MatchesPath (plain.map literals ++ patterns) names := by
    rcases hsearched with heq | ⟨heq, hnil⟩
    · rw [heq]
      exact fun _ => id
    · rw [heq, hnil]
      intro names hnames
      cases hnames with
      | empty hrest => exact hrest
      | name hne hmatches _ _ =>
        cases hmatches
        exact absurd rfl hne
      | directories _ hrecursive _ _ => cases hrecursive
  have hfinds : Finds [] (plain.map literals ++ patterns) path :=
    ((searchesWell hnamed _).1 _ "/" [] hslash spells_root (List.forall_mem_nil _) path
      hpath).mono hmatches
  obtain ⟨found, hspells, hfound, hmatched⟩ := hfinds
  obtain ⟨names, rfl, hnames⟩ := hmatched.of_literals
  rw [List.nil_append, h.pieces] at hspells
  rw [h.pieces] at hfound
  refine ⟨names, ?_, hnames⟩
  cases hspells with
  | bare _ hbare => rw [← hbare, String.ofList_toList]
  | slashed hslashed =>
    rw [Disk.not_isFile_of_slashed hfound hslashed] at hfile
    cases hfile

/-- A file in the directory is found by a single component that matches its name. -/
theorem mem_matchesBelow (h : Joined dir rest front below plain) {site : Site}
    {pattern : Pattern} {name : List Char} (hname : IsName name) (hdot : name ≠ ['.'])
    (hdots : name ≠ ['.', '.']) (hmatches : Matches pattern name)
    (hfile : site.disk.isFile site.here
      (String.ofList (spelled (Path.pieces dir ++ [name]))) = true) :
    String.ofList (spelled (Path.pieces dir ++ [name])) ∈
      matchesBelow site "/" (plain.map literals ++ [pattern]) := by
  have hreaches : Reaches site (String.ofList (spelled (Path.pieces dir ++ [name])))
      ([] ++ (plain.filter (!·.isEmpty) ++ [name])) := by
    rw [List.nil_append, h.pieces]
    refine ⟨hfile, String.toList_ofList, ?_⟩
    rw [List.forall_mem_append, List.forall_mem_singleton]
    exact ⟨fun own hown => isName_of_mem_pieces hown, hname⟩
  obtain ⟨depth, hdepth⟩ : ∃ depth, deepest (plain.map literals ++ [pattern]) =
      depth + 3 + 2 * plain.length := by
    refine ⟨3 * Disk.longestPath + plain.length + 3, ?_⟩
    rw [deepest, List.length_append, List.length_map, List.length_singleton]
    omega
  obtain ⟨next, hnext, hproceed⟩ := exists_proceed_plain (List.cons_ne_nil name []) hreaches
    spells_root [pattern] (depth + 3)
  rw [List.nil_append] at hnext hreaches
  rw [matchesBelow, hdepth, hproceed]
  exact mem_proceed_of_matches hreaches hnext hdot hdots hmatches depth

end Joined

end LookupEngine.Glob

namespace LookupEngine.Lookup.FileGlob

open Glob LookupEngine.Path

variable {settings : Settings} {workDir pattern : String} {patterns : List Glob.Pattern}

theorem resolve_of_relative (environment : Environment) (htilde : '~' ∉ pattern.toList) :
    Context.resolve ⟨settings, some workDir⟩ environment pattern =
      String.ofList (joinChars workDir.toList pattern.toList) := by
  have hstarts : ¬ StartsAtHome pattern := by
    rintro (rfl | ⟨rest, rfl⟩)
    · exact htilde (by simp)
    · exact htilde (by simp)
  rw [Context.resolve_of_workDir rfl, Context.expandHome_of_not_startsAtHome hstarts]
  rfl

theorem perform_run_of_files {context : Context} {world : World} {found : List String}
    (h : Glob.files ⟨world.disk, world.here⟩ (context.resolve world.environment pattern) =
      .ok found) :
    (run context [pattern]).perform world =
      (if world.isCancelled then .error .cancelled else .ok (found.map .string), world) := by
  have hone : (one context pattern).perform world = (.ok (found.map .string), world) := by
    rw [one, Action.perform_bind_of_ok _ (Action.perform_get world), h]
    rfl
  rw [run, Action.perform_collect_singleton, hone]
  split <;> rfl

/-- In a directory whose name has no wildcards, a relative pattern finds files below the
directory, by names that it matches, and a single component finds every file in the directory
that it matches.  The only way up is by a component that begins with a dot and matches `..`. -/
theorem run_in_plain_directory {world : World} (hnamed : world.disk.IsNamed)
    (hdir : isAbsolute workDir = true) (hplain : ∀ c ∈ workDir.toList, IsPlain c)
    (hrelative : isAbsolute pattern = false) (htilde : '~' ∉ pattern.toList)
    (hglob : IsGlob pattern.toList patterns) :
    ∃ found : List String,
      (run ⟨settings, some workDir⟩ [pattern]).perform world =
        (if world.isCancelled then .error .cancelled else .ok (found.map .string), world) ∧
      (∀ path ∈ found, world.disk.isFile world.here path = true ∧
        ∃ names, path = below workDir names ∧ MatchesPath patterns names ∧
          (['.', '.'] ∈ names → ∃ component ∈ patterns,
            component.head? = some (.literal '.') ∧ Matches component ['.', '.'])) ∧
      ∀ component name, patterns = [component] → '/' ∉ pattern.toList → IsName name →
        name ≠ ['.'] → name ≠ ['.', '.'] → Matches component name →
        world.disk.isFile world.here (below workDir [name]) = true →
        below workDir [name] ∈ found := by
  obtain ⟨front, rest, plain, hjoined⟩ := exists_joined hdir hrelative
  obtain ⟨found, hfiles, hsound, hcomplete⟩ :=
    hjoined.exists_files hplain hglob ⟨world.disk, world.here⟩
  refine ⟨found, ?_, ?_, ?_⟩
  · apply perform_run_of_files
    rw [resolve_of_relative _ htilde]
    exact hfiles
  · intro path hpath
    obtain ⟨hfile, hpath⟩ := hsound path hpath
    obtain ⟨names, hnames, hmatches⟩ := hjoined.exists_names hplain hglob hnamed hfile hpath
    exact ⟨hfile, names, hnames, hmatches, hmatches.of_mem_up⟩
  · rintro component name rfl hslash hname hdot hdots hmatches hfile
    have hne : pattern.toList ≠ [] := by
      intro hnil
      have hcomponents := hglob.2
      rw [hnil] at hcomponents
      cases hcomponents
    have hsearched := (searched_eq_or (hjoined.isGlob hplain hglob).2).resolve_right (by simp)
    apply hcomplete hne fun hlast => hslash (List.mem_of_getLast? hlast)
    · rw [hsearched]
      exact hjoined.mem_matchesBelow hname hdot hdots hmatches hfile
    · exact hfile

/-- Any name that ends in `.txt`. -/
def textFiles : Glob.Pattern :=
  [.anySequence, .literal '.', .literal 't', .literal 'x', .literal 't']

theorem isGlob_textFiles : IsGlob "*.txt".toList [textFiles] :=
  ⟨⟨textFiles, by cbv⟩, by cbv⟩

theorem matches_textFiles : Matches textFiles "x.txt".toList :=
  matchesName_iff.1 (by cbv)

/-- A directory with a text and something else. -/
def plainWorld : World :=
  .still
    ⟨[(["w"], .directory Disk.plainDirectory), (["w", "x.txt"], .file [] Disk.plainFile),
      (["w", "y.log"], .file [] Disk.plainFile)]⟩
    ⟨[], none⟩

theorem run_in_plain_directory_finds_text :
    ∃ found : List String,
      (run ⟨.default, some "/w"⟩ ["*.txt"]).perform plainWorld =
        (.ok (found.map .string), plainWorld) ∧
      "/w/x.txt" ∈ found ∧
      ∀ path ∈ found, ∃ names, path = below "/w" names ∧ MatchesPath [textFiles] names := by
  have hplain : ∀ c ∈ ['/', 'w'], IsPlain c :=
    List.forall_mem_cons.2 ⟨by decide, List.forall_mem_singleton.2 (by decide)⟩
  obtain ⟨found, hrun, hsound, hcomplete⟩ :=
    @run_in_plain_directory .default "/w" "*.txt" [textFiles] plainWorld (by decide) (by decide)
      hplain (by decide) (by decide) isGlob_textFiles
  refine ⟨found, hrun, ?_, fun path hpath => ?_⟩
  · exact hcomplete textFiles "x.txt".toList rfl (by decide) (by decide) (by decide) (by decide)
      matches_textFiles (by decide +kernel)
  · obtain ⟨_, names, hnames, hmatches, _⟩ := hsound path hpath
    exact ⟨names, hnames, hmatches⟩

/-- A directory with brackets in its name, and the one that the name matches as a pattern. -/
def bracketWorld : World :=
  .still
    ⟨[(["w[1]"], .directory Disk.plainDirectory), (["w[1]", "x.txt"], .file [] Disk.plainFile),
      (["w1"], .directory Disk.plainDirectory), (["w1", "x.txt"], .file [] Disk.plainFile)]⟩
    ⟨[], none⟩

theorem files_of_brackets :
    Glob.files ⟨bracketWorld.disk, bracketWorld.here⟩ "/w[1]/*.txt" = .ok ["/w1/x.txt"] := by
  have hsearch : ∀ depth, proceed ⟨bracketWorld.disk, bracketWorld.here⟩ (depth + 8)
      [[.literal 'w', .within [.single '1']], textFiles] "/" = ["/w1/x.txt"] := by
    intro depth
    cbv
  have hwhole : Pattern.parse ('/' :: "w[1]/*.txt".toList) =
      .ok ([.literal '/', .literal 'w', .within [.single '1'], .literal '/'] ++ textFiles) := by
    cbv
  have hcomponents : (components "w[1]/*.txt".toList).mapM Pattern.parse =
      .ok [[.literal 'w', .within [.single '1']], textFiles] := by
    cbv
  have hfound : matchesBelow ⟨bracketWorld.disk, bracketWorld.here⟩ "/"
      (searched "w[1]/*.txt".toList [[.literal 'w', .within [.single '1']], textFiles]) =
        ["/w1/x.txt"] := hsearch 12286
  have hpath : "/w[1]/*.txt" = String.ofList ('/' :: "w[1]/*.txt".toList) := by decide
  rw [hpath, files_of_absolute ⟨_, hwhole⟩ hcomponents, hfound]
  decide +kernel

/-- The files of a directory with brackets in its name are not found, those of another directory
are, and a bracket that is not closed spoils every pattern. -/
theorem run_in_bracket_directory :
    (bracketWorld.disk.isFile bracketWorld.here "/w[1]/x.txt" = true ∧
        IsGlob "*.txt".toList [textFiles] ∧ Matches textFiles "x.txt".toList) ∧
      (run ⟨.default, some "/w[1]"⟩ ["*.txt"]).perform bracketWorld =
        (.ok [.string "/w1/x.txt"], bracketWorld) ∧
      ((run ⟨.default, some "/w["⟩ ["*.txt"]).perform bracketWorld).1 =
        .error (.invalidTerm "*.txt" (.pattern (.brackets 2))) := by
  refine ⟨⟨by decide +kernel, isGlob_textFiles, matches_textFiles⟩, ?_, ?_⟩
  · have hresolve : Context.resolve ⟨.default, some "/w[1]"⟩ bracketWorld.environment "*.txt" =
        "/w[1]/*.txt" := by decide +kernel
    exact @perform_run_of_files "*.txt" ⟨.default, some "/w[1]"⟩ bracketWorld ["/w1/x.txt"]
      (by rw [hresolve]; exact files_of_brackets)
  · cbv

end LookupEngine.Lookup.FileGlob
