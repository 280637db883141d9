import Mathlib.Data.List.Forall2
import LookupEngine.Lookup.Reading
import LookupEngine.Proofs.Machine.Action
import LookupEngine.Proofs.Text.Blank
import LookupEngine.Proofs.Text.Lines
/-!
# Files line by line

The lookup `lines` gives back the lines that its files are written as, those of one file behind
those of the one before it.  However the lines end, and whether or not the last line of a file
ends at all, no line is lost and none is joined to another.  Stripping changes the lines one by
one and not how many there are.
-/

namespace LookupEngine.Lookup.Lines

open LookupEngine.Action

section

variable (context : Context) (world : World)

/-- The path of a term leads to a text. -/
def Holds (term text : String) : Prop :=
  world.disk.readText world.here (context.resolve world.environment term) = .ok text

instance (term text : String) : Decidable (Holds context world term text) :=
  inferInstanceAs (Decidable (_ = _))

/-- The path of a term leads to a text that is written as some lines. -/
def HoldsLines (term : String) (lines : List String) : Prop :=
  ∃ text, Holds context world term text ∧ Text.Lined (lines.map String.toList) text.toList

variable {context world}

theorem lines_of_lined {lines : List String} {text : String}
    (h : Text.Lined (lines.map String.toList) text.toList) : Text.lines text = lines := by
  rw [Text.lines, Text.linesOf_of_lined h, List.map_map]
  exact List.map_id'' (fun line => String.ofList_toList) lines

theorem ofText_false (text : String) : ofText false text = Text.lines text :=
  List.map_id' _

theorem length_ofText (strip : Bool) (text : String) :
    (ofText strip text).length = Text.countLines text.toList := by
  rw [ofText, List.length_map, Text.lines, List.length_map, Text.length_linesOf]

theorem not_mem_of_mem_ofText {strip : Bool} {text value : String}
    (h : value ∈ ofText strip text) : '\n' ∉ value.toList := by
  obtain ⟨line, hline, rfl⟩ := List.mem_map.1 h
  obtain ⟨cs, hcs, rfl⟩ := List.mem_map.1 hline
  have hfeed := Text.not_mem_of_mem_linesOf hcs
  cases strip with
  | false => rwa [if_neg Bool.false_ne_true, String.toList_ofList]
  | true =>
    rw [if_pos rfl, Text.toList_trim, String.toList_ofList]
    exact fun hmem => hfeed (Text.mem_of_mem_trimChars hmem)

theorem trims_ofText_true (text : String) :
    List.Forall₂ (fun line value => Text.Trims line.toList value.toList) (Text.lines text)
      (ofText true text) := by
  rw [ofText, List.forall₂_map_right_iff]
  refine List.forall₂_same.2 fun line _ => ?_
  rw [if_pos rfl]
  exact Text.trimChars_eq_iff_trims.1 (Text.toList_trim line).symm

theorem trims_flatMap_ofText_true (texts : List String) :
    List.Forall₂ (fun line value => Text.Trims line.toList value.toList)
      (texts.flatMap Text.lines) (texts.flatMap (ofText true)) := by
  induction texts with
  | nil => exact .nil
  | cons text rest ih =>
    rw [List.flatMap_cons, List.flatMap_cons]
    exact List.rel_append (trims_ofText_true text) ih

/-- No other texts are left of some lines when they are trimmed. -/
theorem eq_map_trim_of_trims {lines values : List String}
    (h : List.Forall₂ (fun line value => Text.Trims line.toList value.toList) lines values) :
    values = lines.map Text.trim := by
  induction h with
  | nil => rfl
  | cons htrims hrest ih =>
    rw [List.map_cons, ih, ← Text.trim_eq_iff_trims.2 htrims]

theorem perform_one_of_holds {term text : String} (strip : Bool)
    (h : Holds context world term text) :
    (one context strip term).perform world = (.ok ((ofText strip text).map .string), world) := by
  rw [one, perform_bind_of_ok _ (perform_get world)]
  dsimp only
  rw [h]
  rfl

/-- The lines of all files stand one behind the other. -/
theorem perform_run_of_holds (hlive : world.isCancelled = false) (options : Options)
    {terms texts : List String} (h : List.Forall₂ (Holds context world) terms texts) :
    (run context options terms).perform world =
      (.ok ((texts.flatMap (ofText (options.flagOr "strip" false))).map .string), world) := by
  induction h with
  | nil => rfl
  | cons hterm hrest ih =>
    rw [run] at ih
    rw [run, perform_collect_cons_of_not _ _ hlive, perform_one_of_holds _ hterm, joined, ih,
      List.flatMap_cons, List.map_append]

/-- Files that are written as lines hold texts that are read as these lines. -/
theorem exists_texts_of_holdsLines {terms : List String} {files : List (List String)}
    (h : List.Forall₂ (HoldsLines context world) terms files) :
    ∃ texts, List.Forall₂ (Holds context world) terms texts ∧
      files = texts.map Text.lines := by
  induction h with
  | nil => exact ⟨[], .nil, rfl⟩
  | cons hterm hrest ih =>
    obtain ⟨text, htext, hlined⟩ := hterm
    obtain ⟨texts, htexts, rfl⟩ := ih
    exact ⟨text :: texts, .cons htext htexts, by rw [List.map_cons, lines_of_lined hlined]⟩

/-- While nobody cancels, the lookup gives the lines that the files are written as, or what is
left of each of them without the blanks around it.  Of any readable files, it gives for each one as
many values as there are lines in it, and none of them holds a line feed. -/
theorem run_reads_lines_back (hlive : world.isCancelled = false) (options : Options) :
    (∀ terms files, List.Forall₂ (HoldsLines context world) terms files →
      (options.flagOr "strip" false = false →
        (run context options terms).perform world = (.ok (files.flatten.map .string), world)) ∧
      (options.flagOr "strip" false = true →
        ∃ values : List String,
          (run context options terms).perform world = (.ok (values.map .string), world) ∧
          List.Forall₂ (fun line value => Text.Trims line.toList value.toList) files.flatten
            values)) ∧
      ∀ terms texts, List.Forall₂ (Holds context world) terms texts →
        ∃ parts : List (List String),
          (run context options terms).perform world = (.ok (parts.flatten.map .string), world) ∧
          List.Forall₂ (fun text part => part.length = Text.countLines text.toList ∧
            ∀ value ∈ part, '\n' ∉ value.toList) texts parts := by
  constructor
  · intro terms files hfiles
    obtain ⟨texts, htexts, rfl⟩ := exists_texts_of_holdsLines hfiles
    have hrun := perform_run_of_holds hlive options htexts
    rw [← List.flatMap_def]
    constructor
    · intro hstrip
      rw [hrun, hstrip, funext ofText_false]
    · intro hstrip
      rw [hstrip] at hrun
      exact ⟨_, hrun, trims_flatMap_ofText_true texts⟩
  · intro terms texts htexts
    refine ⟨texts.map (ofText (options.flagOr "strip" false)), ?_, ?_⟩
    · rw [perform_run_of_holds hlive options htexts, List.flatMap_def]
    · rw [List.forall₂_map_right_iff]
      exact List.forall₂_same.2 fun text _ =>
        ⟨length_ofText _ text, fun value hvalue => not_mem_of_mem_ofText hvalue⟩

end

/-- Files with ends of each kind, an empty one, and one whose last line has no end. -/
def rosterWorld : World :=
  .still
    ⟨[(["srv"], .directory Disk.plainDirectory),
      (["srv", "web"], .file "web1\r\n  web2 \n\nweb\r3".toUTF8.toList Disk.plainFile),
      (["srv", "none"], .file [] Disk.plainFile),
      (["srv", "db"], .file "\r\n\tdb\n".toUTF8.toList Disk.plainFile)]⟩
    ⟨[], none⟩

/-- The lines of the roster as they are, and without the blanks around them.  Each file gives as
many values as it has lines. -/
theorem run_reads_lines_back_of_roster :
    rosterWorld.isCancelled = false ∧
      List.Forall₂ (HoldsLines ⟨.default, some "/srv"⟩ rosterWorld) ["web", "none", "db"]
        [["web1", "  web2 ", "", "web\r3"], [], ["", "\tdb"]] ∧
      (run ⟨.default, some "/srv"⟩ [("strip", .string "off")] ["web", "none", "db"]).perform
          rosterWorld =
        (.ok [.string "web1", .string "  web2 ", .string "", .string "web\r3", .string "",
          .string "\tdb"], rosterWorld) ∧
      (run ⟨.default, some "/srv"⟩ [("strip", .string "Yes")] ["web", "none", "db"]).perform
          rosterWorld =
        (.ok [.string "web1", .string "web2", .string "", .string "web\r3", .string "",
          .string "db"], rosterWorld) ∧
      ∃ web none db : List String,
        (run ⟨.default, some "/srv"⟩ [("strip", .string "Yes")] ["web", "none", "db"]).perform
            rosterWorld =
          (.ok ([web, none, db].flatten.map .string), rosterWorld) ∧
        web.length = 4 ∧ none.length = 0 ∧ db.length = 2 ∧
        ∀ value ∈ [web, none, db].flatten, '\n' ∉ value.toList := by
  have hweb : Holds ⟨.default, some "/srv"⟩ rosterWorld "web" "web1\r\n  web2 \n\nweb\r3" := by
    decide +kernel
  have hnone : Holds ⟨.default, some "/srv"⟩ rosterWorld "none" "" := by decide +kernel
  have hdb : Holds ⟨.default, some "/srv"⟩ rosterWorld "db" "\r\n\tdb\n" := by decide +kernel
  have hfiles : List.Forall₂ (HoldsLines ⟨.default, some "/srv"⟩ rosterWorld)
      ["web", "none", "db"] [["web1", "  web2 ", "", "web\r3"], [], ["", "\tdb"]] :=
    .cons ⟨_, hweb, Text.lined_iff.2 (by decide +kernel)⟩
      (.cons ⟨_, hnone, Text.lined_iff.2 (by decide +kernel)⟩
        (.cons ⟨_, hdb, Text.lined_iff.2 (by decide +kernel)⟩ .nil))
  obtain ⟨hplain, -⟩ :=
    @run_reads_lines_back ⟨.default, some "/srv"⟩ rosterWorld rfl [("strip", .string "off")]
  obtain ⟨hstripped, hcounted⟩ :=
    @run_reads_lines_back ⟨.default, some "/srv"⟩ rosterWorld rfl [("strip", .string "Yes")]
  refine ⟨rfl, hfiles, (hplain _ _ hfiles).1 (by decide +kernel), ?stripped, ?counted⟩
  case stripped =>
    obtain ⟨values, hrun, htrims⟩ := (hstripped _ _ hfiles).2 (by decide +kernel)
    obtain rfl : values = ["web1", "web2", "", "web\r3", "", "db"] :=
      (eq_map_trim_of_trims htrims).trans (by decide +kernel)
    exact hrun
  case counted =>
    obtain ⟨parts, hrun, hparts⟩ := hcounted _ _ (.cons hweb (.cons hnone (.cons hdb .nil)))
    obtain _ | ⟨⟨hlengthWeb, hfreeWeb⟩, _ | ⟨⟨hlengthNone, hfreeNone⟩,
      _ | ⟨⟨hlengthDb, hfreeDb⟩, _ | _⟩⟩⟩ := hparts
    refine ⟨_, _, _, hrun, hlengthWeb.trans (by decide +kernel),
      hlengthNone.trans (by decide +kernel), hlengthDb.trans (by decide +kernel), ?_⟩
    intro value hvalue
    obtain ⟨part, hpart, hmem⟩ := List.mem_flatten.1 hvalue
    simp only [List.mem_cons, List.not_mem_nil, or_false] at hpart
    obtain rfl | rfl | rfl := hpart
    · exact hfreeWeb value hmem
    · exact hfreeNone value hmem
    · exact hfreeDb value hmem

end LookupEngine.Lookup.Lines
