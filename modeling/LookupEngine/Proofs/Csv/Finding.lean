import LookupEngine.Lookup.Table
import LookupEngine.Proofs.Csv.Quoting
import LookupEngine.Proofs.Machine.Action
import LookupEngine.Proofs.Number.Numerals
import LookupEngine.Proofs.Term.Writing
/-!
# Finding a key in a table

What the lookup of a key comes to where its file is a table in quotes: the column of the first
row with that key, or else the default, or else no value.  What stands behind that row in the
file has no part in it, text or not.
-/

namespace LookupEngine.Lookup.Table

/-- What a term comes to in a world. -/
theorem perform_one (context : Context) (options : Options) (term : String) (world : World) :
    (one context options term).perform world =
      match Spec.parse options term with
      | .error failure => (.error failure, world)
      | .ok spec =>
        match find world.disk world.here (context.resolve world.environment spec.file) spec with
        | .error problem =>
          (.error (.sourceUnavailable (context.resolve world.environment spec.file)
            (.table problem)), world)
        | .ok found => (.ok ((found.or spec.default).toList.map .string), world) := by
  rw [one, Action.perform_bind, Action.perform_ofExcept]
  cases Spec.parse options term with
  | error failure => rfl
  | ok spec =>
    dsimp only
    rw [Action.perform_bind_of_ok _ (Action.perform_get world)]
    cases find world.disk world.here (context.resolve world.environment spec.file) spec with
    | error problem => rfl
    | ok found => rfl

theorem perform_run_cons (context : Context) (options : Options) (term : String)
    (terms : List String) {world : World} (hlive : world.isCancelled = false) :
    (run context options (term :: terms)).perform world =
      Action.joined ((one context options term).perform world)
        (run context options terms).perform :=
  Action.perform_collect_cons_of_not World.isCancelled (one context options) hlive term terms

/-- Options that say all there is to say of a term but its key. -/
def optionsFor (file : String) (column : Nat) (delimiter : Char) (default : Option String) :
    Options :=
  ("col", .nat column) :: default.toList.map (fun text => ("default", .string text)) ++
    [("delimiter", .string (String.ofList [delimiter])), ("file", .string file)]

theorem delimiter?_ofList_singleton {c : Char} (h : c.toNat < 0x80) :
    Spec.delimiter? (String.ofList [c]) = some c := by
  by_cases htab : c = '\t'
  · subst htab
    decide
  · have hplain : ["TAB", "tab", "\\t", "\t"].contains (String.ofList [c]) = false := by
      simp [← String.toList_inj, htab]
    rw [Spec.delimiter?, hplain, String.toList_ofList]
    simp [h]

section

variable {key file : String} {column : Nat} {delimiter : Char} {default : Option String}

/-- What the options say is what is searched for. -/
theorem parse_optionsFor (hword : Text.IsWord key.toList) (hpair : ¬ Term.IsPair key.toList)
    (file : String) (hcolumn : (column : Int) ≤ Integer.greatest)
    (hdelimiter : delimiter.toNat < 0x80) (default : Option String) :
    Spec.parse (optionsFor file column delimiter default) key =
      .ok ⟨key, file, column, delimiter, default⟩ := by
  have hfile : (optionsFor file column delimiter default).find? "file" =
      some (.string file) := by
    cases default <;> rfl
  have hdelimited : (optionsFor file column delimiter default).find? "delimiter" =
      some (.string (String.ofList [delimiter])) := by
    cases default <;> rfl
  have hdefault : (optionsFor file column delimiter default).find? "default" =
      default.map Value.string := by
    cases default <;> rfl
  have hnatural : (optionsFor file column delimiter default).natural? "col" = some column :=
    Options.natural?_of_find? rfl hcolumn
  have htext : Options.text? (optionsFor file column delimiter default) "file" = some file := by
    rw [Options.text?, hfile]
    rfl
  have hmark : Options.text? (optionsFor file column delimiter default) "delimiter" =
      some (String.ofList [delimiter]) := by
    rw [Options.text?, hdelimited]
    rfl
  have hmissing : ∀ name, Term.get? ⟨some key, []⟩ name = none := fun _ => rfl
  have htexts : default.map (Value.toText ∘ Value.string) = default := by
    cases default <;> rfl
  rw [Spec.parse, Term.parse_of_isWord hword hpair]
  simp only [hmissing, htext, hmark, hnatural, hdefault, Term.natural?, Term.integer?,
    Spec.delimiterOf, Option.none_or, Option.bind_none, Option.bind_some,
    delimiter?_ofList_singleton hdelimiter, Option.getD_some, Option.map_map, htexts]

/-- A column that is asked for is a word, for it comes from an integer or is the first one. -/
theorem column_le_of_parse {options : Options} {term : String} {spec : Spec}
    (h : Spec.parse options term = .ok spec) : (spec.column : Int) ≤ Integer.greatest := by
  unfold Spec.parse at h
  dsimp only at h
  split at h
  · cases h
  split at h
  · cases h
  cases h
  cases hterm : (Term.parse term).natural? "col" with
  | some n =>
    rw [Option.some_or, Option.getD_some]
    exact Term.natural?_le hterm
  | none =>
    rw [Option.none_or]
    cases hoption : options.natural? "col" with
    | some n => exact Options.natural?_le hoption
    | none => exact Int.le_of_lt (show (1 : Int) < Integer.greatest by decide)

/-- Every key, file, delimiter and default can be asked for, and every column that is a word. -/
theorem exists_parse_iff (hword : Text.IsWord key.toList) (hpair : ¬ Term.IsPair key.toList)
    (file : String) (hdelimiter : delimiter.toNat < 0x80) (default : Option String) :
    (∃ options, Spec.parse options key = .ok ⟨key, file, column, delimiter, default⟩) ↔
      (column : Int) ≤ Integer.greatest :=
  ⟨fun ⟨_, hparse⟩ => column_le_of_parse hparse,
    fun hcolumn => ⟨_, parse_optionsFor hword hpair file hcolumn hdelimiter default⟩⟩

/-- A file with a table in quotes gives the column of the first row with the key, or else the
default, or else no value. -/
theorem perform_one_of_quotedFor {context : Context} {options : Options} {term : String}
    {world : World} {rows : List (List String)} {bytes : Bytes}
    (hparse : Spec.parse options term = .ok ⟨key, file, column, delimiter, default⟩)
    (hdelimiter : Csv.IsDelimiter delimiter) (hrows : ∀ row ∈ rows, row ≠ [])
    (hbytes : Csv.QuotedFor delimiter key rows bytes)
    (hread : world.disk.readBytes world.here (context.resolve world.environment file) =
      .ok bytes) :
    (one context options term).perform world =
      (.ok (((Csv.cell? key column rows).or default).toList.map .string), world) := by
  rw [perform_one, hparse]
  dsimp only
  rw [find, hread]
  dsimp only
  rw [Spec.search, Spec.delimiterByte, Csv.search_of_quotedFor hdelimiter column hrows hbytes]

/-- A table in quotes can be searched for any key, with any delimiter and any column that is a
word.  However a term and the options ask for it, the lookup of the term gives the column of the
first row with the key, or else the default, or else no value, and goes on with the other terms.
Whatever bytes stand behind that row, the answer is the same. -/
theorem run_finds_first_row {rows : List (List String)} (hword : Text.IsWord key.toList)
    (hpair : ¬ Term.IsPair key.toList) (hdelimiter : Csv.IsDelimiter delimiter)
    (hrows : ∀ row ∈ rows, row ≠ []) :
    ((∃ options, Spec.parse options key = .ok ⟨key, file, column, delimiter, default⟩) ↔
      (column : Int) ≤ Integer.greatest) ∧
    ∀ context options term terms world bytes,
      Spec.parse options term = .ok ⟨key, file, column, delimiter, default⟩ →
      world.isCancelled = false → Csv.QuotedFor delimiter key rows bytes →
      world.disk.readBytes world.here (context.resolve world.environment file) = .ok bytes →
      (run context options (term :: terms)).perform world =
        Action.joined (.ok (((Csv.cell? key column rows).or default).toList.map .string), world)
          (run context options terms).perform := by
  refine ⟨exists_parse_iff hword hpair file hdelimiter.ascii default, ?_⟩
  intro context options term terms world bytes hparse hlive hbytes hread
  rw [perform_run_cons context options term terms hlive,
    perform_one_of_quotedFor hparse hdelimiter hrows hbytes hread]

end

def carolRow : List String := ["carol", "30"]

def aliceRow : List String := ["alice", "x;\x22y\n"]

def laterRow : List String := ["alice", "31", ""]

/-- A world with a table that is no text behind its second row. -/
def tornWorld : World :=
  .still ⟨[(["people.csv"], .file (Utf8.encodeChars (Csv.quotedTable ';' [carolRow, aliceRow]) ++
    [0xFF, Csv.quote]) Disk.plainFile)]⟩ ⟨[], none⟩

theorem run_finds_first_row_torn :
    Text.IsWord "alice".toList ∧ ¬ Term.IsPair "alice".toList ∧ Csv.IsDelimiter ';' ∧
      (∀ row ∈ [carolRow, aliceRow, laterRow], row ≠ []) ∧
      (run ⟨.default, none⟩ (optionsFor "people.csv" 1 ';' none) ["alice"]).perform tornWorld =
        (.ok [.string "x;\x22y\n"], tornWorld) := by
  have hword : Text.IsWord "alice".toList := by decide
  have hpair : ¬ Term.IsPair "alice".toList := by decide
  have hdelimiter : Csv.IsDelimiter ';' := ⟨by decide, by decide, by decide, by decide⟩
  have hrows : ∀ row ∈ [carolRow, aliceRow, laterRow], row ≠ [] := by decide
  have hparse : Spec.parse (optionsFor "people.csv" 1 ';' none) "alice" =
      .ok ⟨"alice", "people.csv", 1, ';', none⟩ :=
    parse_optionsFor hword hpair "people.csv" (by decide) hdelimiter.ascii none
  have hbytes : Csv.QuotedFor ';' "alice" [carolRow, aliceRow, laterRow]
      (Utf8.encodeChars (Csv.quotedTable ';' ([carolRow] ++ [aliceRow])) ++ [0xFF, Csv.quote]) :=
    .upTo rfl rfl
  obtain ⟨-, hruns⟩ :=
    @run_finds_first_row "alice" "people.csv" 1 ';' none _ hword hpair hdelimiter hrows
  exact ⟨hword, hpair, hdelimiter, hrows,
    hruns ⟨.default, none⟩ _ "alice" [] tornWorld _ hparse rfl hbytes rfl⟩

end LookupEngine.Lookup.Table
