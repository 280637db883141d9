import LookupEngine.Invocation
import LookupEngine.Proofs.Json.Meaning
import LookupEngine.Proofs.Result
import LookupEngine.Proofs.Term.Shorthand
/-!
# Options as flags

An option passed as `key=value` is cut at its first equals sign, and the value is the JSON value
whose text it is.  Every value but a string and null is written as JSON, so an option with such a
value is what the flag carries, whatever equals signs stand in the value.  Flags reach the options
in order, however they stand among the arguments, and one that is no pair spoils all of them.
-/

namespace LookupEngine.Invocation

/-- The flag that carries a value under a key. -/
def flag (pair : String × Value) : String := pair.1 ++ "=" ++ pair.2.toText

/-- A key and a value that a flag can carry. -/
structure IsCarried (pair : String × Value) : Prop where
  key_ne : pair.1 ≠ ""
  key_mark : '=' ∉ pair.1.toList
  ne_null : pair.2 ≠ .null
  ne_string : ∀ s, pair.2 ≠ .string s
  exact : pair.2.IsExact
  normal : pair.2.IsNormal
  within : pair.2.Within Json.deepest

/-- A text that is no key, equals sign and value. -/
def IsSpoiled (raw : String) : Prop := '=' ∉ raw.toList ∨ raw.toList.head? = some '='

/-- The arguments that pass each flag after a letter of its own. -/
def apart (flags : List String) : List String := flags.flatMap fun raw => ["-o", raw]

/-- The arguments that pass each flag together with the letter. -/
def attached (flags : List String) : List String := flags.map fun raw => "-o" ++ raw

theorem toText_eq_print {v : Value} (hnull : v ≠ .null) (hstring : ∀ s, v ≠ .string s) :
    v.toText = Json.print v := by
  cases v with
  | null => exact absurd rfl hnull
  | string s => exact absurd rfl (hstring s)
  | _ => rfl

theorem toList_flag (pair : String × Value) :
    (flag pair).toList = pair.1.toList ++ '=' :: pair.2.toText.toList := by
  have hmark : "=".toList = ['='] := by decide
  rw [flag, String.toList_append, String.toList_append, hmark, List.append_assoc,
    List.singleton_append]

/-! ## What a flag carries -/

/-- Only the first equals sign cuts, and the key has none. -/
theorem pair_flag {p : String × Value} (h : IsCarried p) : pair (flag p) = .ok p := by
  have hkey : p.1.toList.isEmpty = false := by
    simpa using h.key_ne
  have hvalue : Json.parse? p.2.toText = some p.2 := by
    rw [toText_eq_print h.ne_null h.ne_string]
    exact Json.parse?_print h.exact h.normal h.within
  rw [pair, toList_flag, Text.splitOnce_append h.key_mark]
  simp only [hkey, Bool.false_eq_true, if_false, String.ofList_toList, hvalue, Option.getD_some]

theorem pairs_map_flag {ps : List (String × Value)} (h : ∀ p ∈ ps, IsCarried p) :
    pairs (ps.map flag) = .ok (Entries.ofList ps) := by
  have hread : (ps.map flag).mapM pair = .ok ps := by
    rw [List.mapM_map]
    exact (Result.mapM_eq_ok_map fun p hp => pair_flag (h p hp)).trans (by rw [List.map_id'])
  rw [pairs, hread]
  rfl

theorem exists_pair_eq_error_iff {raw : String} :
    (∃ problem, pair raw = .error problem) ↔ IsSpoiled raw := by
  rw [pair, IsSpoiled]
  cases hsplit : Text.splitOnce '=' raw.toList with
  | none =>
    have hmark : '=' ∉ raw.toList := Text.splitOnce_eq_none_iff.1 hsplit
    simp [hmark]
  | some parts =>
    obtain ⟨key, value⟩ := parts
    have hraw := Text.splitOnce_eq_some hsplit
    have hkey : '=' ∉ key := Text.not_mem_of_splitOnce hsplit
    rw [hraw]
    cases key with
    | nil => simp
    | cons c key =>
      have hc : c ≠ '=' := by
        rintro rfl
        exact hkey List.mem_cons_self
      simp [hc]

theorem exists_pairs_eq_error_iff {raws : List String} :
    (∃ problem, pairs raws = .error problem) ↔ ∃ raw ∈ raws, IsSpoiled raw := by
  rw [pairs]
  simp only [Result.map_eq_error_iff, Result.exists_mapM_eq_error_iff, exists_pair_eq_error_iff]

/-! ## How flags stand among the arguments -/

/-- The flags come to those that an invocation has. -/
def withFlags (flags : List String) (invocation : Invocation) : Invocation :=
  { invocation with options := invocation.options ++ flags }

theorem withFlags_nil (invocation : Invocation) : withFlags [] invocation = invocation := by
  simp only [withFlags, List.append_nil]

theorem withFlags_withFlags (first second : List String) (invocation : Invocation) :
    withFlags second (withFlags first invocation) = withFlags (first ++ second) invocation := by
  simp only [withFlags, List.append_assoc]

namespace Progress

/-- What has been read once the last parameter has its value. -/
def settled (progress : Progress) : Except Stop Invocation :=
  progress.settle.map Progress.invocation

variable {progress next : Progress}

theorem pending_of_assign {param : Param} {value : String}
    (h : progress.assign param value = .ok next) : next.pending = progress.pending := by
  unfold assign at h
  split at h
  · cases h
    rfl
  · cases h
    rfl
  · obtain ⟨workDir, -, rfl⟩ := Result.map_eq_ok_iff.1 h
    rfl
  · obtain ⟨config, -, rfl⟩ := Result.map_eq_ok_iff.1 h
    rfl
  split at h
  · cases h
  split at h
  · cases h
  · cases h
    rfl

theorem pending_of_settle (h : progress.settle = .ok next) : next.pending = none := by
  rw [settle] at h
  split at h
  · next hpending =>
    cases h
    exact hpending
  · cases h
  · exact pending_of_assign h

/-- The arguments in front are read as they are without those behind, unless they end the
parameters. -/
theorem arguments_append {front : List String} (h : "--" ∉ front) (progress : Progress)
    (back : List String) :
    progress.arguments (front ++ back) =
      (progress.arguments front).bind fun next => next.arguments back := by
  induction front generalizing progress with
  | nil => rfl
  | cons text rest ih =>
    have htext : text ≠ "--" := Ne.symm (List.ne_of_not_mem_cons h)
    rw [List.cons_append, arguments, arguments, if_neg htext, if_neg htext]
    cases progress.argument text with
    | error stop => rfl
    | ok next => exact ih (List.not_mem_of_not_mem_cons h) next

/-- A letter asks for the next argument after the parameter before has got its value. -/
theorem argument_letter (progress : Progress) :
    progress.argument "-o" = progress.settle.map fun settled =>
      { settled with pending := some (.option, none) } := by
  show progress.letters ['o'] = _
  rw [letters]
  show progress.take .option none = _
  rw [take]
  cases progress.settle <;> rfl

theorem argument_plain {raw : String} (h : raw.toList.head? ≠ some '-')
    (hpending : progress.pending = some (.option, none)) :
    progress.argument raw = .ok { progress with pending := some (.option, some raw) } := by
  unfold argument
  split
  · next heq =>
    rw [heq] at h
    exact absurd rfl h
  · next heq =>
    rw [heq] at h
    exact absurd rfl h
  · rw [plain, hpending]

theorem argument_attached {raw : String} (hne : raw ≠ "") (h : raw.toList.head? ≠ some '=')
    (progress : Progress) :
    progress.argument ("-o" ++ raw) = progress.settle.map fun settled =>
      { settled with invocation := withFlags [raw] settled.invocation } := by
  have htext : ("-o" ++ raw).toList = '-' :: 'o' :: raw.toList := by
    rw [String.toList_append]
    rfl
  have hletters : progress.letters ('o' :: raw.toList) = progress.take .option (some raw) := by
    have hletter : ofLetter? 'o' = some (.inl .option) := rfl
    rw [letters, hletter]
    dsimp only
    split
    · next hnil => exact absurd (String.toList_eq_nil_iff.1 hnil) hne
    · next heq =>
      rw [heq] at h
      exact absurd rfl h
    · rw [String.ofList_toList]
  unfold argument
  rw [htext]
  show progress.letters ('o' :: raw.toList) = _
  rw [hletters, take]
  cases progress.settle <;> rfl

/-- Flags behind letters of their own are read in order, after whatever has been read before. -/
theorem settled_arguments_apart {flags : List String}
    (h : ∀ raw ∈ flags, raw.toList.head? ≠ some '-') (progress : Progress) :
    (progress.arguments (apart flags)).bind settled = progress.settled.map (withFlags flags) := by
  induction flags generalizing progress with
  | nil =>
    show progress.settled = _
    rw [funext withFlags_nil]
    cases progress.settled <;> rfl
  | cons raw rest ih =>
    obtain ⟨hraw, hrest⟩ := List.forall_mem_cons.1 h
    have hend : raw ≠ "--" := by
      rintro rfl
      exact hraw (by decide)
    show (progress.arguments ("-o" :: raw :: apart rest)).bind settled = _
    rw [arguments, if_neg (by decide), argument_letter, settled]
    cases hsettle : progress.settle with
    | error stop => rfl
    | ok before =>
      have hpending := pending_of_settle hsettle
      simp only [Except.map]
      rw [arguments, if_neg hend, argument_plain hraw rfl]
      simp only [ih hrest]
      -- The flag is settled by whatever comes next.
      show Except.ok (withFlags rest (withFlags [raw] before.invocation)) = _
      rw [withFlags_withFlags, List.singleton_append]

theorem settled_arguments_attached {flags : List String}
    (h : ∀ raw ∈ flags, raw ≠ "" ∧ raw.toList.head? ≠ some '=') (progress : Progress) :
    (progress.arguments (attached flags)).bind settled =
      progress.settled.map (withFlags flags) := by
  induction flags generalizing progress with
  | nil =>
    show progress.settled = _
    rw [funext withFlags_nil]
    cases progress.settled <;> rfl
  | cons raw rest ih =>
    obtain ⟨⟨hne, hraw⟩, hrest⟩ := List.forall_mem_cons.1 h
    have hend : "-o" ++ raw ≠ "--" := by
      intro heq
      have htext := congrArg String.toList heq
      rw [String.toList_append] at htext
      exact absurd (List.cons.inj (List.cons.inj htext).2).1 (by decide)
    show (progress.arguments (("-o" ++ raw) :: attached rest)).bind settled = _
    rw [arguments, if_neg hend, argument_attached hne hraw, settled]
    cases hsettle : progress.settle with
    | error stop => rfl
    | ok before =>
      have hpending := pending_of_settle hsettle
      simp only [Except.map]
      rw [ih hrest, settled, settle]
      simp only [hpending]
      show Except.ok (withFlags rest (withFlags [raw] before.invocation)) = _
      rw [withFlags_withFlags, List.singleton_append]

end Progress

theorem complete_withFlags (environment : Environment) (flags : List String)
    (invocation : Invocation) :
    complete environment (withFlags flags invocation) =
      (complete environment invocation).map (withFlags flags) := by
  simp only [complete, withFlags]
  cases orVariable environment workDirVariable Utf8.decodeLossy invocation.workDir with
  | error stop => rfl
  | ok workDir =>
    cases orVariable environment configVariable filePath invocation.config with
    | error stop => rfl
    | ok config =>
      by_cases hmissing : (invocation.plugin.isNone && !invocation.list) = true
      · simp only [hmissing, if_true, Except.map]
      · simp only [hmissing, Bool.false_eq_true, if_false, Except.map, withFlags]

theorem parse_eq (environment : Environment) (arguments : List String) :
    parse environment arguments =
      ((Progress.start.arguments arguments).bind Progress.settled).bind (complete environment) := by
  rw [parse]
  cases Progress.start.arguments arguments with
  | error stop => rfl
  | ok progress =>
    show _ = progress.settled.bind (complete environment)
    rw [Progress.settled]
    dsimp only
    cases progress.settle <;> rfl

/-- Arguments that only bring flags bring them to whatever the arguments in front say. -/
theorem parse_append {front back flags : List String} (hfront : "--" ∉ front)
    (hback : ∀ progress : Progress,
      (progress.arguments back).bind Progress.settled = progress.settled.map (withFlags flags))
    (environment : Environment) :
    parse environment (front ++ back) = (parse environment front).map (withFlags flags) := by
  rw [parse_eq, parse_eq, Progress.arguments_append hfront]
  cases Progress.start.arguments front with
  | error stop => rfl
  | ok progress =>
    show ((progress.arguments back).bind Progress.settled).bind (complete environment) =
      (progress.settled.bind (complete environment)).map (withFlags flags)
    rw [hback]
    cases progress.settled with
    | error stop => rfl
    | ok invocation => exact complete_withFlags environment flags invocation

theorem IsCarried.head?_flag {p : String × Value} (h : IsCarried p) :
    (flag p).toList.head? = p.1.toList.head? := by
  rw [toList_flag]
  cases hkey : p.1.toList with
  | nil => exact absurd (String.toList_eq_nil_iff.1 hkey) h.key_ne
  | cons c rest => rfl

theorem IsCarried.flag_attachable {p : String × Value} (h : IsCarried p) :
    flag p ≠ "" ∧ (flag p).toList.head? ≠ some '=' := by
  constructor
  · intro hempty
    have htext := congrArg String.toList hempty
    rw [toList_flag] at htext
    exact absurd htext (by simp)
  · rw [h.head?_flag]
    exact fun hhead => h.key_mark (List.mem_of_mem_head? hhead)

/-- Pairs that are passed as flags come back as the map that gives each key its last value.  The
flags may follow any arguments, each with a letter of its own or attached to it, where the first way
leaves no key that starts with a hyphen.  Of any flags, one that has no equals sign or starts with
one spoils the options, and nothing else does. -/
theorem flags_carry_options {ps : List (String × Value)} (h : ∀ p ∈ ps, IsCarried p) :
    (∃ options : Options, options.Sorted ∧
      (∀ key, options.find? key = Entries.lastValue ps key) ∧
      ∀ invocation : Invocation, invocation.options = ps.map flag →
        invocation.decodedOptions = .ok options) ∧
    (∀ (environment : Environment) (front : List String), "--" ∉ front →
      parse environment (front ++ attached (ps.map flag)) =
        (parse environment front).map (withFlags (ps.map flag)) ∧
      ((∀ p ∈ ps, p.1.toList.head? ≠ some '-') →
        parse environment (front ++ apart (ps.map flag)) =
          (parse environment front).map (withFlags (ps.map flag)))) ∧
    ∀ invocation : Invocation, (∃ problem, invocation.decodedOptions = .error problem) ↔
      ∃ raw ∈ invocation.options, IsSpoiled raw := by
  refine ⟨⟨.ofList ps, Entries.sorted_ofList ps, Entries.find?_ofList ps, ?_⟩, ?_, ?_⟩
  · intro invocation hoptions
    rw [decodedOptions, hoptions]
    exact pairs_map_flag h
  · intro environment front hfront
    refine ⟨parse_append hfront (Progress.settled_arguments_attached ?_) environment, fun hkeys =>
      parse_append hfront (Progress.settled_arguments_apart ?_) environment⟩
    · exact List.forall_mem_map.2 fun p hp => (h p hp).flag_attachable
    · refine List.forall_mem_map.2 fun p hp => ?_
      rw [(h p hp).head?_flag]
      exact hkeys p hp
  · exact fun invocation => exists_pairs_eq_error_iff

/-- Two values under one key, and between them a value with equals signs in its text. -/
def limits : List (String × Value) :=
  [("limit", .int 5), ("headers", .object [("x=y", .string "1=\"2\"")]),
    ("limit", .array [.bool true, .null])]

theorem isCarried_limits : ∀ p ∈ limits, IsCarried p := by
  have hnumber : IsCarried ("limit", .int 5) :=
    ⟨by decide, by decide, Value.noConfusion, fun _ => Value.noConfusion, .integer 5,
      .integer (by decide), .number _ _⟩
  have hobject : IsCarried ("headers", .object [("x=y", .string "1=\"2\"")]) :=
    ⟨by decide, by decide, Value.noConfusion, fun _ => Value.noConfusion,
      .object (List.forall_mem_singleton.2 (.string _)),
      .object (List.pairwise_singleton _ _) (List.forall_mem_singleton.2 (.string _)),
      .object (List.forall_mem_singleton.2 (.string _ _))⟩
  have harray : IsCarried ("limit", .array [.bool true, .null]) :=
    ⟨by decide, by decide, Value.noConfusion, fun _ => Value.noConfusion,
      .array (List.forall_mem_cons.2 ⟨.bool true, List.forall_mem_singleton.2 .null⟩),
      .array (List.forall_mem_cons.2 ⟨.bool true, List.forall_mem_singleton.2 .null⟩),
      .array (List.forall_mem_cons.2 ⟨.bool _ true, List.forall_mem_singleton.2 (.null _)⟩)⟩
  exact List.forall_mem_cons.2
    ⟨hnumber, List.forall_mem_cons.2 ⟨hobject, List.forall_mem_singleton.2 harray⟩⟩

/-- The last value of the limit is the one that counts, and a flag without a key spoils it all. -/
theorem flags_carry_options_limits :
    (∃ options : Options, options.find? "limit" = some (.array [.bool true, .null]) ∧
      options.find? "headers" = some (.object [("x=y", .string "1=\"2\"")]) ∧
      ({ empty with options := limits.map flag } : Invocation).decodedOptions = .ok options) ∧
    ∃ problem, ({ empty with options := limits.map flag ++ ["=5"] } : Invocation).decodedOptions =
      .error problem := by
  obtain ⟨⟨options, -, hfind, hdecoded⟩, -, hspoiled⟩ := flags_carry_options isCarried_limits
  refine ⟨⟨options, ?_, ?_, hdecoded _ rfl⟩, (hspoiled _).2 ⟨"=5", ?_, .inr (by decide)⟩⟩
  · rw [hfind]
    rfl
  · rw [hfind]
    rfl
  · exact List.mem_append_right _ List.mem_cons_self

end LookupEngine.Invocation
