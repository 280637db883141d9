import LookupEngine.Glob
import LookupEngine.Proofs.Path.Spelled
/-!
# What patterns match

A pattern matches a name if its tokens can be laid along the characters of it.  The components of
a pattern match the names of a path one by one, but for two stars, which stand for any names, and
an empty component, which stands for none.
-/

namespace LookupEngine.Glob

/-- The tokens of the pattern stand for the characters in order. -/
inductive Matches : Pattern → List Char → Prop
  | nil : Matches [] []
  | char {token : Token} {rest : Pattern} {c : Char} {cs : List Char}
      (hchar : token.matchesChar c = true) (hrest : Matches rest cs) :
    Matches (token :: rest) (c :: cs)
  | sequence {rest : Pattern} {cs : List Char} (front : List Char) (hrest : Matches rest cs) :
    Matches (.anySequence :: rest) (front ++ cs)

theorem matches_of_matchesName {pattern : Pattern} {cs : List Char}
    (h : pattern.matchesName cs = true) : Matches pattern cs := by
  induction pattern, cs using Pattern.matchesName.induct with
  | case1 => exact .nil
  | case2 c cs =>
    rw [Pattern.matchesName] at h
    cases h
  | case3 rest ih =>
    rw [Pattern.matchesName] at h
    exact .sequence [] (ih h)
  | case4 rest c cs ihStop ihMore =>
    rw [Pattern.matchesName, Bool.or_eq_true] at h
    rcases h with hstop | hmore
    · exact .sequence [] (ihStop hstop)
    · cases ihMore hmore with
      | char hchar _ => cases hchar
      | sequence front hrest => exact .sequence (c :: front) hrest
  | case5 token rest htoken =>
    rw [Pattern.matchesName] at h
    · cases h
    · exact htoken
  | case6 token rest c cs htoken ih =>
    rw [Pattern.matchesName] at h
    · rw [Bool.and_eq_true] at h
      exact .char h.1 (ih h.2)
    · exact htoken

theorem matchesName_of_matches {pattern : Pattern} {cs : List Char} (h : Matches pattern cs) :
    pattern.matchesName cs = true := by
  induction h with
  | nil => rw [Pattern.matchesName]
  | @char token rest c cs hchar _ ih =>
    rw [Pattern.matchesName]
    · rw [hchar, ih, Bool.and_self]
    · rintro rfl
      cases hchar
  | @sequence rest cs front _ ih =>
    induction front with
    | nil =>
      cases cs with
      | nil => rwa [List.nil_append, Pattern.matchesName]
      | cons c cs => rw [List.nil_append, Pattern.matchesName, ih, Bool.true_or]
    | cons c front ihFront => rw [List.cons_append, Pattern.matchesName, ihFront, Bool.or_true]

theorem matchesName_iff {pattern : Pattern} {cs : List Char} :
    pattern.matchesName cs = true ↔ Matches pattern cs :=
  ⟨matches_of_matchesName, matchesName_of_matches⟩

/-- Two stars stand for names and not for characters. -/
theorem Matches.isRecursive_eq_false {pattern : Pattern} {cs : List Char}
    (h : Matches pattern cs) : pattern.isRecursive = false := by
  induction h with
  | nil => rfl
  | @char token rest c cs hchar _ ih =>
    have htoken : token ≠ .anyDirectories := by
      rintro rfl
      cases hchar
    rw [Pattern.isRecursive, List.contains_cons, beq_false_of_ne (Ne.symm htoken), Bool.false_or]
    exact ih
  | sequence _ _ ih => exact ih

/-! ## Patterns without wildcards -/

/-- The pattern of a text without wildcards. -/
def literals (cs : List Char) : Pattern := cs.map Token.literal

theorem literal?_literals (cs : List Char) : Pattern.literal? (literals cs) = some cs := by
  induction cs with
  | nil => rfl
  | cons c cs ih =>
    rw [literals] at ih ⊢
    rw [List.map_cons, Pattern.literal?, ih]
    rfl

theorem eq_literals_of_literal? {pattern : Pattern} {cs : List Char}
    (h : pattern.literal? = some cs) : pattern = literals cs := by
  induction pattern generalizing cs with
  | nil =>
    obtain rfl := Option.some.inj h
    rfl
  | cons token rest ih =>
    cases token with
    | literal c =>
      rw [Pattern.literal?, Option.map_eq_some_iff] at h
      obtain ⟨tail, htail, rfl⟩ := h
      rw [ih htail]
      rfl
    | _ => cases h

theorem matches_literals_iff {own cs : List Char} : Matches (literals own) cs ↔ cs = own := by
  constructor
  · intro h
    induction own generalizing cs with
    | nil =>
      cases h
      rfl
    | cons c own ih =>
      cases h with
      | char hchar hrest => rw [ih hrest, of_decide_eq_true hchar]
  · rintro rfl
    induction cs with
    | nil => exact .nil
    | cons c cs ih => exact .char (decide_eq_true rfl) ih

theorem isRecursive_literals (cs : List Char) : Pattern.isRecursive (literals cs) = false :=
  (matches_literals_iff.2 rfl).isRecursive_eq_false

/-! ## Components and names -/

/-- The components match the names of a path.  The names `.` and `..` are matched only by a
component with a leading dot. -/
inductive MatchesPath : List Pattern → List (List Char) → Prop
  | nil : MatchesPath [] []
  | empty {rest : List Pattern} {names : List (List Char)} (hrest : MatchesPath rest names) :
    MatchesPath ([] :: rest) names
  | name {pattern : Pattern} {rest : List Pattern} {name : List Char} {names : List (List Char)}
      (hne : name ≠ []) (hmatches : Matches pattern name)
      (hdots : name = ['.'] ∨ name = ['.', '.'] → pattern.head? = some (.literal '.'))
      (hrest : MatchesPath rest names) :
    MatchesPath (pattern :: rest) (name :: names)
  | directories {pattern : Pattern} {rest : List Pattern} {names : List (List Char)}
      (front : List (List Char)) (hpattern : pattern.isRecursive = true)
      (hfront : ∀ name ∈ front, name ≠ [] ∧ name ≠ ['.'] ∧ name ≠ ['.', '.'])
      (hrest : MatchesPath rest names) :
    MatchesPath (pattern :: rest) (front ++ names)

/-- The directory above is passed only where a component begins with a dot and matches it. -/
theorem MatchesPath.of_mem_up {patterns : List Pattern} {names : List (List Char)}
    (h : MatchesPath patterns names) (hup : ['.', '.'] ∈ names) :
    ∃ pattern ∈ patterns, pattern.head? = some (.literal '.') ∧ Matches pattern ['.', '.'] := by
  induction h with
  | nil => cases hup
  | empty _ ih =>
    obtain ⟨pattern, hmem, hpattern⟩ := ih hup
    exact ⟨pattern, List.mem_cons_of_mem _ hmem, hpattern⟩
  | @name pattern rest name names _ hmatches hdots _ ih =>
    rw [List.mem_cons] at hup
    rcases hup with rfl | hup
    · exact ⟨pattern, List.mem_cons_self, hdots (.inr rfl), hmatches⟩
    · obtain ⟨pattern, hmem, hpattern⟩ := ih hup
      exact ⟨pattern, List.mem_cons_of_mem _ hmem, hpattern⟩
  | directories front _ hfront _ ih =>
    rw [List.mem_append] at hup
    rcases hup with hup | hup
    · exact absurd rfl (hfront _ hup).2.2
    · obtain ⟨pattern, hmem, hpattern⟩ := ih hup
      exact ⟨pattern, List.mem_cons_of_mem _ hmem, hpattern⟩

theorem matchesPath_literals_cons {own : List Char} {rest : List Pattern}
    {names : List (List Char)} (h : MatchesPath (literals own :: rest) names) :
    ∃ back, names = [own].filter (!·.isEmpty) ++ back ∧ MatchesPath rest back := by
  generalize hpattern : literals own :: rest = patterns at h
  cases h with
  | nil => cases hpattern
  | empty hrest =>
    obtain ⟨hown, rfl⟩ := List.cons.inj hpattern
    obtain rfl : own = [] := List.map_eq_nil_iff.1 hown
    exact ⟨names, rfl, hrest⟩
  | @name pattern _ name back hne hmatches hdots hrest =>
    obtain ⟨rfl, rfl⟩ := List.cons.inj hpattern
    obtain rfl := matches_literals_iff.1 hmatches
    refine ⟨back, ?_, hrest⟩
    rw [List.filter_cons_of_pos (by simpa using hne)]
    rfl
  | directories front hrecursive _ _ =>
    obtain ⟨rfl, rfl⟩ := List.cons.inj hpattern
    rw [isRecursive_literals] at hrecursive
    cases hrecursive

/-- Components without wildcards match their own texts, and the empty ones add nothing. -/
theorem MatchesPath.of_literals {plain : List (List Char)} {patterns : List Pattern}
    {names : List (List Char)} (h : MatchesPath (plain.map literals ++ patterns) names) :
    ∃ back, names = plain.filter (!·.isEmpty) ++ back ∧ MatchesPath patterns back := by
  induction plain generalizing names with
  | nil => exact ⟨names, rfl, h⟩
  | cons own plain ih =>
    obtain ⟨tail, rfl, htail⟩ := matchesPath_literals_cons h
    obtain ⟨back, rfl, hback⟩ := ih htail
    refine ⟨back, ?_, hback⟩
    rw [← List.append_assoc, ← List.filter_append, List.singleton_append]

/-- What follows two stars may also be matched after the stars that follow them. -/
theorem MatchesPath.of_afterDirectories {rest : List Pattern} {names : List (List Char)}
    (h : MatchesPath (afterDirectories rest) names) : MatchesPath rest names := by
  induction rest with
  | nil => exact h
  | cons pattern rest ih =>
    rw [afterDirectories] at h
    split at h
    · next hrecursive => exact .directories [] hrecursive (List.forall_mem_nil _) (ih h)
    · exact h

theorem MatchesPath.directories_inv {pattern : Pattern} {rest : List Pattern}
    {names : List (List Char)} (hrecursive : pattern.isRecursive = true)
    (h : MatchesPath (pattern :: rest) names) :
    ∃ front back, names = front ++ back ∧
      (∀ name ∈ front, name ≠ [] ∧ name ≠ ['.'] ∧ name ≠ ['.', '.']) ∧ MatchesPath rest back := by
  cases h with
  | empty hrest => exact ⟨[], names, rfl, List.forall_mem_nil _, hrest⟩
  | name _ hmatches _ _ =>
    rw [hmatches.isRecursive_eq_false] at hrecursive
    cases hrecursive
  | directories front _ hfront hrest => exact ⟨front, _, rfl, hfront, hrest⟩

/-- Two stars may stand for one name more. -/
theorem MatchesPath.directories_cons {pattern : Pattern} {rest : List Pattern} {name : List Char}
    {names : List (List Char)} (hrecursive : pattern.isRecursive = true)
    (hname : name ≠ [] ∧ name ≠ ['.'] ∧ name ≠ ['.', '.'])
    (h : MatchesPath (pattern :: afterDirectories rest) names) :
    MatchesPath (pattern :: rest) (name :: names) := by
  obtain ⟨front, back, rfl, hfront, hback⟩ := h.directories_inv hrecursive
  exact .directories (name :: front) hrecursive (List.forall_mem_cons.2 ⟨hname, hfront⟩)
    hback.of_afterDirectories

/-! ## Reading plain text -/

/-- The character stands for itself wherever it is in a pattern. -/
def IsPlain (c : Char) : Prop := c ≠ '*' ∧ c ≠ '?' ∧ c ≠ '['

instance (c : Char) : Decidable (IsPlain c) := inferInstanceAs (Decidable (_ ∧ _))

theorem tokens_plain {total : Nat} {before : Option Char} {done : List Token} {c : Char}
    {rest : List Char} (h : IsPlain c) :
    tokens total before done (c :: rest) = tokens total (some c) (.literal c :: done) rest := by
  obtain ⟨hstar, hquestion, hbracket⟩ := h
  rw [tokens]
  all_goals
    intros
    first
    | exact hquestion ‹_›
    | exact hbracket ‹_›
    | exact hstar ‹_›

theorem tokens_append_plain {front : List Char} (h : ∀ c ∈ front, IsPlain c) {total : Nat}
    {before : Option Char} {done : List Token} {rest : List Char} :
    tokens total before done (front ++ rest) =
      tokens total (front.getLast?.or before) ((literals front).reverse ++ done) rest := by
  induction front generalizing before done with
  | nil => rfl
  | cons c front ih =>
    obtain ⟨hc, hfront⟩ := List.forall_mem_cons.1 h
    have hlast : (c :: front).getLast?.or before = front.getLast?.or (some c) := by
      rw [List.getLast?_cons]
      cases front.getLast? <;> rfl
    have hdone : (literals (c :: front)).reverse ++ done =
        (literals front).reverse ++ .literal c :: done := by
      simp only [literals, List.map_cons, List.reverse_cons, List.append_assoc,
        List.singleton_append]
    rw [List.cons_append, tokens_plain hc, ih hfront, hlast, hdone]

/-- Text without wildcards is read as it stands. -/
theorem parse_plain {cs : List Char} (h : ∀ c ∈ cs, IsPlain c) :
    Pattern.parse cs = .ok (literals cs) := by
  have hread := @tokens_append_plain cs h cs.length none [] []
  rw [List.append_nil] at hread
  rw [Pattern.parse, hread, tokens]
  simp

theorem tokens_brackets {total : Nat} {before : Option Char} {done : List Token}
    {rest after : List Char} {token : Token} (h : brackets? rest = some (token, after)) :
    tokens total before done ('[' :: rest) = tokens total (some ']') (token :: done) after := by
  rw [tokens]
  split
  · next heq =>
    obtain ⟨rfl, rfl⟩ := Prod.mk.inj (Option.some.inj (h.symm.trans heq))
    rfl
  · next heq =>
    rw [h] at heq
    cases heq

theorem tokens_open_bracket {total : Nat} {before : Option Char} {done : List Token}
    {rest : List Char} (h : brackets? rest = none) :
    tokens total before done ('[' :: rest) =
      .error (.brackets (total - ('[' :: rest).length)) := by
  rw [tokens]
  split
  · next heq =>
    rw [h] at heq
    cases heq
  · rfl

/-- Whether a text can be read depends on what is in front of it only as far as two stars may
stand there. -/
theorem exists_tokens_of_startsComponent {total total' : Nat} {before before' : Option Char}
    {done done' : List Token} {cs : List Char}
    (hstarts : startsComponent before = startsComponent before')
    (h : ∃ pattern, tokens total before done cs = .ok pattern) :
    ∃ pattern, tokens total' before' done' cs = .ok pattern := by
  induction before, done, cs using tokens.induct total generalizing before' done' with
  | case1 before done => exact ⟨_, by rw [tokens]⟩
  | case2 before done rest ih =>
    rw [tokens] at h ⊢
    exact ih rfl h
  | case3 before done tail =>
    rw [tokens] at h
    obtain ⟨_, h⟩ := h
    cases h
  | case4 before done rest hbefore ih =>
    rw [tokens, if_pos hbefore] at h
    rw [tokens, if_pos (hstarts ▸ hbefore)]
    exact ih rfl h
  | case5 before done rest hbefore =>
    rw [tokens, if_neg hbefore] at h
    obtain ⟨_, h⟩ := h
    cases h
  | case6 before done hbefore =>
    rw [tokens, if_pos (hstarts ▸ hbefore)]
    exact ⟨_, rfl⟩
  | case7 before done hbefore =>
    rw [tokens, if_neg hbefore] at h
    obtain ⟨_, h⟩ := h
    cases h
  | case8 before done tail hstar hslash hnil =>
    rw [tokens] at h
    · obtain ⟨_, h⟩ := h
      cases h
    all_goals assumption
  | case9 before done rest hthree hslash htwo hstar ih =>
    rw [tokens] at h ⊢
    · exact ih rfl h
    all_goals assumption
  | case10 before done rest token after hbrackets _ ih =>
    rw [tokens_brackets hbrackets] at h ⊢
    exact ih rfl h
  | case11 before done rest hbrackets =>
    obtain ⟨_, h⟩ := h
    rw [tokens_open_bracket hbrackets] at h
    cases h
  | case12 before done c rest hquestion hthree hslash htwo hstars hstar hbracket ih =>
    have hplain : IsPlain c := ⟨hstar, hquestion, hbracket⟩
    rw [tokens_plain hplain] at h ⊢
    exact ih rfl h

theorem exists_of_brackets? {cs rest : List Char} {token : Token}
    (h : brackets? cs = some (token, rest)) :
    (∀ c, token ≠ .literal c) ∧ ∀ c ∈ rest, c ∈ cs := by
  unfold brackets? at h
  split at h
  · obtain ⟨⟨inside, after⟩, hsplit, heq⟩ := Option.map_eq_some_iff.1 h
    obtain ⟨rfl, rfl⟩ := Prod.mk.inj heq
    rw [Text.splitOnce_eq_some hsplit]
    exact ⟨fun _ => Token.noConfusion, fun c hc => by simp [hc]⟩
  · split at h
    · cases h
    · obtain ⟨⟨inside, after⟩, hsplit, heq⟩ := Option.map_eq_some_iff.1 h
      obtain ⟨rfl, rfl⟩ := Prod.mk.inj heq
      rw [Text.splitOnce_eq_some hsplit]
      exact ⟨fun _ => Token.noConfusion, fun c hc => by simp [hc]⟩
  · cases h

theorem literal_mem_of_push {done : List Token} {c : Char}
    (h : .literal c ∈ push done .anyDirectories) : .literal c ∈ done := by
  rw [push] at h
  split at h
  · exact h
  · exact (List.mem_cons.1 h).resolve_left Token.noConfusion

/-- A character that stands for itself in a pattern is one of the text. -/
theorem mem_of_literal_mem_tokens {total : Nat} {before : Option Char} {done : List Token}
    {cs : List Char} {pattern : Pattern} {c : Char}
    (h : tokens total before done cs = .ok pattern) (hmem : .literal c ∈ pattern) :
    .literal c ∈ done ∨ c ∈ cs := by
  induction before, done, cs using tokens.induct total with
  | case1 before done =>
    rw [tokens] at h
    obtain rfl := Except.ok.inj h
    exact .inl (List.mem_reverse.1 hmem)
  | case2 before done rest ih =>
    rw [tokens] at h
    rcases ih h with hdone | hrest
    · exact .inl ((List.mem_cons.1 hdone).resolve_left Token.noConfusion)
    · exact .inr (List.mem_cons_of_mem _ hrest)
  | case3 before done tail =>
    rw [tokens] at h
    cases h
  | case4 before done rest hbefore ih =>
    rw [tokens, if_pos hbefore] at h
    rcases ih h with hdone | hrest
    · exact .inl (literal_mem_of_push hdone)
    · exact .inr (by simp [hrest])
  | case5 before done rest hbefore =>
    rw [tokens, if_neg hbefore] at h
    cases h
  | case6 before done hbefore =>
    rw [tokens, if_pos hbefore] at h
    obtain rfl := Except.ok.inj h
    exact .inl (literal_mem_of_push (List.mem_reverse.1 hmem))
  | case7 before done hbefore =>
    rw [tokens, if_neg hbefore] at h
    cases h
  | case8 before done tail hstar hslash hnil =>
    rw [tokens] at h
    · cases h
    all_goals assumption
  | case9 before done rest hthree hslash htwo hstar ih =>
    rw [tokens] at h
    · rcases ih h with hdone | hrest
      · exact .inl ((List.mem_cons.1 hdone).resolve_left Token.noConfusion)
      · exact .inr (List.mem_cons_of_mem _ hrest)
    all_goals assumption
  | case10 before done rest token after hbrackets _ ih =>
    rw [tokens_brackets hbrackets] at h
    obtain ⟨htoken, hafter⟩ := exists_of_brackets? hbrackets
    rcases ih h with hdone | hrest
    · exact .inl ((List.mem_cons.1 hdone).resolve_left fun heq => htoken c heq.symm)
    · exact .inr (List.mem_cons_of_mem _ (hafter c hrest))
  | case11 before done rest hbrackets =>
    rw [tokens_open_bracket hbrackets] at h
    cases h
  | case12 before done own rest hquestion hthree hslash htwo hstars hstar hbracket ih =>
    rw [tokens_plain ⟨hstar, hquestion, hbracket⟩] at h
    rcases ih h with hdone | hrest
    · rcases List.mem_cons.1 hdone with heq | hdone
      · exact .inr (by simp [Token.literal.inj heq])
      · exact .inl hdone
    · exact .inr (List.mem_cons_of_mem _ hrest)

theorem mem_of_literal_mem_parse {cs : List Char} {pattern : Pattern} {c : Char}
    (h : Pattern.parse cs = .ok pattern) (hmem : .literal c ∈ pattern) : c ∈ cs := by
  rcases mem_of_literal_mem_tokens h hmem with hdone | hcs
  · cases hdone
  · exact hcs

end LookupEngine.Glob
