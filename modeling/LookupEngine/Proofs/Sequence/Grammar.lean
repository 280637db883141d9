import LookupEngine.Proofs.Result
import LookupEngine.Proofs.Sequence.Directives
/-!
# The grammar of templates

A template is literal text, in which a percent sign is written twice, around one directive.  A
percent sign begins either a pair of them or a directive, so a text is cut into parts in one way
only.  The reader accepts exactly the texts of the grammar, and the value that is to be written has
no part in it.
-/

namespace LookupEngine.Sequence

open Result

namespace Template

/-- Literal text as a template writes it. -/
def escape (literal : List Char) : List Char :=
  literal.flatMap fun c => if c = '%' then ['%', '%'] else [c]

/-- The texts that are written from some parts in order. -/
inductive Assembles : List Char → List Piece → Prop
  | nil : Assembles [] []
  | char {c : Char} {cs : List Char} {parts : List Piece} (hc : c ≠ '%')
      (hrest : Assembles cs parts) : Assembles (c :: cs) (.literal c :: parts)
  | percent {cs : List Char} {parts : List Piece} (hrest : Assembles cs parts) :
      Assembles ('%' :: '%' :: cs) (.literal '%' :: parts)
  | field {wording : Wording} {directive : Directive} {cs : List Char} {parts : List Piece}
      (hdirective : wording.Denotes directive) (hrest : Assembles cs parts) :
      Assembles (wording.text ++ cs) (.field directive :: parts)

/-- The parts of a template in order. -/
def parts (template : Template) : List Piece :=
  template.before.map .literal ++ .field template.directive :: template.after.map .literal

/-- Literal text around one directive. -/
def IsTemplate (cs : List Char) : Prop :=
  ∃ (before : List Char) (wording : Wording) (after : List Char), wording.IsValid ∧
    cs = escape before ++ wording.text ++ escape after

/-- What a text makes of a value. -/
def filled (text : String) (value : Int) : Except TemplateProblem String :=
  (parse text).map fun template => template.render value

end Template

namespace Template

theorem pieces_nil : pieces [] = .ok [] := by rw [pieces]

theorem pieces_char {c : Char} (hc : c ≠ '%') (rest : List Char) :
    pieces (c :: rest) = (pieces rest).map (.literal c :: ·) := by
  rw [pieces]
  · exact fun _ heq _ => hc heq
  · exact hc

theorem pieces_percent (rest : List Char) :
    pieces ('%' :: '%' :: rest) = (pieces rest).map (.literal '%' :: ·) := by rw [pieces]

theorem pieces_directive {rest left : List Char} {directive : Directive}
    (hrest : ∀ tail, rest = '%' :: tail → False)
    (h : Directive.read rest = .ok (directive, left)) :
    pieces ('%' :: rest) = (pieces left).map (.field directive :: ·) := by
  rw [pieces]
  · split
    · next hread =>
      rw [h] at hread
      cases hread
    · next hread =>
      rw [h] at hread
      cases hread
      rfl
  · exact hrest

theorem pieces_problem {rest : List Char} {problem : TemplateProblem}
    (hrest : ∀ tail, rest = '%' :: tail → False) (h : Directive.read rest = .error problem) :
    pieces ('%' :: rest) = .error problem := by
  rw [pieces]
  · split
    · next hread =>
      rw [h] at hread
      cases hread
      rfl
    · next hread =>
      rw [h] at hread
      cases hread
  · exact hrest

/-- What stands after the percent sign of a directive is no percent sign. -/
theorem body_append_ne_percent {wording : Wording} (h : wording.IsValid) (left tail : List Char) :
    wording.body ++ left ≠ '%' :: tail := by
  intro heq
  have hmem : '%' ∈ wording.body := by
    have hne : wording.body ≠ [] := by simp [Wording.body]
    have hhead := congrArg List.head? heq
    rw [List.head?_append_of_ne_nil _ hne] at hhead
    exact List.mem_of_mem_head? hhead
  rw [Wording.body, List.mem_append, List.mem_append, List.mem_singleton] at hmem
  rcases hmem with hflag | hdigit | hconversion
  · exact absurd (h.flags _ hflag) (by decide)
  · exact absurd (h.width _ hdigit) (by decide)
  · exact absurd (hconversion ▸ h.conversion) (by decide)

theorem pieces_eq_ok_iff {cs : List Char} {parts : List Piece} :
    pieces cs = .ok parts ↔ Assembles cs parts := by
  constructor
  · intro h
    induction cs using pieces.induct generalizing parts with
    | case1 =>
      rw [pieces_nil] at h
      cases h
      exact .nil
    | case2 rest ih =>
      rw [pieces_percent] at h
      obtain ⟨others, hothers, rfl⟩ := map_eq_ok_iff.1 h
      exact .percent (ih hothers)
    | case3 rest hrest problem hread =>
      rw [pieces_problem hrest hread] at h
      cases h
    | case4 rest hrest directive left hread _ ih =>
      rw [pieces_directive hrest hread] at h
      obtain ⟨others, hothers, rfl⟩ := map_eq_ok_iff.1 h
      obtain ⟨wording, hdenotes, rfl⟩ := Directive.read_eq_ok_iff.1 hread
      exact .field hdenotes (ih hothers)
    | case5 c rest _ hc ih =>
      rw [pieces_char hc] at h
      obtain ⟨others, hothers, rfl⟩ := map_eq_ok_iff.1 h
      exact .char hc (ih hothers)
  · intro h
    induction h with
    | nil => exact pieces_nil
    | char hc hrest ih =>
      rw [pieces_char hc, ih]
      rfl
    | percent hrest ih =>
      rw [pieces_percent, ih]
      rfl
    | @field wording directive cs parts hdenotes hrest ih =>
      have hread : Directive.read (wording.body ++ cs) = .ok (directive, cs) :=
        Directive.read_eq_ok_iff.2 ⟨wording, hdenotes, rfl⟩
      rw [Wording.text, List.cons_append,
        pieces_directive (body_append_ne_percent hdenotes.valid cs) hread, ih]
      rfl

theorem escape_cons (c : Char) (literal : List Char) :
    escape (c :: literal) = (if c = '%' then ['%', '%'] else [c]) ++ escape literal :=
  List.flatMap_cons

/-- Literal text is written in one way only. -/
theorem assembles_literals_iff {cs literal : List Char} :
    Assembles cs (literal.map .literal) ↔ cs = escape literal := by
  constructor
  · intro h
    induction literal generalizing cs with
    | nil =>
      cases h
      rfl
    | cons c literal ih =>
      rw [List.map_cons] at h
      cases h with
      | char hc hrest => rw [escape_cons, if_neg hc, ih hrest, List.singleton_append]
      | percent hrest => rw [escape_cons, if_pos rfl, ih hrest, List.cons_append,
          List.singleton_append]
  · rintro rfl
    induction literal with
    | nil => exact .nil
    | cons c literal ih =>
      rw [escape_cons]
      split
      · next hc =>
        subst hc
        exact .percent ih
      · next hc => exact .char hc ih

theorem Assembles.append {before after : List Char} {parts others : List Piece}
    (hbefore : Assembles before parts) (hafter : Assembles after others) :
    Assembles (before ++ after) (parts ++ others) := by
  induction hbefore with
  | nil => exact hafter
  | char hc _ ih => exact .char hc ih
  | percent _ ih => exact .percent ih
  | field hdenotes _ ih =>
    rw [List.append_assoc]
    exact .field hdenotes ih

theorem assembles_append_iff {cs : List Char} {parts others : List Piece} :
    Assembles cs (parts ++ others) ↔
      ∃ before after, Assembles before parts ∧ Assembles after others ∧ cs = before ++ after := by
  constructor
  · intro h
    induction parts generalizing cs with
    | nil => exact ⟨[], cs, .nil, h, rfl⟩
    | cons part parts ih =>
      rw [List.cons_append] at h
      cases h with
      | char hc hrest =>
        obtain ⟨before, after, hbefore, hafter, rfl⟩ := ih hrest
        exact ⟨_, after, .char hc hbefore, hafter, rfl⟩
      | percent hrest =>
        obtain ⟨before, after, hbefore, hafter, rfl⟩ := ih hrest
        exact ⟨_, after, .percent hbefore, hafter, rfl⟩
      | field hdenotes hrest =>
        obtain ⟨before, after, hbefore, hafter, rfl⟩ := ih hrest
        exact ⟨_, after, .field hdenotes hbefore, hafter, (List.append_assoc ..).symm⟩
  · rintro ⟨before, after, hbefore, hafter, rfl⟩
    exact hbefore.append hafter

theorem assembles_field_iff {cs : List Char} {directive : Directive} {parts : List Piece} :
    Assembles cs (.field directive :: parts) ↔
      ∃ (wording : Wording) (after : List Char), wording.Denotes directive ∧
        Assembles after parts ∧ cs = wording.text ++ after := by
  constructor
  · intro h
    cases h with
    | field hdenotes hrest => exact ⟨_, _, hdenotes, hrest, rfl⟩
  · rintro ⟨wording, after, hdenotes, hafter, rfl⟩
    exact .field hdenotes hafter

/-- After the directive there is literal text alone. -/
theorem after_eq_ok_iff {parts : List Piece} {literal : List Char} :
    ofPieces.after parts = .ok literal ↔ parts = literal.map .literal := by
  induction parts generalizing literal with
  | nil => cases literal <;> simp [ofPieces.after]
  | cons part parts ih =>
    cases part with
    | field directive => cases literal <;> simp [ofPieces.after]
    | literal c =>
      rw [ofPieces.after, map_eq_ok_iff]
      cases literal with
      | nil => simp
      | cons first literal => simp [ih, and_assoc, and_comm]

/-- The parts of a template have one directive among them. -/
theorem ofPieces_eq_ok_iff {literal : List Char} {parts : List Piece} {template : Template} :
    ofPieces literal parts = .ok template ↔
      ∃ more, template.before = literal ++ more ∧
        parts = more.map .literal ++ .field template.directive :: template.after.map .literal := by
  induction parts generalizing literal with
  | nil => simp [ofPieces]
  | cons part parts ih =>
    cases part with
    | literal c =>
      rw [ofPieces, ih]
      constructor
      · rintro ⟨more, hbefore, rfl⟩
        exact ⟨c :: more, by rw [hbefore, List.append_assoc, List.singleton_append], rfl⟩
      · rintro ⟨more, hbefore, hparts⟩
        cases more with
        | nil => cases hparts
        | cons first more =>
          obtain ⟨hfirst, hrest⟩ := List.cons.inj hparts
          cases hfirst
          exact ⟨more, by rw [hbefore, List.append_assoc, List.singleton_append], hrest⟩
    | field directive =>
      rw [ofPieces, map_eq_ok_iff]
      constructor
      · rintro ⟨tail, hafter, rfl⟩
        exact ⟨[], (List.append_nil literal).symm, by rw [after_eq_ok_iff.1 hafter]; rfl⟩
      · rintro ⟨more, hbefore, hparts⟩
        cases more with
        | cons first more => cases hparts
        | nil =>
          obtain ⟨hfield, hafter⟩ := List.cons.inj hparts
          cases hfield
          refine ⟨template.after, after_eq_ok_iff.2 hafter, ?_⟩
          rw [← List.append_nil literal, ← hbefore]

theorem parse_eq_ok_iff_assembles {text : String} {template : Template} :
    parse text = .ok template ↔ Assembles text.toList template.parts := by
  rw [← pieces_eq_ok_iff, parse]
  cases hpieces : pieces text.toList with
  | error problem => simp [Except.bind]
  | ok found =>
    rw [Except.bind, ofPieces_eq_ok_iff, Except.ok.injEq]
    constructor
    · rintro ⟨more, hbefore, hparts⟩
      rw [hparts, parts, hbefore, List.nil_append]
    · exact fun hparts => ⟨template.before, (List.nil_append _).symm, hparts⟩

/-- A text is read as the template that it is written from. -/
theorem parse_eq_ok_iff {text : String} {template : Template} :
    parse text = .ok template ↔
      ∃ wording : Wording, wording.Denotes template.directive ∧
        text.toList = escape template.before ++ wording.text ++ escape template.after := by
  rw [parse_eq_ok_iff_assembles, parts, assembles_append_iff]
  constructor
  · rintro ⟨before, rest, hbefore, hrest, htext⟩
    obtain ⟨wording, after, hdenotes, hafter, rfl⟩ := assembles_field_iff.1 hrest
    refine ⟨wording, hdenotes, ?_⟩
    rw [htext, assembles_literals_iff.1 hbefore, assembles_literals_iff.1 hafter,
      List.append_assoc]
  · rintro ⟨wording, hdenotes, htext⟩
    refine ⟨_, _, assembles_literals_iff.2 rfl,
      assembles_field_iff.2 ⟨wording, _, hdenotes, assembles_literals_iff.2 rfl, rfl⟩, ?_⟩
    rw [htext, List.append_assoc]

theorem filled_eq_ok_iff {text out : String} {value : Int} :
    filled text value = .ok out ↔
      ∃ template, parse text = .ok template ∧ template.render value = out :=
  map_eq_ok_iff

theorem exists_filled_iff (text : String) (value : Int) :
    (∃ out, filled text value = .ok out) ↔ IsTemplate text.toList := by
  constructor
  · rintro ⟨out, hout⟩
    obtain ⟨template, hparse, -⟩ := filled_eq_ok_iff.1 hout
    obtain ⟨wording, hdenotes, htext⟩ := parse_eq_ok_iff.1 hparse
    exact ⟨template.before, wording, template.after, hdenotes.valid, htext⟩
  · rintro ⟨before, wording, after, hvalid, htext⟩
    obtain ⟨directive, hdenotes⟩ := hvalid.exists_denotes
    have hparse : parse text = .ok ⟨before, directive, after⟩ :=
      parse_eq_ok_iff.2 ⟨wording, hdenotes, htext⟩
    exact ⟨_, filled_eq_ok_iff.2 ⟨_, hparse, rfl⟩⟩

/-- A text can be filled with one value exactly if it can be filled with all, and it can exactly if
it is literal text around one directive. -/
theorem fillable_iff_isTemplate (text : String) :
    ((∃ value out, filled text value = .ok out) ↔ ∀ value, ∃ out, filled text value = .ok out) ∧
      ((∀ value, ∃ out, filled text value = .ok out) ↔ IsTemplate text.toList) := by
  have hsome : (∃ value out, filled text value = .ok out) ↔ IsTemplate text.toList := by
    constructor
    · rintro ⟨value, hout⟩
      exact (exists_filled_iff text value).1 hout
    · exact fun h => ⟨0, (exists_filled_iff text 0).2 h⟩
  have hall : (∀ value, ∃ out, filled text value = .ok out) ↔ IsTemplate text.toList := by
    constructor
    · exact fun h => (exists_filled_iff text 0).1 (h 0)
    · exact fun h value => (exists_filled_iff text value).2 h
  exact ⟨hsome.trans hall.symm, hall⟩

end Template

end LookupEngine.Sequence
