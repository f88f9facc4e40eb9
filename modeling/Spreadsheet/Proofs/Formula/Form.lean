import Spreadsheet.Formula.Form
import Spreadsheet.Proofs.Block.Listing
import Spreadsheet.Proofs.Formula.Piece

/-!
# What a Form Says about a Text

The form of an expression, read back.

`Form.Fits` says what a text looks like whose form is known: a cell or a range is
one mention that takes up the whole text, a call is a name with parentheses to
the last character, and arithmetic keeps the text together with its pieces. Every
text fits its form, so what a form says about a text is a case of `Fits`.

For a text within a list of mentions (`Within`), the parts of its form are within
the list again (`Within.parts`). This is the step of every argument that follows
an evaluation down through a formula.

## Main definitions

* `Form.Fits`: What a text looks like that has a form.

## Theorems

* `Form.fits_ofTrimmed`: Every text fits its form.
* `Form.eq_of_number`, `Form.eq_of_cell`, `Form.eq_of_range`, `Form.eq_of_call`,
  `Form.eq_of_arithmetic`: What a text of a form looks like.
* `Form.ofTrimmed_of_isQuoted`: What is between quotes is a text.
* `Form.ofTrimmed_of_start?`: What starts like a call is a call or arithmetic.
* `Form.cases_of_mem_parts`: Where the parts of a form stand in the text.
* `Within.parts`: The texts that are evaluated on the way are within.
-/

namespace Spreadsheet

namespace Form

/-- What a text looks like that has a form, with one case for each test that finds
    one. -/
inductive Fits (cs : List Char) : Form → Prop
  | blank (empty : cs = []) : Fits cs .blank
  | quoted (quotes : isQuoted cs = true) : Fits cs (.quoted (cs.drop 1).dropLast)
  /-- A number that was read as a double. -/
  | number {x : Float} (value : Literal.value? cs = some x) : Fits cs (.number (Number.ofFloat x))
  /-- A name that takes up the whole text. -/
  | cell {name : List Char} (chars : cs = name)
      (start : Mention.atStart? cs = some (.cell name)) : Fits cs (.cell (String.ofList name))
  /-- A mention of a range that takes up the whole text and names a block. -/
  | range {first last : List Char} {block : Block}
      (chars : cs = (Mention.range first last).chars)
      (start : Mention.atStart? cs = some (.range first last))
      (named : Block.ofChars cs = .ok block) : Fits cs (.range ⟨String.ofList cs, block⟩)
  /-- A mention of a range that takes up the whole text and names no block. -/
  | nowhere {first last : List Char} (chars : cs = (Mention.range first last).chars) :
      Fits cs (.nowhere cs)
  /-- A name with parentheses to the last character. -/
  | call {name args : List Char} (whole : Call.whole? cs = some (name, args)) :
      Fits cs (.call (String.ofList name) args)
  /-- Anything else, next to its pieces. -/
  | arithmetic (whole : Call.whole? cs = none) : Fits cs (.arithmetic cs (Piece.scan cs))

/-- A reference is one mention that takes up the whole text. -/
theorem fits_of_reference? {cs : List Char} {form : Form} (h : reference? cs = some form) :
    Fits cs form := by
  rw [reference?] at h
  split at h
  · cases h
  · rename_i m hm
    split at h
    · rename_i hlen
      -- The mention is a front part of the text, and nothing is left behind it.
      rcases (Mention.exists_of_atStart? hm).1 with ⟨rest, hcs⟩
      have hrest : rest = [] := by
        rw [hcs, List.length_append] at hlen
        exact List.eq_nil_of_length_eq_zero (by omega)
      rw [hrest, List.append_nil] at hcs
      cases m with
      | cell name =>
          rw [← Option.some.inj h]
          exact Fits.cell hcs hm
      | range first last =>
          simp only at h
          split at h
          · rename_i block hblock
            rw [← Option.some.inj h]
            exact Fits.range hcs hm hblock
          · rw [← Option.some.inj h]
            exact Fits.nowhere hcs
    · cases h

theorem fits_operation (cs : List Char) : Fits cs (operation cs) := by
  rw [operation]
  split
  · rename_i name args h
    exact Fits.call h
  · rename_i h
    exact Fits.arithmetic h

/-- Every text fits its form. -/
theorem fits_ofTrimmed (cs : List Char) : Fits cs (ofTrimmed cs) := by
  rw [ofTrimmed]
  split
  · rename_i h
    exact Fits.blank (List.isEmpty_iff.mp h)
  · split
    · rename_i h
      exact Fits.quoted h
    · split
      · rename_i x h
        exact Fits.number h
      · cases href : reference? cs with
        | none => exact fits_operation cs
        | some form => exact fits_of_reference? href

section

variable {cs : List Char}

theorem fits_of_eq {form : Form} (h : ofTrimmed cs = form) : Fits cs form := by
  rw [← h]
  exact fits_ofTrimmed cs

/-- A number was a double. -/
theorem eq_of_number {n : Number} (h : ofTrimmed cs = .number n) : ∃ x, n = Number.ofFloat x := by
  cases fits_of_eq h with
  | number _ => exact ⟨_, rfl⟩

/-- A cell is the name that takes up the whole text. -/
theorem eq_of_cell {name : String} (h : ofTrimmed cs = .cell name) :
    cs = name.toList ∧ Mention.atStart? cs = some (.cell name.toList) := by
  cases fits_of_eq h with
  | cell chars start =>
      rw [String.toList_ofList]
      exact ⟨chars, start⟩

/-- A range is a mention that takes up the whole text and names a block. -/
theorem eq_of_range {r : RangeReference} (h : ofTrimmed cs = .range r) :
    r.text = String.ofList cs ∧ Block.ofChars cs = .ok r.block ∧
      ∃ first last, cs = (Mention.range first last).chars ∧
        Mention.atStart? cs = some (.range first last) := by
  cases fits_of_eq h with
  | range chars start named => exact ⟨rfl, named, _, _, chars, start⟩

/-- A call takes up the whole text. -/
theorem eq_of_call {args : List Char} {name : String} (h : ofTrimmed cs = .call name args) :
    Call.whole? cs = some (name.toList, args) := by
  cases fits_of_eq h with
  | call whole =>
      rw [String.toList_ofList]
      exact whole

/-- Arithmetic keeps the text, next to its pieces. -/
theorem eq_of_arithmetic {text : List Char} {pieces : List Piece}
    (h : ofTrimmed cs = .arithmetic text pieces) : text = cs ∧ pieces = Piece.scan cs := by
  cases fits_of_eq h with
  | arithmetic _ => exact ⟨rfl, rfl⟩

theorem onGrid_of_range {r : RangeReference} (h : ofTrimmed cs = .range r) :
    r.block.OnGrid :=
  Block.onGrid_of_ofChars (eq_of_range h).2.1

/-- The parts of arithmetic are the calls among its pieces. -/
theorem mem_parts_arithmetic {text part : List Char} {pieces : List Piece} :
    part ∈ (Form.arithmetic text pieces).parts ↔ Piece.call part ∈ pieces := by
  rw [parts, List.mem_filterMap]
  constructor
  · rintro ⟨p, hp, hpart⟩
    cases p with
    | call text' =>
        rw [← Option.some.inj hpart]
        exact hp
    | plain c => cases hpart
    | cell name => cases hpart
  · exact fun hp => ⟨_, hp, rfl⟩

/-- A part is an argument of a call that takes up the whole text, or a call among
    the pieces of a text that is no call. -/
theorem cases_of_mem_parts {part : List Char} (h : part ∈ (ofTrimmed cs).parts) :
    (∃ name args, Call.whole? cs = some (name, args) ∧ part ∈ Call.arguments args) ∨
      Call.whole? cs = none ∧ Piece.call part ∈ Piece.scan cs := by
  cases hform : ofTrimmed cs with
  | call name args =>
      rw [hform] at h
      exact Or.inl ⟨_, _, eq_of_call hform, h⟩
  | arithmetic text pieces =>
      rw [hform] at h
      cases fits_of_eq hform with
      | arithmetic whole => exact Or.inr ⟨whole, mem_parts_arithmetic.mp h⟩
  | _ =>
      rw [hform] at h
      cases h

end

/-- What starts and ends with a quote is what stands between. -/
theorem ofTrimmed_of_isQuoted {cs : List Char} (h : isQuoted cs = true) :
    ofTrimmed cs = .quoted (cs.drop 1).dropLast := by
  cases cs with
  | nil => cases h
  | cons c cs =>
      rw [ofTrimmed, List.isEmpty_cons, h]
      rfl

/-- What does not start with a quote is not quoted. -/
theorem isQuoted_of_head? {cs : List Char} (h : cs.head? ≠ some '"') : isQuoted cs = false := by
  rw [isQuoted, decide_eq_false_iff_not]
  exact fun hquoted => h hquoted.1

/-- What starts with a letter is neither quoted nor a number. -/
theorem ofTrimmed_of_isLetter {c : Char} (cs : List Char) (hc : Column.isLetter c = true) :
    ofTrimmed (c :: cs) = (reference? (c :: cs)).getD (operation (c :: cs)) := by
  have hquoted : isQuoted (c :: cs) = false :=
    isQuoted_of_head? fun h => Piece.letter_ne_quote hc (Option.some.inj h)
  have hminus : c ≠ '-' := fun h => by
    rw [h] at hc
    exact absurd hc (by decide)
  have hpoint : c ≠ '.' := fun h => by
    rw [h] at hc
    exact absurd hc (by decide)
  have hdigit : ¬ Text.isDigit c = true := by
    rw [Text.isDigit_of_isLetter hc]
    exact Bool.false_ne_true
  -- A number starts with a digit or a point, and a signed one with a minus sign.
  have hunsigned : Literal.unsigned? (c :: cs) = none := by
    rw [Literal.unsigned?]
    simp only [List.dropWhile_cons_of_neg hdigit]
    rw [if_neg (fun h => hpoint h.1)]
  have hvalue : Literal.value? (c :: cs) = none := by
    rw [Literal.value?]
    · exact hunsigned
    · exact fun cs' h => hminus (List.cons.inj h).1
  rw [ofTrimmed, List.isEmpty_cons, hquoted, hvalue]
  rfl

/-- What starts with neither a letter nor a quote is a number or arithmetic. -/
theorem ofTrimmed_of_not_isLetter {c : Char} (cs : List Char) (hc : Column.isLetter c = false)
    (hquote : c ≠ '"') :
    (∃ x, Literal.value? (c :: cs) = some x ∧ ofTrimmed (c :: cs) = .number (Number.ofFloat x)) ∨
      ofTrimmed (c :: cs) = .arithmetic (c :: cs) (Piece.scan (c :: cs)) := by
  have hquoted : isQuoted (c :: cs) = false :=
    isQuoted_of_head? fun h => hquote (Option.some.inj h)
  -- References and calls start with a letter.
  have href : reference? (c :: cs) = none := by
    rw [reference?, Mention.atStart?_of_none (Mention.name?_of_not_isLetter cs hc)]
  have hwhole : Call.whole? (c :: cs) = none := by
    cases hwhole : Call.whole? (c :: cs) with
    | none => rfl
    | some call =>
        rcases Call.whole?_eq_some hwhole with ⟨heq, hne, hname, _⟩
        cases hname' : call.1 with
        | nil => exact absurd hname' hne
        | cons d name =>
            rw [hname', List.cons_append] at heq
            have hd := hname d (by rw [hname']; exact List.mem_cons_self)
            rw [← (List.cons.inj heq).1, hc] at hd
            exact absurd hd Bool.false_ne_true
  cases hvalue : Literal.value? (c :: cs) with
  | some x =>
      refine Or.inl ⟨x, rfl, ?_⟩
      rw [ofTrimmed, List.isEmpty_cons, hquoted, hvalue]
      rfl
  | none =>
      refine Or.inr ?_
      rw [ofTrimmed, List.isEmpty_cons, hquoted, hvalue, href, operation, hwhole]
      rfl

/-- What starts like a call is a call or arithmetic. -/
theorem ofTrimmed_of_start? {cs name rest : List Char} (h : Call.start? cs = some (name, rest)) :
    ofTrimmed cs = operation cs := by
  rcases Call.start?_eq_some h with ⟨heq, hne, hname⟩
  have href : reference? cs = none := by
    rw [reference?, heq, Mention.atStart?_of_none (Mention.name?_of_parenthesis hname _)]
  rcases List.exists_cons_of_ne_nil hne with ⟨c, letters, hletters⟩
  rw [hletters, List.cons_append] at heq
  rw [heq] at href ⊢
  rw [ofTrimmed_of_isLetter _ (hname c (by rw [hletters]; exact List.mem_cons_self)), href,
    Option.getD_none]

/-- A call has no blanks around it. -/
theorem trim_call {name args : List Char} (hne : name ≠ [])
    (hname : ∀ c ∈ name, Column.isLetter c = true) :
    Text.trim (name ++ '(' :: (args ++ [')'])) = name ++ '(' :: (args ++ [')']) := by
  rcases List.exists_cons_of_ne_nil hne with ⟨c, letters, hletters⟩
  have hc := hname c (by rw [hletters]; exact List.mem_cons_self)
  have hends : name ++ '(' :: (args ++ [')']) = c :: ((letters ++ '(' :: args) ++ [')']) := by
    rw [hletters]
    simp only [List.append_assoc, List.cons_append]
  rw [hends]
  exact Text.trim_of_ends (Text.isBlank_of_isLetter hc) (by decide)

/-- A whole call is a call, also with blanks around it. -/
theorem ofTrimmed_of_whole? {cs name args : List Char} (h : Call.whole? cs = some (name, args)) :
    ofTrimmed (Text.trim cs) = .call (String.ofList name) args := by
  rcases Call.whole?_eq_some h with ⟨heq, hne, hname, _⟩
  have hstart := Call.start?_of_name (args ++ [')']) hne hname
  rw [heq] at h ⊢
  rw [trim_call hne hname, ofTrimmed_of_start? hstart, operation, h]

theorem mem_parts_of_call {name : String} {args arg : List Char} (h : arg ∈ Call.arguments args) :
    arg ∈ (Form.call name args).parts := h

theorem mem_parts_of_piece {text part : List Char} {pieces : List Piece}
    (h : Piece.call part ∈ pieces) : part ∈ (Form.arithmetic text pieces).parts :=
  mem_parts_arithmetic.mpr h

end Form

/-- The texts that are evaluated on the way are within what the whole is within. -/
theorem Within.parts {ms : List Mention} {cs : List Char} (h : Within ms cs) :
    ∀ part ∈ (Form.ofTrimmed cs).parts, Within ms part := by
  intro part hpart
  rcases Form.cases_of_mem_parts hpart with ⟨name, args, hwhole, harg⟩ | ⟨_, hpiece⟩
  · rcases Call.whole?_eq_some hwhole with ⟨rfl, _, hname, hargs⟩
    exact (h.call hname hargs).2.1.arguments part harg
  · exact h.pieces _ hpiece

end Spreadsheet
