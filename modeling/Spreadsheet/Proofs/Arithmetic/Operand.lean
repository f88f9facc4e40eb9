import Spreadsheet.Proofs.Arithmetic.Tokens
import Spreadsheet.Proofs.Formula.Form

/-!
# Operands of Formulas

The numbers, cells and calls that arithmetic is done on.

What is scanned in an expression depends on where it is cut. These lemmas say that
an operand is cut out as a whole wherever it stands: a numeral character by
character, a cell as one piece up to its last digit, and a call up to the
parenthesis that matches the first. For the call this is where the parentheses of
its arguments have to be balanced, and where quotes would get in the way, since
what is quoted is not counted.

## Main definitions

* `Balanced`: Texts whose parentheses match.
* `CellName`, `CallText`, `Operand`: The operands, as they are written.
* `Operand.pieces`: The pieces that an operand is cut into.

## Theorems

* `Balanced.closing?_append`: Balanced arguments are passed over.
* `Operand.scan_append`: An operand is cut out as a whole.
* `CellName.ofTrimmed_append`, `CallText.ofTrimmed_append`: The form of a text that
  starts with a cell or a call.
-/

namespace Spreadsheet

namespace Arithmetic

/-- The parentheses of the text match. -/
inductive Balanced : List Char → Prop
  | nil : Balanced []
  | plain {c : Char} {cs : List Char} (opening : c ≠ '(') (closing : c ≠ ')') (h : Balanced cs) :
      Balanced (c :: cs)
  | group {as bs : List Char} (ha : Balanced as) (hb : Balanced bs) :
      Balanced ('(' :: (as ++ ')' :: bs))

/-- Inside a call the walk passes over balanced text and is as deep as before. -/
theorem Balanced.closing?_append {cs : List Char} (h : Balanced cs) (hquote : '"' ∉ cs)
    {s : Nesting} (hquoted : s.quoted = false) (hdepth : 0 < s.depth) (rest : List Char) :
    ∃ s' : Nesting, s'.quoted = false ∧ s'.depth = s.depth ∧
      s.closing? (cs ++ rest) = (s'.closing? rest).map (· + cs.length) := by
  induction h generalizing s rest with
  | nil =>
      refine ⟨s, hquoted, rfl, ?_⟩
      rw [List.nil_append]
      exact Option.map_id'.symm
  | @plain c cs opening closing h ih =>
      rw [List.mem_cons, not_or] at hquote
      rcases Nesting.step_plain hquoted (fun hc => hquote.1 hc.symm) opening closing with ⟨hq, hd⟩
      rcases ih hquote.2 hq (by omega) rest with ⟨s', hq', hd', hcs⟩
      refine ⟨s', hq', by omega, ?_⟩
      rw [List.cons_append, Nesting.closing?_cons _ (by omega), hcs, Option.map_map]
      rfl
  | @group as bs ha hb iha ihb =>
      rw [List.mem_cons, List.mem_append, List.mem_cons, not_or, not_or, not_or] at hquote
      have hopen := Nesting.step_opening hquoted
      rcases iha hquote.2.1 (s := s.step '(') (by rw [hopen]) (by rw [hopen]; simp only; omega)
        (')' :: (bs ++ rest)) with ⟨s₁, hq₁, hd₁, has⟩
      -- The group is closed at the depth where it was opened.
      have hclose := Nesting.step_closing hq₁
      rw [hopen] at hd₁
      simp only at hd₁
      rcases ihb hquote.2.2.2 (s := s₁.step ')') (by rw [hclose]) (by rw [hclose]; simp only; omega)
        rest with ⟨s₂, hq₂, hd₂, hbs⟩
      rw [hclose] at hd₂
      simp only at hd₂
      refine ⟨s₂, hq₂, by omega, ?_⟩
      rw [List.cons_append, List.append_assoc, List.cons_append,
        Nesting.closing?_cons _ (by rw [hopen]; simp only; omega), has,
        Nesting.closing?_cons _ (by rw [hclose]; simp only; omega), hbs, Option.map_map,
        Option.map_map, Option.map_map]
      congr 1
      funext n
      simp only [Function.comp_apply, List.length_cons, List.length_append]
      omega

/-- The parenthesis that closes a call is the one behind its balanced arguments. -/
theorem Balanced.matching?_eq {cs : List Char} (h : Balanced cs) (hquote : '"' ∉ cs)
    (rest : List Char) : Nesting.matching? (cs ++ ')' :: rest) = some cs.length := by
  rcases h.closing?_append hquote (s := { depth := 1 }) rfl (by decide) (')' :: rest) with
    ⟨s, hquoted, hdepth, hcs⟩
  rw [Nesting.matching?, hcs, Nesting.closing?, Nesting.step_closing hquoted, hdepth]
  simp only [Int.sub_self, if_true, Option.map_some, Nat.zero_add]

/-- The name of a cell, as an expression writes it. -/
structure CellName where
  letters : List Char
  digits : List Char
  letters_ne_nil : letters ≠ []
  digits_ne_nil : digits ≠ []
  isLetter_letters : ∀ c ∈ letters, Column.isLetter c = true
  isAsciiDigit_digits : ∀ c ∈ digits, Text.isAsciiDigit c = true

/-- A call without quotes, as an expression writes it. -/
structure CallText where
  name : List Char
  body : List Char
  name_ne_nil : name ≠ []
  isLetter_name : ∀ c ∈ name, Column.isLetter c = true
  balanced : Balanced body
  quote_not_mem : '"' ∉ body

namespace CellName

variable (n : CellName)

/-- The text of a name. -/
def chars : List Char := n.letters ++ n.digits

theorem isName : Mention.IsName n.chars :=
  ⟨n.letters, n.digits, rfl, n.letters_ne_nil, n.digits_ne_nil, n.isLetter_letters,
    fun c hc => Text.isDigit_of_isAsciiDigit c (n.isAsciiDigit_digits c hc)⟩

/-- An expression that starts with a cell is the cell alone, or arithmetic. -/
theorem ofTrimmed_append {rest : List Char} (hdigit : Text.StopsAt Text.isDigit rest)
    (hcolon : rest.head? ≠ some ':') :
    Form.ofTrimmed (n.chars ++ rest) = if rest = [] then .cell (String.ofList n.chars)
      else .arithmetic (n.chars ++ rest) (Piece.scan (n.chars ++ rest)) := by
  have hname := Mention.name?_of_isName n.isName hdigit
  have hstart : Mention.atStart? (n.chars ++ rest) = some (.cell n.chars) :=
    Mention.atStart?_of_cell hname fun rest' hrest => absurd (by rw [hrest]; rfl) hcolon
  rcases n.isName.exists_cons with ⟨c, cs, hcs, hc⟩
  rw [hcs, List.cons_append, Form.ofTrimmed_of_isLetter _ hc, ← List.cons_append, ← hcs,
    Form.reference?, hstart]
  by_cases hrest : rest = []
  · rw [if_pos hrest, hrest, List.append_nil]
    simp only [Mention.chars, if_true, Option.getD_some]
  · have hlength : (Mention.cell n.chars).chars.length ≠ (n.chars ++ rest).length := by
      rw [List.length_append, Mention.chars]
      have := List.length_pos_iff.mpr hrest
      omega
    -- What starts with a cell is no call, so nothing but arithmetic is left.
    have hcall : Call.whole? (n.chars ++ rest) = none := by
      cases hwhole : Call.whole? (n.chars ++ rest) with
      | none => rfl
      | some call =>
          rw [(Call.whole?_eq_some hwhole).1, Mention.name?_of_parenthesis
            (Call.whole?_eq_some hwhole).2.2.1] at hname
          cases hname
    simp only [hlength, if_false, Option.getD_none]
    rw [if_neg hrest, Form.operation, hcall]

end CellName

namespace CallText

variable (n : CallText)

/-- The text of a call. -/
def chars : List Char := n.name ++ '(' :: (n.body ++ [')'])

theorem chars_append (rest : List Char) :
    n.chars ++ rest = n.name ++ '(' :: (n.body ++ ')' :: rest) := by
  simp only [chars, List.append_assoc, List.cons_append, List.nil_append]

theorem start?_append (rest : List Char) :
    Call.start? (n.chars ++ rest) = some (n.name, n.body ++ ')' :: rest) := by
  rw [chars_append]
  exact Call.start?_of_name _ n.name_ne_nil n.isLetter_name

/-- An expression that starts with a call is the call alone, or arithmetic. -/
theorem ofTrimmed_append (rest : List Char) :
    Form.ofTrimmed (n.chars ++ rest) = if rest = [] then .call (String.ofList n.name) n.body
      else .arithmetic (n.chars ++ rest) (Piece.scan (n.chars ++ rest)) := by
  have hwhole : Call.whole? (n.chars ++ rest) =
      if rest = [] then some (n.name, n.body) else none := by
    unfold Call.whole?
    simp only [n.start?_append rest, n.balanced.matching?_eq n.quote_not_mem rest]
    rw [List.take_left, List.length_append, List.length_cons]
    by_cases hrest : rest = []
    · rw [if_pos hrest, hrest, List.length_nil, if_pos rfl]
    · have := List.length_pos_iff.mpr hrest
      rw [if_neg hrest, if_neg (by omega)]
  rw [Form.ofTrimmed_of_start? (n.start?_append rest), Form.operation, hwhole]
  by_cases hrest : rest = []
  · rw [if_pos hrest, if_pos hrest]
  · rw [if_neg hrest, if_neg hrest]

/-- A call is one piece. -/
theorem scan_append (rest : List Char) :
    Piece.scan (n.chars ++ rest) = .call n.chars :: Piece.scan rest := by
  have hstart : Piece.start? (n.chars ++ rest) = some (.call n.chars.length) := by
    unfold Piece.start?
    simp only [n.start?_append rest, n.balanced.matching?_eq n.quote_not_mem rest]
    rw [chars, List.length_append, List.length_cons, List.length_append, List.length_singleton]
    congr 2
    omega
  rw [chars_append] at hstart ⊢
  exact Piece.scan_call n.name_ne_nil n.isLetter_name
    (StringLiteral.paired_of_not_mem n.quote_not_mem) hstart

end CallText

/-- Plain characters are pieces of their own. -/
theorem scan_plain_append {cs : List Char} (h : ∀ c ∈ cs, c ≠ '"' ∧ Column.isLetter c = false)
    (rest : List Char) : Piece.scan (cs ++ rest) = cs.map .plain ++ Piece.scan rest := by
  induction cs with
  | nil => rfl
  | cons c cs ih =>
      rcases h c List.mem_cons_self with ⟨hquote, hletter⟩
      rw [List.cons_append, Piece.scan_of_not_isLetter _ hquote hletter,
        ih fun d hd => h d (List.mem_cons_of_mem c hd)]
      rfl

/-- What arithmetic is done on. -/
inductive Operand where
  | literal (n : Numeral)
  | cell (n : CellName)
  | call (n : CallText)

namespace Operand

/-- The text of an operand. -/
def chars : Operand → List Char
  | literal n => n.chars
  | cell n => n.chars
  | call n => n.chars

/-- Whether the value of an operand is looked up or computed. -/
def isRead : Operand → Bool
  | literal _ => false
  | cell _ => true
  | call _ => true

/-- The pieces that an operand is cut into. -/
def pieces : Operand → List Piece
  | literal n => n.chars.map .plain
  | cell n => [.cell (String.ofList n.chars)]
  | call n => [.call n.chars]

/-- An operand begins with a letter if it is read, and else as a numeral does. -/
theorem exists_cons (a : Operand) : ∃ c cs, a.chars = c :: cs ∧
    (if a.isRead then Column.isLetter c else Numeral.continues c) = true := by
  cases a with
  | literal n =>
      rcases List.exists_cons_of_ne_nil n.chars_ne_nil with ⟨c, cs, hcs⟩
      exact ⟨c, cs, hcs, n.continues_of_mem c (by rw [hcs]; exact List.mem_cons_self)⟩
  | cell n => exact n.isName.exists_cons
  | call n =>
      rcases List.exists_cons_of_ne_nil n.name_ne_nil with ⟨c, cs, hcs⟩
      refine ⟨c, cs ++ '(' :: (n.body ++ [')']), ?_,
        n.isLetter_name c (by rw [hcs]; exact List.mem_cons_self)⟩
      show n.name ++ '(' :: (n.body ++ [')']) = _
      rw [hcs, List.cons_append]

/-- An operand is cut out as a whole. -/
theorem scan_append (a : Operand) {rest : List Char} (h : Text.StopsAt Numeral.continues rest) :
    Piece.scan (a.chars ++ rest) = a.pieces ++ Piece.scan rest := by
  cases a with
  | literal n =>
      refine scan_plain_append (fun c hc => ?_) rest
      have hplain := Numeral.plain_of_continues (n.continues_of_mem c hc)
      exact ⟨hplain.1, hplain.2.1⟩
  | cell n =>
      exact Piece.scan_cell (Mention.name?_of_isName n.isName
        fun c hc => Numeral.isDigit_of_continues (h c hc))
  | call n => exact n.scan_append rest

end Operand

end Arithmetic

end Spreadsheet
