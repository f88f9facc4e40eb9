import Spreadsheet.Proofs.Arithmetic.Spelling
import Spreadsheet.Proofs.Evaluate.Splice
import Spreadsheet.Proofs.Number.Display

/-!
# Splicing a Row of Words

What an expression reads like with values in the place of cells and calls.

Splicing keeps the shape of a row: symbols, numerals and blanks stay as they are,
and for each operand that is read the text of its value is written. The first
error among these values ends it. Without an error, leaving out what cannot be
part of arithmetic drops exactly the blanks, and what remains is the row written
out with a numeral, or a numeral with a minus sign, for each operand.

## Main definitions

* `Supplies`: What the piece of an operand comes to.
* `firstError?`: The first error among the values of the operands that are read.
* `Operand.written`: What is written for an operand.

## Theorems

* `Spells.splice_error`: Splicing ends with the first error.
* `filter_trim`: The blanks around a text are not kept.
* `Spells.exists_splice`: Splicing without an error writes out the row.
* `exists_isWritten`: The text of a stored number is an operand with its value.
-/

namespace Spreadsheet

namespace Arithmetic

variable {scope : Scope} {f : List Char → Option Value} {value : Operand → Value}

/-- The piece of an operand that is read comes to a value. -/
def Supplies (scope : Scope) (f : List Char → Option Value) (value : Operand → Value)
    (a : Operand) : Prop :=
  a.isRead = true → ∀ p ∈ a.pieces, scope.insertion f p = some (value a).inserted

/-- The first error among the values of the operands that are read. -/
def firstError? (value : Operand → Value) (as : List Operand) : Option Value :=
  ((as.filter Operand.isRead).map value).find? Value.isError

/-- What is written for an operand: its value, if it is read. -/
def Operand.written (value : Operand → Value) (a : Operand) : List Char :=
  if a.isRead then (value a).spliced else a.chars

theorem splice_plain (cs : List Char) (rest : List Piece) :
    scope.splice f (cs.map .plain ++ rest)
      = (scope.splice f rest).map (Except.map (cs ++ ·)) := by
  induction cs with
  | nil =>
      cases hrest : scope.splice f rest with
      | none => exact hrest
      | some result => cases result <;> exact hrest
  | cons c cs ih =>
      show scope.splice f (.plain c :: (cs.map .plain ++ rest)) = _
      rw [Scope.splice_cons_of_ok (show scope.insertion f (.plain c) = some (.ok [c]) from rfl), ih]
      cases scope.splice f rest with
      | none => rfl
      | some result => cases result <;> rfl

/-- Where there is nothing but characters, nothing is put in. -/
theorem splice_map_plain (cs : List Char) : scope.splice f (cs.map .plain) = some (.ok cs) := by
  rw [← List.append_nil (cs.map Piece.plain), splice_plain, Scope.splice, Option.map_some,
    Except.map, List.append_nil]

/-- An operand that is read is one piece. -/
theorem exists_piece {a : Operand} (h : a.isRead = true) : ∃ p, a.pieces = [p] := by
  cases a with
  | literal n => cases h
  | cell n => exact ⟨_, rfl⟩
  | call n => exact ⟨_, rfl⟩

theorem splice_operand_error {a : Operand} (h : Supplies scope f value a) (hread : a.isRead = true)
    (herror : (value a).isError = true) (rest : List Piece) :
    scope.splice f (a.pieces ++ rest) = some (.error (value a)) := by
  rcases exists_piece hread with ⟨p, hp⟩
  have hinsertion := h hread p (by rw [hp]; exact List.mem_singleton_self p)
  rw [Value.inserted_of_isError herror] at hinsertion
  rw [hp]
  exact Scope.splice_cons_of_error hinsertion

theorem splice_operand_ok {a : Operand} (h : Supplies scope f value a)
    (herror : a.isRead = true → (value a).isError = false) (rest : List Piece) :
    scope.splice f (a.pieces ++ rest)
      = (scope.splice f rest).map (Except.map (a.written value ++ ·)) := by
  by_cases hread : a.isRead = true
  · rcases exists_piece hread with ⟨p, hp⟩
    have hinsertion := h hread p (by rw [hp]; exact List.mem_singleton_self p)
    rw [Value.inserted_of_not_isError (herror hread)] at hinsertion
    rw [hp, Operand.written, if_pos hread]
    exact Scope.splice_cons_of_ok hinsertion
  · rw [Operand.written, if_neg hread]
    cases a with
    | literal n => exact splice_plain n.chars rest
    | cell n => exact absurd rfl hread
    | call n => exact absurd rfl hread

/-- The pieces of a word. -/
def Word.pieces : Word Operand → List Piece
  | symbol s => [.plain s.char]
  | operand a => a.pieces

theorem plain_of_isBlank {c : Char} (h : Text.isBlank c = true) :
    c ≠ '"' ∧ Column.isLetter c = false := by
  refine ⟨?_, Text.isLetter_of_isBlank h⟩
  rintro rfl
  exact absurd h (by decide)

/-- Blanks and words are cut one after the other. -/
theorem Spells.scan_cons {w : Word Operand} {ws : List (Word Operand)} {blanks cs : List Char}
    (hblank : ∀ c ∈ blanks, Text.isBlank c = true) (h : Spells ws cs)
    (hsep : Separated (w :: ws)) :
    Piece.scan (blanks ++ (w.chars ++ cs))
      = blanks.map .plain ++ (w.pieces ++ Piece.scan cs) := by
  rw [scan_plain_append fun c hc => plain_of_isBlank (hblank c hc)]
  cases w with
  | symbol s =>
      have hquote : s.char ≠ '"' := by cases s <;> decide
      exact congrArg (blanks.map Piece.plain ++ ·)
        (Piece.scan_of_not_isLetter cs hquote (isLetter_symbol s))
  | operand a =>
      have hstops := (h.stopsAt fun v hv => (List.isChain_cons.mp hsep).1 v hv rfl).1
      exact congrArg (blanks.map Piece.plain ++ ·) (a.scan_append hstops)

/-- Each operand of a row is cut out of its text. -/
theorem Spells.mem_scan {ws : List (Word Operand)} {cs : List Char} (h : Spells ws cs)
    (hsep : Separated ws) {a : Operand} (ha : a ∈ ws.filterMap Word.operand?) :
    ∀ p ∈ a.pieces, p ∈ Piece.scan cs := by
  induction h with
  | nil => cases ha
  | @cons blanks w ws cs hblank rest ih =>
      intro p hp
      rw [rest.scan_cons hblank hsep]
      have htail := ih (List.isChain_cons.mp hsep).2
      refine List.mem_append_right _ (List.mem_append.mpr ?_)
      cases w with
      | symbol s => exact Or.inr (htail ha p hp)
      | operand b =>
          rcases List.mem_cons.mp ha with rfl | ha
          · exact Or.inl hp
          · exact Or.inr (htail ha p hp)

theorem firstError?_cons (a : Operand) (as : List Operand) :
    firstError? value (a :: as) =
      if a.isRead = true ∧ (value a).isError = true then some (value a)
      else firstError? value as := by
  unfold firstError?
  by_cases hread : a.isRead = true
  · rw [List.filter_cons_of_pos hread, List.map_cons]
    by_cases herror : (value a).isError = true
    · rw [List.find?_cons_of_pos herror, if_pos ⟨hread, herror⟩]
    · rw [List.find?_cons_of_neg herror, if_neg fun h => herror h.2]
  · rw [List.filter_cons_of_neg hread, if_neg fun h => hread h.1]

/-- The first word of a row is the first error among the values, where splicing stops, or
    it is written out, and the first error is among the other words. -/
theorem splice_word_cases {w : Word Operand} {ws : List (Word Operand)}
    (hsupply : ∀ a ∈ (w :: ws).filterMap Word.operand?, Supplies scope f value a) :
    (∃ v, firstError? value ((w :: ws).filterMap Word.operand?) = some v ∧
        ∀ rest, scope.splice f (w.pieces ++ rest) = some (.error v)) ∨
      (firstError? value ((w :: ws).filterMap Word.operand?)
          = firstError? value (ws.filterMap Word.operand?) ∧
        ∀ rest, scope.splice f (w.pieces ++ rest)
          = (scope.splice f rest).map (Except.map (w.written (Operand.written value) ++ ·))) := by
  cases w with
  | symbol s => exact Or.inr ⟨rfl, fun rest => splice_plain [s.char] rest⟩
  | operand a =>
      have ha := hsupply a List.mem_cons_self
      rw [show (Word.operand a :: ws).filterMap Word.operand?
        = a :: ws.filterMap Word.operand? from rfl, firstError?_cons]
      by_cases herror : a.isRead = true ∧ (value a).isError = true
      · rw [if_pos herror]
        exact Or.inl ⟨_, rfl, splice_operand_error ha herror.1 herror.2⟩
      · rw [if_neg herror]
        exact Or.inr ⟨rfl, splice_operand_ok ha
          fun hread => (Bool.not_eq_true _).mp fun h => herror ⟨hread, h⟩⟩

theorem supplies_tail {w : Word Operand} {ws : List (Word Operand)}
    (hsupply : ∀ a ∈ (w :: ws).filterMap Word.operand?, Supplies scope f value a) :
    ∀ a ∈ ws.filterMap Word.operand?, Supplies scope f value a := by
  intro a ha
  cases w with
  | symbol s => exact hsupply a ha
  | operand b => exact hsupply a (List.mem_cons_of_mem b ha)

/-- Splicing a row ends with the first error among the values. -/
theorem Spells.splice_error {ws : List (Word Operand)} {cs : List Char} {v : Value}
    (h : Spells ws cs) (hsep : Separated ws)
    (hsupply : ∀ a ∈ ws.filterMap Word.operand?, Supplies scope f value a)
    (hv : firstError? value (ws.filterMap Word.operand?) = some v) :
    scope.splice f (Piece.scan cs) = some (.error v) := by
  induction h with
  | nil => cases hv
  | @cons blanks w ws cs hblank rest ih =>
      rw [rest.scan_cons hblank hsep, splice_plain]
      rcases splice_word_cases hsupply with ⟨v', hfirst, hsplice⟩ | ⟨hfirst, hsplice⟩
      · rw [hfirst] at hv
        rw [hsplice, Option.some.inj hv]
        rfl
      · rw [hfirst] at hv
        rw [hsplice, ih (List.isChain_cons.mp hsep).2 (supplies_tail hsupply) hv]
        rfl

/-- The characters that survive without being digits are symbols and the point. -/
theorem cases_of_survives {c : Char} (h : survives c = true) :
    Text.isAsciiDigit c = true ∨ c ∈ "+-*/().".toList :=
  (Bool.or_eq_true_iff.mp h).imp_right List.contains_iff_mem.mp

/-- No blank can be part of arithmetic. -/
theorem survives_of_isBlank {c : Char} (h : Text.isBlank c = true) : survives c = false := by
  by_contra hsurvives
  rw [Bool.not_eq_false] at hsurvives
  rcases cases_of_survives hsurvives with hdigit | hsymbol
  · rw [Text.isBlank_of_isDigit (Text.isDigit_of_isAsciiDigit c hdigit)] at h
    exact Bool.false_ne_true h
  · have hall : ("+-*/().".toList.all fun d => !Text.isBlank d) = true := by decide
    have hnot := List.all_eq_true.mp hall c hsymbol
    rw [h] at hnot
    exact Bool.false_ne_true hnot

theorem filter_blanks {blanks : List Char} (h : ∀ c ∈ blanks, Text.isBlank c = true) :
    blanks.filter survives = [] := by
  rw [List.filter_eq_nil_iff]
  intro c hc hsurvives
  rw [survives_of_isBlank (h c hc)] at hsurvives
  exact Bool.false_ne_true hsurvives

/-- Blanks around a text are left out anyway. -/
theorem filter_trim (cs : List Char) : (Text.trim cs).filter survives = cs.filter survives := by
  rcases Text.exists_blanks cs with ⟨front, back, hcs, hfront, hback⟩
  rw [congrArg (List.filter survives) hcs, List.filter_append, List.filter_append,
    filter_blanks hfront, filter_blanks hback, List.nil_append, List.append_nil]

/-- Splicing a row without an error writes it out, up to what is left out of
    arithmetic anyway. -/
theorem Spells.exists_splice {ws : List (Word Operand)} {cs : List Char}
    (h : Spells ws cs) (hsep : Separated ws)
    (hsupply : ∀ a ∈ ws.filterMap Word.operand?, Supplies scope f value a)
    (hv : firstError? value (ws.filterMap Word.operand?) = none) :
    ∃ out, scope.splice f (Piece.scan cs) = some (.ok out) ∧
      out.filter survives
        = (ws.flatMap (Word.written (Operand.written value))).filter survives := by
  induction h with
  | @nil blanks hblank =>
      refine ⟨blanks, ?_, ?_⟩
      · have hscan := scan_plain_append (fun c hc => plain_of_isBlank (hblank c hc)) []
        rw [List.append_nil, show Piece.scan [] = [] from rfl, List.append_nil] at hscan
        rw [hscan, splice_map_plain]
      · rw [filter_blanks hblank]
        rfl
  | @cons blanks w ws cs hblank rest ih =>
      rw [rest.scan_cons hblank hsep, splice_plain]
      -- No value is an error, so the word is written out.
      rcases splice_word_cases hsupply with ⟨v, hfirst, _⟩ | ⟨hfirst, hsplice⟩
      · rw [hfirst] at hv
        cases hv
      · rw [hfirst] at hv
        rcases ih (List.isChain_cons.mp hsep).2 (supplies_tail hsupply) hv with ⟨out, hout, hfilter⟩
        refine ⟨blanks ++ (w.written (Operand.written value) ++ out), ?_, ?_⟩
        · rw [hsplice, hout]
          rfl
        · rw [List.flatMap_cons, List.filter_append, filter_blanks hblank, List.nil_append,
            List.filter_append, List.filter_append, hfilter]

theorem survives_of_mem_numeral {n : Numeral} : ∀ c ∈ n.chars, survives c = true := by
  intro c hc
  rcases n.isAsciiDigit_or_point c hc with hdigit | rfl
  · rw [survives, hdigit, Bool.true_or]
  · decide

theorem survives_symbol (s : Symbol) : survives s.char = true := by cases s <;> decide

/-- A numeral is an operand with its value, with a minus sign or without one, and all of
    it is part of arithmetic. -/
theorem exists_isWritten_signed (negative : Bool) (m : Numeral) :
    (∃ ts, IsWritten 1 (if negative then '-' :: m.chars else m.chars) ts
      (if negative then -m.value else m.value)) ∧
      ∀ c ∈ (if negative then '-' :: m.chars else m.chars), survives c = true := by
  cases negative with
  | false => exact ⟨⟨_, (isWritten_numeral m).mono (Nat.zero_le 1)⟩, survives_of_mem_numeral⟩
  | true =>
      refine ⟨⟨_, (isWritten_numeral m).minus⟩, fun c hc => ?_⟩
      rcases List.mem_cons.mp hc with rfl | hc
      · decide
      · exact survives_of_mem_numeral c hc

/-- What a cell shows for a stored number is an operand with its value, and all of it
    is part of arithmetic. -/
theorem exists_isWritten {n : Number} (h : n.IsStored)
    (hback : ∀ x, n = .float x → Double.ReadsBack x) :
    (∃ ts, IsWritten 1 n.display.toList ts n.toDouble) ∧
      ∀ c ∈ n.display.toList, survives c = true := by
  rcases Number.exists_numeral h hback with ⟨negative, m, _, hdisplay, hvalue⟩
  rw [hdisplay, hvalue]
  exact exists_isWritten_signed negative m

end Arithmetic

end Spreadsheet
