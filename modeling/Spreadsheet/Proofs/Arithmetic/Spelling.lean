import Spreadsheet.Proofs.Arithmetic.Operand

/-!
# Expressions with Blanks

A row of words, written with any blanks between them, and the form that it has.

A row can look like something simpler than arithmetic: like a literal, if it is a
numeral with or without a minus sign, or like a cell or a call, if it is nothing
else. These are all such rows, since what follows an operand in a row that keeps
its operands apart is a symbol, and a symbol goes on with none of the three.

## Main definitions

* `Spells`: A text is a row of words with blanks between them.

## Theorems

* `Spells.stopsAt`: No operand is carried on by what follows it.
* `Spells.trim`: The blanks around a row do not matter.
* `Spells.of_value?`: The rows that are literals.
* `Spells.ofTrimmed_cases`: The forms of a row.
-/

namespace Spreadsheet

namespace Arithmetic

/-- The text of a word in an expression. -/
def Word.chars : Word Operand → List Char := Word.written Operand.chars

/-- The text is the row of words, with blanks around them. -/
inductive Spells : List (Word Operand) → List Char → Prop
  | nil {blanks : List Char} (h : ∀ c ∈ blanks, Text.isBlank c = true) : Spells [] blanks
  | cons {blanks : List Char} {w : Word Operand} {ws : List (Word Operand)} {cs : List Char}
      (h : ∀ c ∈ blanks, Text.isBlank c = true) (rest : Spells ws cs) :
      Spells (w :: ws) (blanks ++ (w.chars ++ cs))

theorem isBlank_symbol (s : Symbol) : Text.isBlank s.char = false := by cases s <;> decide

theorem isLetter_symbol (s : Symbol) : Column.isLetter s.char = false := by cases s <;> decide

namespace Word

/-- A word begins with a character that is no blank and no quote. -/
theorem exists_cons (w : Word Operand) :
    ∃ c cs, w.chars = c :: cs ∧ Text.isBlank c = false ∧ c ≠ '"' := by
  cases w with
  | symbol s => exact ⟨s.char, [], rfl, isBlank_symbol s, by cases s <;> decide⟩
  | operand a =>
      rcases a.exists_cons with ⟨c, cs, hcs, hc⟩
      refine ⟨c, cs, hcs, ?_⟩
      split at hc
      · exact ⟨Text.isBlank_of_isLetter hc, Piece.letter_ne_quote hc⟩
      · exact ⟨(Numeral.plain_of_continues hc).2.2, (Numeral.plain_of_continues hc).1⟩

/-- A word ends with a character that is no blank. -/
theorem exists_concat (w : Word Operand) :
    ∃ cs d, w.chars = cs ++ [d] ∧ Text.isBlank d = false := by
  -- Numerals and the rows of names end with a digit or a point.
  have hlast : ∀ cs : List Char, cs ≠ [] → (∀ c ∈ cs, Text.isDigit c = true ∨ c = '.') →
      ∃ as d, cs = as ++ [d] ∧ Text.isBlank d = false := by
    intro cs hne hcs
    refine ⟨cs.dropLast, cs.getLast hne, (List.dropLast_append_getLast hne).symm, ?_⟩
    rcases hcs _ (List.getLast_mem hne) with hd | hd
    · exact Text.isBlank_of_isDigit hd
    · rw [hd]
      decide
  cases w with
  | symbol s => exact ⟨[], s.char, rfl, isBlank_symbol s⟩
  | operand a =>
      cases a with
      | literal n =>
          exact hlast n.chars n.chars_ne_nil fun c hc =>
            (n.isAsciiDigit_or_point c hc).imp_left (Text.isDigit_of_isAsciiDigit c)
      | cell n =>
          rcases hlast n.digits n.digits_ne_nil fun c hc => Or.inl
            (Text.isDigit_of_isAsciiDigit c (n.isAsciiDigit_digits c hc)) with ⟨as, d, has, hd⟩
          refine ⟨n.letters ++ as, d, ?_, hd⟩
          show n.letters ++ n.digits = _
          rw [has, List.append_assoc]
      | call n =>
          refine ⟨n.name ++ '(' :: n.body, ')', ?_, by decide⟩
          show n.name ++ '(' :: (n.body ++ [')']) = _
          rw [List.append_assoc, List.cons_append]

theorem trimLeft_append (w : Word Operand) (cs : List Char) :
    Text.trimLeft (w.chars ++ cs) = w.chars ++ cs := by
  rcases w.exists_cons with ⟨c, as, hw, hc, _⟩
  rw [Text.trimLeft, hw, List.cons_append,
    List.dropWhile_cons_of_neg (by rw [hc]; exact Bool.false_ne_true)]

theorem trimRight_append (w : Word Operand) (cs : List Char) :
    Text.trimRight (w.chars ++ cs) = w.chars ++ Text.trimRight cs := by
  rcases w.exists_concat with ⟨as, d, hw, hd⟩
  rw [hw, List.append_assoc, List.singleton_append, Text.trimRight_append _ _ hd,
    List.append_assoc, List.singleton_append]

/-- A word of characters that a numeral can have is a numeral. -/
theorem exists_literal {w : Word Operand} (h : ∀ c ∈ w.chars, Numeral.continues c = true) :
    ∃ n, w = .operand (.literal n) := by
  cases w with
  | symbol s =>
      have hs := h s.char List.mem_cons_self
      rw [continues_symbol] at hs
      cases hs
  | operand a =>
      rcases a.exists_cons with ⟨c, as, hcs, hc⟩
      have hcontinues : Numeral.continues c = true := h c (by
        rw [Word.chars, Word.written, hcs]
        exact List.mem_cons_self)
      -- Cells and calls start with a letter.
      have hread : a.isRead = false := by
        by_contra hread
        rw [Bool.not_eq_false] at hread
        rw [hread, if_pos rfl, (Numeral.plain_of_continues hcontinues).2.1] at hc
        cases hc
      cases a with
      | literal n => exact ⟨n, rfl⟩
      | cell n => cases hread
      | call n => cases hread

/-- There are no blanks around a word. -/
theorem trim_chars (w : Word Operand) : Text.trim w.chars = w.chars := by
  have hleft := w.trimLeft_append []
  have hright := w.trimRight_append []
  rw [List.append_nil] at hleft hright
  rw [Text.trim, hleft, hright]
  exact List.append_nil _

end Word

namespace Spells

variable {w : Word Operand} {ws : List (Word Operand)} {cs : List Char}

/-- Where no operand follows, there is the end, a blank or a symbol. -/
theorem head_cases (h : Spells ws cs) (hws : ∀ w ∈ ws.head?, w.operand? = none) :
    ∀ c ∈ cs.head?, Text.isBlank c = true ∨ ∃ s : Symbol, c = s.char := by
  intro c hc
  cases h with
  | nil hblank => exact Or.inl (hblank c (List.mem_of_mem_head? hc))
  | @cons blanks w ws cs hblank rest =>
      cases blanks with
      | nil =>
          cases w with
          | symbol s => exact Or.inr ⟨s, (Option.some.inj hc).symm⟩
          | operand a => cases hws _ rfl
      | cons b blanks =>
          rw [← Option.some.inj hc]
          exact Or.inl (hblank b List.mem_cons_self)

theorem stopsAt (h : Spells ws cs) (hws : ∀ w ∈ ws.head?, w.operand? = none) :
    Text.StopsAt Numeral.continues cs ∧ cs.head? ≠ some ':' := by
  refine ⟨fun c hc => ?_, fun hcolon => ?_⟩
  · rcases h.head_cases hws c hc with hblank | ⟨s, rfl⟩
    · by_contra hcontinues
      rw [Bool.not_eq_false] at hcontinues
      rw [(Numeral.plain_of_continues hcontinues).2.2] at hblank
      exact absurd hblank Bool.false_ne_true
    · exact continues_symbol s
  · rcases h.head_cases hws ':' hcolon with hblank | ⟨s, hs⟩
    · exact absurd hblank (by decide)
    · cases s <;> exact absurd hs (by decide)

theorem trimRight (h : Spells ws cs) : Spells ws (Text.trimRight cs) := by
  induction h with
  | nil h =>
      refine Spells.nil fun c hc => h c ?_
      rw [Text.trimRight, List.mem_reverse] at hc
      exact List.mem_reverse.mp ((List.dropWhile_sublist _).mem hc)
  | @cons blanks w ws cs h rest ih =>
      rcases w.exists_concat with ⟨as, d, hw, hd⟩
      have hassoc : ∀ cs, blanks ++ (w.chars ++ cs) = (blanks ++ as) ++ d :: cs := by
        intro cs
        rw [hw]
        simp only [List.append_assoc, List.singleton_append]
      rw [hassoc, Text.trimRight_append _ _ hd, ← hassoc]
      exact Spells.cons h ih

/-- Without the blanks around it, a text begins with the first word. -/
theorem trim (h : Spells (w :: ws) cs) :
    ∃ rest, Text.trim cs = w.chars ++ rest ∧ Spells ws rest := by
  cases h with
  | @cons blanks _ _ cs hblank rest =>
      have hleft : Text.trimLeft (blanks ++ (w.chars ++ cs)) = w.chars ++ cs := by
        rw [Text.trimLeft, List.dropWhile_append_of_pos hblank]
        exact w.trimLeft_append cs
      exact ⟨Text.trimRight cs, by rw [Text.trim, hleft, w.trimRight_append], rest.trimRight⟩

/-- The only row that is a literal without a sign is a numeral. -/
theorem of_unsigned? (h : Spells ws cs) (hsep : Separated ws) {x : Float}
    (hx : Literal.unsigned? cs = some x) :
    ∃ n, ws = [.operand (.literal n)] ∧ x = n.value := by
  rcases Numeral.continues_of_unsigned? hx with ⟨hne, hcontinues⟩
  -- A literal has no blanks in it.
  have hend : ∀ {bs : List Char}, (∀ c ∈ bs, Text.isBlank c = true) → (∀ c ∈ bs, c ∈ cs) →
      bs = [] := by
    refine fun hblank hmem => List.eq_nil_iff_forall_not_mem.mpr fun c hc => ?_
    have hplain := (Numeral.plain_of_continues (hcontinues c (hmem c hc))).2.2
    rw [hblank c hc] at hplain
    cases hplain
  cases h with
  | nil hblank => exact absurd (hend hblank fun c hc => hc) hne
  | @cons blanks w ws cs' hblank rest =>
      have hblanks := hend hblank fun c hc => List.mem_append_left _ hc
      subst hblanks
      rw [List.nil_append] at *
      rcases Word.exists_literal fun c hc => hcontinues c (List.mem_append_left _ hc) with ⟨n, rfl⟩
      -- Another word behind the numeral would be a numeral as well.
      have hrest : cs' = [] ∧ ws = [] := by
        cases rest with
        | nil hblank' => exact ⟨hend hblank' fun c hc => List.mem_append_right _ hc, rfl⟩
        | @cons blanks' w' ws' cs'' _ _ =>
            rcases Word.exists_literal (w := w') fun c hc => hcontinues c (List.mem_append_right _
              (List.mem_append_right _ (List.mem_append_left _ hc))) with ⟨n', rfl⟩
            cases (List.isChain_cons.mp hsep).1 _ rfl rfl
      rcases hrest with ⟨rfl, rfl⟩
      rw [List.append_nil] at hx
      exact ⟨n, rfl, n.value_of_unsigned? hx⟩

/-- A row whose text starts with a minus sign has the sign as its first word. -/
theorem exists_minus (h : Spells ws ('-' :: cs)) :
    ∃ ws', ws = .symbol .minus :: ws' ∧ Spells ws' cs := by
  generalize htext : '-' :: cs = text at h
  cases h with
  | nil hblank =>
      rw [← htext] at hblank
      exact absurd (hblank '-' List.mem_cons_self) (by decide)
  | @cons blanks w ws cs' hblank rest =>
      cases blanks with
      | cons b blanks =>
          rw [List.cons_append] at htext
          rw [← (List.cons.inj htext).1] at hblank
          exact absurd (hblank '-' List.mem_cons_self) (by decide)
      | nil =>
          cases w with
          | symbol s =>
              have hs := (List.cons.inj htext).1
              have hcs : cs = cs' := (List.cons.inj htext).2
              have hsymbol : s = .minus := by
                cases s <;> first | rfl | exact absurd hs (by decide)
              rw [hsymbol, hcs]
              exact ⟨ws, rfl, rest⟩
          -- No operand starts with a sign.
          | operand a =>
              rcases a.exists_cons with ⟨c, as, ha, hc⟩
              have hfirst : '-' :: cs = c :: (as ++ cs') := by
                rw [htext]
                show [] ++ (a.chars ++ cs') = _
                rw [ha]
                rfl
              rw [← (List.cons.inj hfirst).1] at hc
              split at hc
              · exact absurd hc (by decide)
              · exact absurd hc (by decide)

/-- The rows that are literals are a numeral and a numeral with a minus sign. -/
theorem of_value? (h : Spells ws cs) (hsep : Separated ws) {x : Float}
    (hx : Literal.value? cs = some x) :
    ∃ n : Numeral, (ws = [.operand (.literal n)] ∧ x = n.value) ∨
      (ws = [.symbol .minus, .operand (.literal n)] ∧ x = -n.value) := by
  rcases Numeral.value?_cases hx with hx | ⟨cs', y, rfl, hy, rfl⟩
  · rcases h.of_unsigned? hsep hx with ⟨n, hws, hn⟩
    exact ⟨n, Or.inl ⟨hws, hn⟩⟩
  -- The sign is the first word, and a literal without a sign is left.
  · rcases h.exists_minus with ⟨ws', rfl, hws'⟩
    rcases hws'.of_unsigned? (List.isChain_cons.mp hsep).2 hy with ⟨n, rfl, rfl⟩
    exact ⟨n, Or.inr ⟨rfl, rfl⟩⟩

theorem ne_nil (h : Spells (w :: ws) cs) : cs ≠ [] := by
  rcases w.exists_cons with ⟨c, as, hw, _⟩
  cases h with
  | cons hblank rest =>
      rw [hw]
      exact List.append_ne_nil_of_right_ne_nil _ (List.cons_ne_nil _ _)

/-- The form of a row without blanks around it: a literal, an operand that is read,
    or arithmetic. -/
theorem ofTrimmed_cases (h : Spells ws cs) (hsep : Separated (w :: ws)) :
    (∃ x, Literal.value? (w.chars ++ cs) = some x ∧
        Form.ofTrimmed (w.chars ++ cs) = .number (Number.ofFloat x)) ∨
      (∃ a, a.isRead = true ∧ w :: ws = [.operand a] ∧ w.chars ++ cs = a.chars) ∨
        Form.ofTrimmed (w.chars ++ cs)
          = .arithmetic (w.chars ++ cs) (Piece.scan (w.chars ++ cs)) := by
  -- What starts with neither a letter nor a quote is a literal or arithmetic.
  have hplain : ∀ c as, w.chars = c :: as → Column.isLetter c = false → c ≠ '"' →
      (∃ x, Literal.value? (w.chars ++ cs) = some x ∧
        Form.ofTrimmed (w.chars ++ cs) = .number (Number.ofFloat x)) ∨
        Form.ofTrimmed (w.chars ++ cs)
          = .arithmetic (w.chars ++ cs) (Piece.scan (w.chars ++ cs)) := by
    intro c as hw hletter hquote
    rw [hw]
    exact Form.ofTrimmed_of_not_isLetter _ hletter hquote
  have hrest : cs = [] → ws = [] := by
    intro hcs
    cases ws with
    | nil => rfl
    | cons v ws => exact absurd hcs h.ne_nil
  rcases List.isChain_cons.mp hsep with ⟨hnext, _⟩
  cases w with
  | symbol s =>
      rcases hplain s.char [] rfl (isLetter_symbol s) (by cases s <;> decide) with hnumber | harith
      · exact Or.inl hnumber
      · exact Or.inr (Or.inr harith)
  | operand a =>
      -- No word that follows the operand belongs to its name.
      have hstops := h.stopsAt fun v hv => hnext v hv rfl
      cases a with
      | literal n =>
          rcases (Operand.literal n).exists_cons with ⟨c, as, hcs, hc⟩
          have hcontinues := Numeral.plain_of_continues (show Numeral.continues c = true from hc)
          rcases hplain c as hcs hcontinues.2.1 hcontinues.1 with hnumber | harith
          · exact Or.inl hnumber
          · exact Or.inr (Or.inr harith)
      | cell n =>
          refine Or.inr ?_
          have hform := n.ofTrimmed_append (fun c hc => Numeral.isDigit_of_continues
            (hstops.1 c hc)) hstops.2
          by_cases hcs : cs = []
          · refine Or.inl ⟨.cell n, rfl, by rw [hrest hcs], ?_⟩
            rw [hcs, List.append_nil]
            rfl
          · rw [if_neg hcs] at hform
            exact Or.inr hform
      | call n =>
          refine Or.inr ?_
          have hform := n.ofTrimmed_append cs
          by_cases hcs : cs = []
          · refine Or.inl ⟨.call n, rfl, by rw [hrest hcs], ?_⟩
            rw [hcs, List.append_nil]
            rfl
          · rw [if_neg hcs] at hform
            exact Or.inr hform

end Spells

end Arithmetic

end Spreadsheet
