import Spreadsheet.Proofs.Arithmetic.Splicing
import Spreadsheet.Proofs.Evaluate.Depth

/-!
# Substitution

An expression has the value of its syntax tree.

Evaluation never sees the tree. It writes the values of cells and calls into the
text, leaves out what cannot be part of arithmetic and reads the result. For an
expression that the grammar derives this is the same as computing the tree with
the number of each operand in its place, whatever the signs, sizes and digits of
these numbers, and the first error among the operands is the value of the whole.

A formula may also never come to arithmetic, since a literal, a cell or a call by
itself has a form of its own. For each of these the tree is a single operand, or
one with a minus sign, and has the same value.

## Main definitions

* `Scope.alone`: The value of an operand as a formula of its own.
* `Value.IsStored`: The errors, and the numbers that a recomputed cell can hold.
* `Scope.meaning`: The value of an expression by its syntax tree.

## Theorems

* `Scope.supplies`: A part of an expression has the value that it has alone.
* `Scope.exists_written`: What is written for an operand is read as its number.
* `Scope.evaluate_eq_meaning`: Splicing in texts is substituting values.
-/

namespace Spreadsheet

open Arithmetic

namespace Arithmetic

/-- How many levels an operand may take: one for the sign of a value. -/
def Operand.levels (a : Operand) : Nat := if a.isRead then 1 else 0

end Arithmetic

/-- The number that a value is computed with. -/
def Value.toDouble : Value → Float
  | number n => n.toDouble
  | _ => 0

/-- The value is an error, or a number that a recomputed cell can hold. -/
def Value.IsStored (v : Value) : Prop := v.isError = true ∨ ∃ n, v = number n ∧ n.IsStored

namespace Scope

variable {scope : Scope}

/-- The value of an operand as a formula of its own. -/
def alone (scope : Scope) (a : Operand) : Value :=
  scope.evaluate (String.ofList ('=' :: a.chars))

/-- The number that an operand stands for. -/
def number (scope : Scope) : Operand → Float
  | .literal n => n.value
  | a => (scope.alone a).toDouble

/-- The value of an expression by its syntax tree: the first error among the
    operands, or what is computed with their numbers. -/
def meaning (scope : Scope) (e : Expression Operand) : Value :=
  match firstError? scope.alone e.operands with
  | some v => v
  | none =>
    match e.value scope.number with
    | .ok x => .ofFloat x
    | .error _ => .failure

theorem evaluate_formula (cs : List Char) :
    scope.evaluate (String.ofList ('=' :: cs)) = scope.expression cs :=
  evaluate_eq_expression String.toList_ofList

theorem alone_eq (a : Operand) : scope.alone a = scope.expression a.chars :=
  evaluate_formula a.chars

/-- Only a range is not the value of the expression as it is. -/
theorem expression_of_value? {cs : List Char} {v : Value}
    (h : scope.value? depthLimit cs = some v) (hv : v.IsPlain) : scope.expression cs = v := by
  rw [expression, h]
  cases v with
  | range r => exact absurd rfl (hv r)
  | text s => rfl
  | number n => rfl
  | bool b => rfl
  | error code => rfl

/-- Arithmetic on nothing but characters is done on these characters. -/
theorem expression_of_map_plain {cs text out : List Char}
    (h : Form.ofTrimmed (Text.trim cs) = .arithmetic text (out.map .plain)) :
    scope.expression cs = valueOf text out := by
  have hvalue : scope.value? depthLimit cs = some (valueOf text out) :=
    (Yields.arithmetic h (splice_map_plain out)).value?_eq
  exact expression_of_value? hvalue (Value.isPlain_valueOf _ _)

/-- Blanks around an expression do not matter. -/
theorem expression_congr {as bs : List Char} (h : Text.trim as = Text.trim bs) :
    scope.expression as = scope.expression bs := by
  have hvalue : scope.value? depthLimit as = scope.value? depthLimit bs := by
    rw [show depthLimit = 399 + 1 from rfl, value?, value?, h]
  rw [expression, expression, hvalue]

/-- What an operand is alone is the value of its text. -/
theorem value_eq_alone {a : Operand} {v : Value} (hstored : (scope.alone a).IsStored)
    (h : scope.value? depthLimit a.chars = some v) : v = scope.alone a := by
  rw [alone_eq] at hstored ⊢
  refine (expression_of_value? h fun r hr => ?_).symm
  -- The text of a range is neither an error nor a number.
  rw [expression, h, hr] at hstored
  rcases hstored with herror | ⟨n, hn, _⟩
  · cases herror
  · cases hn

/-- The value of a cell at any depth. -/
theorem value?_cell (n : CellName) (depth : Nat) :
    scope.value? (depth + 1) n.chars = some (scope.cells.valueAt (String.ofList n.chars)) := by
  have htrim : Text.trim n.chars = n.chars := (Word.operand (Operand.cell n)).trim_chars
  have hform := n.ofTrimmed_append (Text.StopsAt.nil _) (by decide)
  rw [if_pos rfl, List.append_nil] at hform
  exact (Yields.cell (htrim.symm ▸ hform)).value?_eq

/-- A part of an expression has the value that it has alone. -/
theorem supplies {cs text : List Char} {depth : Nat} (hdepth : depthLimit = depth + 1)
    (hform : Form.ofTrimmed (Text.trim cs) = .arithmetic text (Piece.scan text))
    (hnested : Formula.nestedWithin depthLimit cs = true) {a : Operand}
    (hpieces : ∀ p ∈ a.pieces, p ∈ Piece.scan text)
    (hstored : a.isRead = true → (scope.alone a).IsStored) :
    Supplies scope (scope.value? depth) scope.alone a := by
  intro hread p hp
  cases a with
  | literal n => cases hread
  | cell n =>
      rw [List.mem_singleton.mp hp, insertion,
        ← value_eq_alone (hstored hread) (value?_cell n 399)]
  | call n =>
      have hmem := hpieces p hp
      rw [List.mem_singleton.mp hp] at hmem ⊢
      -- The text of the call is a part, so that it is not nested too deep.
      have hpart : n.chars ∈ (Form.ofTrimmed (Text.trim cs)).parts := by
        rw [hform]
        exact Form.mem_parts_of_piece hmem
      rw [hdepth] at hnested
      rcases exists_of_nestedWithin (Formula.nestedWithin_part hnested hpart) with ⟨v, hv⟩
      have hvalue : scope.value? depthLimit n.chars = some v := by
        rw [hdepth]
        exact value?_succ hv
      rw [insertion, hv, Option.map_some, value_eq_alone (hstored hread) hvalue]

section Operands

variable {a : Operand} {as : List Operand}

theorem number_of_isRead (hread : a.isRead = true) {n : Number} (h : scope.alone a = .number n) :
    scope.number a = n.toDouble := by
  cases a with
  | literal n => cases hread
  | cell m =>
      show (scope.alone _).toDouble = _
      rw [h, Value.toDouble]
  | call m =>
      show (scope.alone _).toDouble = _
      rw [h, Value.toDouble]

theorem not_isError_of_firstError? (h : firstError? scope.alone as = none) (ha : a ∈ as)
    (hread : a.isRead = true) : (scope.alone a).isError = false := by
  unfold firstError? at h
  rw [← Bool.not_eq_true]
  exact List.find?_eq_none.mp h _ (List.mem_map_of_mem (List.mem_filter.mpr ⟨ha, hread⟩))

theorem exists_number (h : firstError? scope.alone as = none) (ha : a ∈ as)
    (hread : a.isRead = true) (hstored : (scope.alone a).IsStored) :
    ∃ n, scope.alone a = .number n ∧ n.IsStored := by
  rcases hstored with herror | hnumber
  · rw [not_isError_of_firstError? h ha hread] at herror
    cases herror
  · exact hnumber

/-- What is written for an operand is read as its number, and no character of it is
    left out. -/
theorem exists_written (h : firstError? scope.alone as = none) (ha : a ∈ as)
    (hstored : a.isRead = true → (scope.alone a).IsStored)
    (hback : ∀ x, scope.alone a = .number (.float x) → Double.ReadsBack x) :
    (∃ ts, IsWritten a.levels (a.written scope.alone) ts (scope.number a)) ∧
      ∀ c ∈ a.written scope.alone, survives c = true := by
  by_cases hread : a.isRead = true
  · rcases exists_number h ha hread (hstored hread) with ⟨n, hn, hn'⟩
    rw [Operand.written, if_pos hread, Operand.levels, if_pos hread, number_of_isRead hread hn, hn]
    exact exists_isWritten hn' fun x hx => hback x (by rw [hn, hx])
  · rw [Operand.written, if_neg hread, Operand.levels, if_neg hread]
    cases a with
    | literal n => exact ⟨⟨_, isWritten_numeral n⟩, survives_of_mem_numeral⟩
    | cell n => exact absurd rfl hread
    | call n => exact absurd rfl hread

end Operands

/-- No character of a row that is written out is left out. -/
theorem survives_written {ws : List (Word Operand)}
    (h : ∀ a ∈ ws.filterMap Word.operand?, ∀ c ∈ a.written scope.alone, survives c = true) :
    ∀ c ∈ ws.flatMap (Word.written (Operand.written scope.alone)), survives c = true := by
  intro c hc
  rcases List.mem_flatMap.mp hc with ⟨w, hw, hc⟩
  cases w with
  | symbol s =>
      rw [List.mem_singleton.mp hc]
      exact survives_symbol s
  | operand a => exact h a (List.mem_filterMap.mpr ⟨_, hw, rfl⟩) c hc

section Meaning

variable {ws : List (Word Operand)} {e : Expression Operand}

theorem meaning_of_error {v : Value} (h : firstError? scope.alone e.operands = some v) :
    scope.meaning e = v := by
  rw [meaning, h]

theorem meaning_of_ok {x : Float} (h : firstError? scope.alone e.operands = none)
    (hx : e.value scope.number = .ok x) : scope.meaning e = .ofFloat x := by
  rw [meaning, h]
  simp only [hx]

/-- The value of a row that is written out is that of its tree. -/
theorem valueOf_eq_meaning (h : Derives .sum ws e)
    (hnesting : e.nesting Operand.levels < Arithmetic.depthLimit)
    (hstored : ∀ a ∈ e.operands, a.isRead = true → (scope.alone a).IsStored)
    (hback : ∀ a ∈ e.operands, ∀ x, scope.alone a = .number (.float x) → Double.ReadsBack x)
    (hnone : firstError? scope.alone e.operands = none) {text out : List Char}
    (hout : out.filter survives
      = (ws.flatMap (Word.written (Operand.written scope.alone))).filter survives) :
    valueOf text out = scope.meaning e := by
  -- All operands are numbers here, written so that they are read back.
  have hwritten := fun a ha => exists_written hnone ha (hstored a ha) (hback a ha)
  have hsurvives : ∀ c ∈ ws.flatMap (Word.written (Operand.written scope.alone)),
      survives c = true :=
    survives_written fun a ha => (hwritten a (by rwa [← h.filterMap_operand?])).2
  rcases h.evaluate_eq (fun a ha => (hwritten a ha).1) hnesting with ⟨hne, hvalue⟩
  rw [List.filter_eq_self.mpr hsurvives] at hout
  unfold valueOf
  simp only [hout]
  rw [List.isEmpty_eq_false_iff.mpr hne, if_neg Bool.false_ne_true, hvalue]
  unfold meaning
  rewrite [hnone]
  cases e.value scope.number with
  | error v => rfl
  | ok x => rfl

/-- A row that is a literal has the value of the literal. -/
theorem meaning_of_value? (h : Derives .sum ws e)
    (hfinite : ∀ n, .literal n ∈ e.operands → n.value.isFinite = true) {text : List Char}
    {x : Float} (hspells : Spells ws text) (hx : Literal.value? text = some x) :
    scope.meaning e = .number (.ofFloat x) := by
  rcases hspells.of_value? h.separated hx with ⟨n, hrow⟩
  -- A literal is a numeral, or a numeral behind a sign.
  have hoperands : e.operands = [.literal n] := by
    rw [← h.filterMap_operand?]
    rcases hrow with ⟨rfl, _⟩ | ⟨rfl, _⟩
    · rfl
    · rfl
  have hnone : firstError? scope.alone e.operands = none := by
    rw [hoperands]
    rfl
  have hn := hfinite n (by rw [hoperands]; exact List.mem_singleton_self _)
  have hvalue : e.value scope.number = .ok x ∧ x.isFinite = true := by
    rcases hrow with ⟨rfl, rfl⟩ | ⟨rfl, rfl⟩
    · exact ⟨h.value_eq (.ofProduct (.ofFactor (.operand _))), hn⟩
    · exact ⟨h.value_eq (.ofProduct (.ofFactor (.negative (.operand _)))), Double.isFinite_neg hn⟩
  rw [meaning_of_ok hnone hvalue.1, Value.ofFloat, if_pos hvalue.2]

/-- A row that is a cell or a call has the value of that operand. -/
theorem meaning_of_operand {a : Operand} (h : Derives .sum [.operand a] e) (hread : a.isRead = true)
    (hstored : (scope.alone a).IsStored) : scope.meaning e = scope.alone a := by
  have hoperands : e.operands = [a] := h.filterMap_operand?.symm
  by_cases herror : (scope.alone a).isError = true
  · refine meaning_of_error ?_
    rw [hoperands, firstError?_cons, if_pos ⟨hread, herror⟩]
  · have hnone : firstError? scope.alone e.operands = none := by
      rw [hoperands, firstError?_cons, if_neg fun hc => herror hc.2]
      rfl
    rcases exists_number hnone (by rw [hoperands]; exact List.mem_singleton_self a) hread
      hstored with ⟨n, hn, hn'⟩
    -- What is computed is the double of the number, which is stored as the number again.
    rw [meaning_of_ok hnone (h.value_eq (.ofProduct (.ofFactor (.operand a)))),
      number_of_isRead hread hn, Value.ofFloat, if_pos (Number.isFinite_toDouble hn'),
      Number.ofFloat_toDouble hn', hn]

/-- The value of arithmetic is that of its syntax tree. -/
theorem expression_eq_meaning_of_arithmetic {text : List Char} {cs : List Char} {depth : Nat}
    (h : Derives .sum ws e) (hspells : Spells ws text) (hdepth : depthLimit = depth + 1)
    (hform : Form.ofTrimmed (Text.trim cs) = .arithmetic text (Piece.scan text))
    (hnesting : e.nesting Operand.levels < Arithmetic.depthLimit)
    (hsupply : ∀ a ∈ ws.filterMap Word.operand?,
      Supplies scope (scope.value? depth) scope.alone a)
    (hstored : ∀ a ∈ e.operands, a.isRead = true → (scope.alone a).IsStored)
    (hback : ∀ a ∈ e.operands, ∀ x, scope.alone a = .number (.float x) → Double.ReadsBack x) :
    scope.expression cs = scope.meaning e := by
  have herror : ∀ {v}, scope.splice (scope.value? depth) (Piece.scan text) = some (.error v) →
      scope.value? depthLimit cs = some v := by
    intro v hv
    rw [hdepth]
    exact (Yields.error hform hv).value?_eq
  have hok : ∀ {out}, scope.splice (scope.value? depth) (Piece.scan text) = some (.ok out) →
      scope.value? depthLimit cs = some (valueOf text out) := by
    intro out hout
    rw [hdepth]
    exact (Yields.arithmetic hform hout).value?_eq
  -- Splicing stops at the first error among the operands, and so does the syntax tree.
  cases hfirst : firstError? scope.alone (ws.filterMap Word.operand?) with
  | some v =>
      have hv : v.isError = true := List.find?_some hfirst
      rw [expression_of_value? (herror (hspells.splice_error h.separated hsupply hfirst))
        (Value.isPlain_of_isError hv)]
      rw [h.filterMap_operand?] at hfirst
      exact (meaning_of_error hfirst).symm
  | none =>
      -- Without an error, the operands are written out and arithmetic reads them.
      rcases hspells.exists_splice h.separated hsupply hfirst with ⟨out, hout, hfilter⟩
      rw [expression_of_value? (hok hout) (Value.isPlain_valueOf _ _)]
      rw [h.filterMap_operand?] at hfirst
      exact valueOf_eq_meaning h hnesting hstored hback hfirst hfilter

end Meaning

/-- The value of a formula is that of its syntax tree with values for the operands:
    to splice in texts is to substitute values. -/
theorem evaluate_eq_meaning {ws : List (Word Operand)} {cs : List Char} {e : Expression Operand}
    (h : Derives .sum ws e) (hspells : Spells ws cs)
    (hnesting : e.nesting Operand.levels < Arithmetic.depthLimit)
    (hnested : Formula.nestedWithin depthLimit cs = true)
    (hfinite : ∀ n, .literal n ∈ e.operands → n.value.isFinite = true)
    (hstored : ∀ a ∈ e.operands, a.isRead = true → (scope.alone a).IsStored)
    (hback : ∀ a ∈ e.operands, ∀ x, scope.alone a = .number (.float x) → Double.ReadsBack x) :
    scope.evaluate (String.ofList ('=' :: cs)) = scope.meaning e := by
  rw [evaluate_formula]
  cases ws with
  | nil => exact absurd rfl h.ne_nil
  | cons w ws =>
      rcases hspells.trim with ⟨rest, htrim, hrest⟩
      have htext : Spells (w :: ws) (w.chars ++ rest) :=
        @Spells.cons [] w ws rest (List.forall_mem_nil _) hrest
      rcases hrest.ofTrimmed_cases h.separated with ⟨x, hx, hform⟩ | ⟨a, hread, hrow, ha⟩ | hform
      · -- The formula is a literal.
        have hvalue : scope.value? depthLimit cs = some (.number (.ofFloat x)) :=
          (Yields.number (htrim ▸ hform)).value?_eq
        rw [expression_of_value? hvalue fun _ heq => Value.noConfusion heq,
          meaning_of_value? h hfinite htext hx]
      · -- The formula is a cell or a call.
        have hcongr : Text.trim cs = Text.trim a.chars := by
          rw [htrim, ha]
          exact ((Word.operand a).trim_chars).symm
        rw [hrow] at h
        have hmem : a ∈ e.operands := by
          rw [← h.filterMap_operand?]
          exact List.mem_singleton_self a
        rw [expression_congr hcongr, ← alone_eq, meaning_of_operand h hread (hstored a hmem hread)]
      · -- The formula is arithmetic.
        rw [← htrim] at hform htext
        have hsupply : ∀ a ∈ (w :: ws).filterMap Word.operand?,
            Supplies scope (scope.value? 399) scope.alone a := by
          intro a ha
          have hmem : a ∈ e.operands := by rwa [← h.filterMap_operand?]
          exact supplies rfl hform hnested (htext.mem_scan h.separated ha) (hstored a hmem)
        exact expression_eq_meaning_of_arithmetic h htext rfl hform hnesting hsupply hstored hback

/-- The signs of values stay with them: here `- -2.5*-2.5` is what is read. -/
theorem evaluate_negative_sum :
    let scope : Scope := ⟨.ofList [("A1", { value := "-2.5" })], .builtins⟩
    let a : Operand := .cell ⟨['A'], ['1'], by decide, by decide,
      List.all_eq_true.mp (by decide), List.all_eq_true.mp (by decide)⟩
    let b : Operand := .call ⟨['S', 'U', 'M'], ['A', '1'], by decide, List.all_eq_true.mp (by decide),
      .plain (by decide) (by decide) (.plain (by decide) (by decide) .nil), by decide⟩
    scope.alone a = .number (.float (-2.5)) ∧ scope.alone b = .number (.float (-2.5)) ∧
      scope.evaluate "=- A1*SUM(A1)"
        = scope.meaning (.multiply (.negative (.operand a)) (.operand b)) := by
  intro scope a b
  have h : Derives .sum [.symbol .minus, .operand a, .symbol .times, .operand b]
      (.multiply (.negative (.operand a)) (.operand b)) :=
    .ofProduct (.multiply (.ofFactor (.negative (.operand a))) (.operand b))
  have hnil : ∀ c ∈ [], Text.isBlank c = true := List.forall_mem_nil _
  have hspells : Spells [.symbol .minus, .operand a, .symbol .times, .operand b]
      "- A1*SUM(A1)".toList :=
    @Spells.cons [] _ _ _ hnil (@Spells.cons [' '] _ _ _ (List.all_eq_true.mp (by decide))
      (@Spells.cons [] _ _ _ hnil (@Spells.cons [] _ _ _ hnil (@Spells.nil [] hnil))))
  have ha : scope.alone a = .number (.float (-2.5)) := by decide +kernel
  have hb : scope.alone b = .number (.float (-2.5)) := by decide +kernel
  have hall : ∀ c ∈ [a, b], scope.alone c = .number (.float (-2.5)) := by
    intro c hc
    rcases List.mem_pair.mp hc with rfl | rfl
    · exact ha
    · exact hb
  refine ⟨ha, hb, evaluate_eq_meaning h hspells (by decide) (by decide +kernel) (fun n hn => ?_)
    (fun c hc _ => Or.inr ⟨_, hall c hc, by decide +kernel, by decide +kernel⟩)
    fun c hc x hx => ?_⟩
  · -- There are no literals.
    rcases List.mem_pair.mp hn with heq | heq
    · exact Operand.noConfusion heq
    · exact Operand.noConfusion heq
  · rw [hall c hc] at hx
    rw [← Number.float.inj (Value.number.inj hx)]
    decide +kernel

end Scope

end Spreadsheet
