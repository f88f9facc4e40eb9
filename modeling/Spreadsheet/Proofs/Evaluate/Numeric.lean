import Spreadsheet.Proofs.Arithmetic.Lexing
import Spreadsheet.Proofs.Evaluate.Blank
import Spreadsheet.Proofs.Evaluate.Inert

/-!
# Numbers in Arithmetic

Whether a number is the same in arithmetic as by itself.

A formula that is a number never comes to arithmetic. Written in parentheses, or with
zero added, it does, and two other readers are at work: what cannot be part of
arithmetic is left out, and the rest is cut into tokens. Signs, points at the front and
digits after a point are read alike by all of them. The digits are not. A number may
have the digits of any script, and arithmetic keeps only the ten of ASCII. So the value
is that of the digits which are kept, or an error if there are none, and it is the same
as before just if the digits that are left out do not matter.

## Main definitions

* `SpellsSigned`: The texts of numbers with a minus sign or without one.
* `IsComputedAs`: A text has a number as its value in parentheses and with zero added.

## Theorems

* `SpellsSigned.exists_isWritten`: What survives is read as the number.
* `SpellsSigned.filter_cases`: What survives of a number is one, or has no digit.
* `Scope.evaluate_of_forall`: The value of an expression without quotes and letters.
* `Literal.evaluate_between`: The value of an expression with a number in it.
* `isComputedAs_iff`: When a number is the same in arithmetic.
* `not_isComputedAs_three`: A digit of another script is lost.
-/

namespace Spreadsheet

namespace Arithmetic

/-- The text of a number, with a minus sign or without one. -/
inductive SpellsSigned : List Char → Float → Prop where
  | positive {ds : List Char} {x : Float} (spells : SpellsNumber ds x) : SpellsSigned ds x
  | negative {ds : List Char} {x : Float} (spells : SpellsNumber ds x) :
      SpellsSigned ('-' :: ds) (-x)

/-- What can be part of arithmetic is no quote, no backslash and no letter, and its
    digits are the ten of ASCII. -/
theorem plain_of_survives {c : Char} (h : survives c = true) :
    (c ≠ '"' ∧ c ≠ '\\' ∧ Column.isLetter c = false) ∧
      (Text.isDigit c = true → Text.isAsciiDigit c = true) := by
  rcases cases_of_survives h with hascii | hsymbol
  · refine ⟨⟨?_, ?_, Text.isLetter_of_isAsciiDigit hascii⟩, fun _ => hascii⟩
    · rintro rfl
      cases hascii
    · rintro rfl
      cases hascii
  · have hall : ("+-*/().".toList.all fun c => c ≠ '"' ∧ c ≠ '\\' ∧
        Column.isLetter c = false ∧ Text.isDigit c = false) = true := by decide
    have hnot := of_decide_eq_true (List.all_eq_true.mp hall c hsymbol)
    refine ⟨⟨hnot.1, hnot.2.1, hnot.2.2.1⟩, fun hdigit => ?_⟩
    rw [hnot.2.2.2] at hdigit
    cases hdigit

namespace SpellsSigned

variable {ds : List Char} {x : Float}

/-- A literal spells its value. -/
theorem of_value? (h : Literal.value? ds = some x) : SpellsSigned ds x := by
  rcases Numeral.value?_cases h with hx | ⟨ds, y, rfl, hy, rfl⟩
  · exact .positive (.of_unsigned? hx)
  · exact .negative (.of_unsigned? hy)

/-- A number whose characters survive is read as the number. -/
theorem exists_isWritten (h : SpellsSigned ds x) (hds : ∀ c ∈ ds, survives c = true) :
    ∃ ts, IsWritten 1 ds ts x := by
  have hascii : ∀ c ∈ ds, Text.isDigit c = true → Text.isAsciiDigit c = true :=
    fun c hc => (plain_of_survives (hds c hc)).2
  cases h with
  | positive spells =>
      rcases spells.exists_numeral hascii with ⟨m, rfl, rfl⟩
      exact ⟨_, (isWritten_numeral m).mono (Nat.zero_le 1)⟩
  | negative spells =>
      rcases spells.exists_numeral fun c hc => hascii c (List.mem_cons_of_mem _ hc) with
        ⟨m, rfl, rfl⟩
      exact ⟨_, (isWritten_numeral m).minus⟩

/-- What survives of a number without a sign is one, unless no digit does. -/
theorem filter_cases_of_spellsNumber (h : SpellsNumber ds x) :
    (∃ y, SpellsNumber (ds.filter survives) y) ∨
      ds.filter survives = [] ∨ ds.filter survives = ['.'] := by
  have hfilter : ∀ {ds : List Char}, (∀ c ∈ ds, Text.isDigit c = true) →
      ∀ c ∈ ds.filter survives, Text.isDigit c = true :=
    fun hds c hc => hds c (List.mem_filter.mp hc).1
  cases h with
  | whole digits _ =>
      by_cases hnil : ds.filter survives = []
      · exact Or.inr (Or.inl hnil)
      · exact Or.inl ⟨_, .whole (hfilter digits) hnil⟩
  | @point ds es digits fraction _ =>
      rw [List.filter_append, List.filter_cons_of_pos (by decide)]
      -- The point stays, and one digit beside it is enough.
      by_cases hnil : ds.filter survives = [] ∧ es.filter survives = []
      · rw [hnil.1, hnil.2]
        exact Or.inr (Or.inr rfl)
      · rw [not_and_or] at hnil
        exact Or.inl ⟨_, .point (hfilter digits) (hfilter fraction) hnil⟩

/-- What survives of a number is one, unless no digit does. -/
theorem filter_cases (h : SpellsSigned ds x) :
    (∃ y, SpellsSigned (ds.filter survives) y) ∨
      ds.filter survives ∈ [[], ['.'], ['-'], ['-', '.']] := by
  cases h with
  | positive spells =>
      rcases filter_cases_of_spellsNumber spells with ⟨y, hspells⟩ | hnil | hpoint
      · exact Or.inl ⟨y, .positive hspells⟩
      · exact Or.inr (by rw [hnil]; decide)
      · exact Or.inr (by rw [hpoint]; decide)
  | negative spells =>
      rw [List.filter_cons_of_pos (by decide)]
      rcases filter_cases_of_spellsNumber spells with ⟨y, hspells⟩ | hnil | hpoint
      · exact Or.inl ⟨-y, .negative hspells⟩
      · exact Or.inr (by rw [hnil]; decide)
      · exact Or.inr (by rw [hpoint]; decide)

end SpellsSigned

/-- An expression of numbers that are written out is computed. -/
theorem evaluate_written {ws : List (Word (List Char × Float))}
    {e : Expression (List Char × Float)} (h : Derives .sum ws e)
    (hwrite : ∀ a ∈ e.operands, ∃ ts, IsWritten 1 a.1 ts a.2)
    (hnesting : e.nesting (fun _ => 1) < depthLimit) :
    evaluate (ws.flatMap (Word.written Prod.fst)) = e.value Prod.snd :=
  (h.evaluate_eq hwrite hnesting).2

/-- Parentheses around a number do not change it. -/
theorem evaluate_group {ds : List Char} {x : Float} (h : ∃ ts, IsWritten 1 ds ts x) :
    evaluate ('(' :: (ds ++ [')'])) = .ok x := by
  have hderives : Derives .sum [.symbol .opening, .operand (ds, x), .symbol .closing]
      (.group (.operand (ds, x))) :=
    .ofProduct (.ofFactor (.group (.ofProduct (.ofFactor (.operand (ds, x))))))
  refine evaluate_written hderives (fun a ha => ?_) (show 2 < 400 by decide)
  rw [List.mem_singleton.mp ha]
  exact h

/-- Zero is added to a number. -/
theorem evaluate_add_zero {ds : List Char} {x : Float} (h : ∃ ts, IsWritten 1 ds ts x) :
    evaluate (ds ++ ['+', '0']) = .ok (x + 0) := by
  -- Zero is written as a numeral, and the sum has two operands.
  let zero : Numeral := ⟨['0'], none, List.all_eq_true.mp (by decide), fun _ h => (by cases h),
    by decide⟩
  have hzero : zero.value = 0 := by decide +kernel
  have hderives : Derives .sum [.operand (ds, x), .symbol .plus, .operand (['0'], zero.value)]
      (.add (.operand (ds, x)) (.operand (['0'], zero.value))) :=
    .add (.ofProduct (.ofFactor (.operand (ds, x)))) (.ofFactor (.operand _))
  rw [← hzero]
  refine evaluate_written hderives (fun a ha => ?_) (show 1 < 400 by decide)
  rcases List.mem_pair.mp ha with rfl | rfl
  · exact h
  · exact ⟨_, (isWritten_numeral zero).mono (Nat.zero_le 1)⟩

/-- Parentheses without a digit between them are an error. -/
theorem evaluate_group_of_mem {ds : List Char} (h : ds ∈ [[], ['.'], ['-'], ['-', '.']]) :
    Value.ofArithmetic (evaluate ('(' :: (ds ++ [')']))) = .failure := by
  revert ds
  decide +kernel

end Arithmetic

/-- An expression without quotes, backslashes and letters has the value of what
    arithmetic keeps of it, if there is a symbol in it that no number has. -/
theorem Scope.evaluate_of_forall {cs : List Char}
    (h : ∀ c ∈ cs, c ≠ '"' ∧ c ≠ '\\' ∧ Column.isLetter c = false) {s : Arithmetic.Symbol}
    (hmem : s.char ∈ cs) (hminus : s ≠ .minus) (scope : Scope) :
    scope.evaluate (String.ofList ('=' :: cs))
      = .ofArithmetic (Arithmetic.evaluate (cs.filter Arithmetic.survives)) := by
  have hquoted : Form.isQuoted (Text.trim cs) = false :=
    Form.isQuoted_of_head? fun hhead => (h _ (Text.mem_of_mem_trim (List.mem_of_head? hhead))).1 rfl
  have hvalue : Literal.value? (Text.trim cs) = none := by
    cases hliteral : Literal.value? (Text.trim cs) with
    | none => rfl
    | some x =>
        -- The symbol would be a part of the number.
        have hpart := Numeral.continues_of_value? hliteral _
          (Text.mem_trim hmem (Arithmetic.isBlank_symbol s))
        rw [Arithmetic.continues_symbol] at hpart
        exfalso
        cases s with
        | minus => exact hminus rfl
        | _ => exact absurd hpart (by decide)
  exact evaluate_of_isInert (Piece.IsInert.of_forall h) hquoted hvalue
    (List.ne_nil_of_mem (List.mem_filter.mpr ⟨hmem, Arithmetic.survives_symbol s⟩)) scope

namespace Literal

variable {cs : List Char} {x : Float}

/-- Around a literal there is nothing but blanks. -/
theorem plain_of_value? (h : value? (Text.trim cs) = some x) :
    ∀ c ∈ cs, c ≠ '"' ∧ c ≠ '\\' ∧ Column.isLetter c = false := by
  intro c hc
  by_cases hblank : Text.isBlank c = true
  · refine ⟨(Arithmetic.plain_of_isBlank hblank).1, ?_, (Arithmetic.plain_of_isBlank hblank).2⟩
    rintro rfl
    exact absurd hblank (by decide)
  · rw [Bool.not_eq_true] at hblank
    rcases Numeral.continues_of_value? h c (Text.mem_trim hc hblank) with rfl | hcontinues
    · decide
    · rcases Numeral.plain_of_continues hcontinues with ⟨hquote, hletter, _⟩
      refine ⟨hquote, ?_, hletter⟩
      rintro rfl
      exact absurd hcontinues (by decide)

/-- With something around it that makes it arithmetic, a literal is replaced by what
    arithmetic keeps of it. -/
theorem evaluate_between (h : value? (Text.trim cs) = some x) {front back : List Char}
    (hsurvives : ∀ c ∈ front ++ back, Arithmetic.survives c = true) {s : Arithmetic.Symbol}
    (hmem : s.char ∈ front ++ back) (hminus : s ≠ .minus) (scope : Scope) :
    scope.evaluate (String.ofList ('=' :: (front ++ (cs ++ back))))
      = .ofArithmetic
          (Arithmetic.evaluate (front ++ (cs.filter Arithmetic.survives ++ back))) := by
  -- What stands around the literal is kept, and the literal has nothing to find in it.
  have hmove : ∀ c, c ∈ front ++ (cs ++ back) ↔ c ∈ cs ∨ c ∈ front ++ back := by
    intro c
    simp only [List.mem_append]
    tauto
  have hplain : ∀ c ∈ front ++ (cs ++ back), c ≠ '"' ∧ c ≠ '\\' ∧ Column.isLetter c = false := by
    intro c hc
    rcases (hmove c).mp hc with hc | hc
    · exact plain_of_value? h c hc
    · exact (Arithmetic.plain_of_survives (hsurvives c hc)).1
  have hfront := List.filter_eq_self.mpr fun c hc => hsurvives c (List.mem_append_left back hc)
  have hback := List.filter_eq_self.mpr fun c hc => hsurvives c (List.mem_append_right front hc)
  rw [Scope.evaluate_of_forall hplain ((hmove _).mpr (Or.inr hmem)) hminus, List.filter_append,
    List.filter_append, hfront, hback]

end Literal

/-- What is read as a number is one, since no number has quotes. -/
theorem Form.ofTrimmed_of_value? {cs : List Char} {x : Float} (h : Literal.value? cs = some x) :
    ofTrimmed cs = .number (Number.ofFloat x) := by
  have hquoted : isQuoted cs = false :=
    isQuoted_of_head? fun hhead => (Numeral.plain_of_value? h _ (List.mem_of_head? hhead)).1 rfl
  cases cs with
  | nil => cases h
  | cons c cs =>
      rw [ofTrimmed, List.isEmpty_cons, hquoted, h]
      rfl

/-- In parentheses and with zero added, a text has the number as its value on every
    sheet. -/
def IsComputedAs (cs : List Char) (n : Number) : Prop :=
  ∀ scope : Scope, scope.evaluate (String.ofList ('=' :: '(' :: (cs ++ [')']))) = .number n ∧
    scope.evaluate (String.ofList ('=' :: (cs ++ ['+', '0']))) = .number n

/-- Arithmetic gives a literal the number that the characters spell which it keeps. -/
theorem isComputedAs_iff_spellsSigned {cs : List Char} {x : Float}
    (h : Literal.value? (Text.trim cs) = some x) (n : Number) :
    IsComputedAs cs n ↔ ∃ y, Arithmetic.SpellsSigned (cs.filter Arithmetic.survives) y ∧
      Value.ofFloat y = .number n := by
  have hgroup : ∀ scope : Scope, scope.evaluate (String.ofList ('=' :: '(' :: (cs ++ [')'])))
      = .ofArithmetic (Arithmetic.evaluate ('(' :: (cs.filter Arithmetic.survives ++ [')']))) :=
    @Literal.evaluate_between cs x h ['('] [')'] (List.all_eq_true.mp (by decide)) .opening
      (by decide) (by decide)
  have hadd : ∀ scope : Scope, scope.evaluate (String.ofList ('=' :: (cs ++ ['+', '0'])))
      = .ofArithmetic (Arithmetic.evaluate (cs.filter Arithmetic.survives ++ ['+', '0'])) :=
    @Literal.evaluate_between cs x h [] ['+', '0'] (List.all_eq_true.mp (by decide)) .plus
      (by decide) (by decide)
  have hkept : ∀ c ∈ cs.filter Arithmetic.survives, Arithmetic.survives c = true :=
    fun c hc => (List.mem_filter.mp hc).2
  constructor
  · intro hcomputed
    have hvalue := (hcomputed ⟨∅, .builtins⟩).1
    rw [hgroup] at hvalue
    -- Without a digit there would be no number.
    have hcases := (Arithmetic.SpellsSigned.of_value? h).filter_cases
    rw [Arithmetic.filter_trim] at hcases
    rcases hcases with ⟨y, hy⟩ | hnone
    · rw [Arithmetic.evaluate_group (hy.exists_isWritten hkept)] at hvalue
      exact ⟨y, hy, hvalue⟩
    · rw [Arithmetic.evaluate_group_of_mem hnone] at hvalue
      cases hvalue
  · rintro ⟨y, hy, hvalue⟩ scope
    -- Parentheses and zero leave the number that is spelled as it is.
    have hwritten := hy.exists_isWritten hkept
    rw [hgroup, hadd, Arithmetic.evaluate_group hwritten, Arithmetic.evaluate_add_zero hwritten,
      ← hvalue]
    exact ⟨rfl, (Double.alike_add_zero y Double.isZero_zero).value_eq⟩

/-- A literal with the ten digits of ASCII is kept as it is. -/
theorem Literal.filter_survives {cs : List Char} {x : Float}
    (h : value? (Text.trim cs) = some x)
    (hdigits : ∀ c ∈ cs, Text.isDigit c = true → Text.isAsciiDigit c = true) :
    cs.filter Arithmetic.survives = Text.trim cs := by
  rw [← Arithmetic.filter_trim, List.filter_eq_self]
  intro c hc
  rcases Numeral.continues_of_value? h c hc with rfl | hcontinues
  · decide
  · rcases Bool.or_eq_true_iff.mp hcontinues with hdigit | hpoint
    · rw [Arithmetic.survives, hdigits c (Text.mem_of_mem_trim hc) hdigit, Bool.true_or]
    · rw [beq_iff_eq.mp hpoint]
      decide

/-- A formula that is a finite number has the same number as its value in arithmetic
    just if the characters that arithmetic keeps of it spell that number. This is so
    whenever its digits are those of ASCII. -/
theorem isComputedAs_iff {cs : List Char} {x : Float}
    (h : Literal.value? (Text.trim cs) = some x) (hfinite : x.isFinite = true) :
    (∀ scope : Scope, scope.evaluate (String.ofList ('=' :: cs)) = .number (.ofFloat x)) ∧
      (IsComputedAs cs (.ofFloat x) ↔
        ∃ y, Arithmetic.SpellsSigned (cs.filter Arithmetic.survives) y ∧
          Value.ofFloat y = .number (.ofFloat x)) ∧
      ((∀ c ∈ cs, Text.isDigit c = true → Text.isAsciiDigit c = true) →
        IsComputedAs cs (.ofFloat x)) := by
  have hiff := isComputedAs_iff_spellsSigned h (.ofFloat x)
  refine ⟨fun scope => ?_, hiff, fun hdigits => hiff.mpr ⟨x, ?_, ?_⟩⟩
  · have hvalue : scope.value? Scope.depthLimit cs = some (.number (.ofFloat x)) :=
      (Scope.Yields.number (Form.ofTrimmed_of_value? h)).value?_eq
    rw [Scope.evaluate_formula, Scope.expression_of_value? hvalue fun r hr => by cases hr]
  · rw [Literal.filter_survives h hdigits]
    exact Arithmetic.SpellsSigned.of_value? h
  · rw [Value.ofFloat, if_pos hfinite]

/-- Blanks around a number, a point at the front and a sign make no difference. -/
theorem isComputedAs_fraction :
    let cs := " -.50 ".toList
    Literal.value? (Text.trim cs) = some (-0.5) ∧ (-0.5 : Float).isFinite = true ∧
      (∀ c ∈ cs, Text.isDigit c = true → Text.isAsciiDigit c = true) ∧
      IsComputedAs cs (.float (-0.5)) := by
  intro cs
  have hvalue : Literal.value? (Text.trim cs) = some (-0.5) := by decide +kernel
  have hfinite : (-0.5 : Float).isFinite = true := by decide +kernel
  have hdigits : ∀ c ∈ cs, Text.isDigit c = true → Text.isAsciiDigit c = true := by
    intro c hc hdigit
    have hall : cs.all (fun c => !Text.isDigit c || Text.isAsciiDigit c) = true := by decide
    simpa [hdigit] using List.all_eq_true.mp hall c hc
  have hcomputed := (isComputedAs_iff hvalue hfinite).2.2 hdigits
  rw [show Number.ofFloat (-0.5) = .float (-0.5) by decide +kernel] at hcomputed
  exact ⟨hvalue, hfinite, hdigits, hcomputed⟩

/-- An Arabic three is a number, and arithmetic keeps nothing of it. -/
theorem not_isComputedAs_three :
    ¬ ∀ (cs : List Char) (x : Float), Literal.value? (Text.trim cs) = some x →
      x.isFinite = true → IsComputedAs cs (.ofFloat x) := by
  intro hall
  have hthree := hall ['\u0663'] 3 (by decide +kernel) (by decide +kernel) ⟨∅, .builtins⟩
  exact absurd hthree.1 (by decide +kernel)

end Spreadsheet
