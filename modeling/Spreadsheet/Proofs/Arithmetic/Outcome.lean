import Spreadsheet.Proofs.Arithmetic.Levels
import Spreadsheet.Proofs.Arithmetic.Lexing

/-!
# What Becomes of a Text

The outcome of arithmetic for every text, whether it spells an expression or not.

A text that spells an expression comes to the value of the expression, or to a
division by zero if one of the divisors comes to zero. Any other text comes to no
value. The reader computes as it goes along, so it complains about the form of the
text only if no division by zero lies in front of the place where the form is wrong.

What lies in front of that place is the beginning of some expression.
`DividesByZero` is the grammar of beginnings that end with a divisor that is zero: on
the way down to the division every operand to the left is complete, and nothing is
said about what is still open. A reader that comes to the end of such a beginning
stops there, whatever follows (`DividesByZero.read_eq`), and one that divides by zero
has read one. The second direction is about a reader that may take any turn, so it is
part of an account of all that can come of reading (`Accounts`). The loop over the
operators of a level keeps this account as long as its operands do.

## Main definitions

* `Expression.HasZeroDivisor`: A divisor of the expression comes to zero.
* `DividesByZero`, `MeetsZeroDivisor`: A row has a zero divisor in front of any fault.
* `Accounts`: What the result of a reader says about the row.

## Theorems

* `Expression.value_cases`: When an expression has a value.
* `DividesByZero.read_eq`: A zero divisor ends the reading.
* `Accounts.bind`: A reader that goes on behind another one.
* `Extends.accounts_chainAfter`: The loop over the operators of a level.
* `accounts_factor`, `accounts_sum`: What becomes of a row of tokens.
* `evaluate_outcome`: What becomes of a text.
-/

namespace Spreadsheet

/-- An error about the form of an expression. -/
def ArithmeticError.IsSyntax : ArithmeticError → Prop
  | unexpectedCharacter _ | emptyExpression | unbalanced | unexpectedToken _ => True
  | divisionByZero | tooDeep => False

namespace Arithmetic

namespace Expression

variable {α : Type}

/-- A divisor of the expression comes to zero. -/
def HasZeroDivisor (number : α → Float) : Expression α → Prop
  | operand _ => False
  | positive e | negative e | group e => e.HasZeroDivisor number
  | add s t | subtract s t | multiply s t => s.HasZeroDivisor number ∨ t.HasZeroDivisor number
  | divide s t => s.HasZeroDivisor number ∨ t.HasZeroDivisor number ∨
      ∃ y, t.value number = .ok y ∧ (y == 0) = true

/-- An expression has a value exactly if no divisor comes to zero. -/
theorem value_cases (number : α → Float) (e : Expression α) :
    (e.HasZeroDivisor number ∧ e.value number = .error .divisionByZero) ∨
      (¬ e.HasZeroDivisor number ∧ ∃ x, e.value number = .ok x) := by
  induction e with
  | operand a => exact Or.inr ⟨id, _, rfl⟩
  | positive e ih | group e ih => exact ih
  | negative e ih =>
      rcases ih with ⟨h, hv⟩ | ⟨h, x, hv⟩
      · exact Or.inl ⟨h, by rw [value, hv]; rfl⟩
      · exact Or.inr ⟨h, -x, by rw [value, hv]; rfl⟩
  | add s t ihs iht | subtract s t ihs iht | multiply s t ihs iht =>
      rcases ihs with ⟨hs, hv⟩ | ⟨hs, x, hv⟩
      · exact Or.inl ⟨Or.inl hs, by rw [value, hv]; rfl⟩
      · rcases iht with ⟨ht, hw⟩ | ⟨ht, y, hw⟩
        · exact Or.inl ⟨Or.inr ht, by rw [value, hv, hw]; rfl⟩
        · exact Or.inr ⟨not_or.mpr ⟨hs, ht⟩, _, by rw [value, hv, hw]; rfl⟩
  | divide s t ihs iht =>
      rcases ihs with ⟨hs, hv⟩ | ⟨hs, x, hv⟩
      · exact Or.inl ⟨Or.inl hs, by rw [value, hv]; rfl⟩
      · rcases iht with ⟨ht, hw⟩ | ⟨ht, y, hw⟩
        · exact Or.inl ⟨Or.inr (Or.inl ht), by rw [value, hv, hw]; rfl⟩
        · -- Both sides have values, and all depends on the one on the right.
          have hdivide : (divide s t).value number
              = if (y == 0) = true then .error .divisionByZero else .ok (x / y) := by
            rw [value, hv, hw]
            rfl
          by_cases hzero : (y == 0) = true
          · exact Or.inl ⟨Or.inr (Or.inr ⟨y, hw, hzero⟩), by rw [hdivide, if_pos hzero]⟩
          · refine Or.inr ⟨?_, _, by rw [hdivide, if_neg hzero]⟩
            rintro (h | h | ⟨z, hz, h⟩)
            · exact hs h
            · exact ht h
            · rw [hw, Except.ok.injEq] at hz
              exact hzero (hz ▸ h)

theorem value_eq_of_hasZeroDivisor {number : α → Float} {e : Expression α}
    (h : e.HasZeroDivisor number) : e.value number = .error .divisionByZero := by
  rcases e.value_cases number with ⟨_, hv⟩ | ⟨hnot, _⟩
  · exact hv
  · exact absurd h hnot

/-- Where an operand of an expression is missing for a division by zero, it does not
    matter whether the expression in front has a value. -/
theorem bind_divisionByZero (number : α → Float) (e : Expression α) :
    ((e.value number).bind fun _ => .error .divisionByZero : Except ArithmeticError Float)
      = .error .divisionByZero := by
  rcases e.value_cases number with ⟨_, hv⟩ | ⟨_, x, hv⟩
  · rw [hv]
    rfl
  · rw [hv]
    rfl

end Expression

/-- A row begins an expression of a level and ends with a divisor that comes to zero.
    The operands on the way to it are complete; what it stands in is still open. -/
inductive DividesByZero : Level → List (Word Float) → Prop where
  | divisor {vs ws : List (Word Float)} {s t : Expression Float} {y : Float}
      (hs : Derives .product vs s) (ht : Derives .factor ws t) (value : t.value id = .ok y)
      (zero : (y == 0) = true) : DividesByZero .product (vs ++ .symbol .divide :: ws)
  | positive {ws : List (Word Float)} (h : DividesByZero .factor ws) :
      DividesByZero .factor (.symbol .plus :: ws)
  | negative {ws : List (Word Float)} (h : DividesByZero .factor ws) :
      DividesByZero .factor (.symbol .minus :: ws)
  | group {ws : List (Word Float)} (h : DividesByZero .sum ws) :
      DividesByZero .factor (.symbol .opening :: ws)
  | ofFactor {ws : List (Word Float)} (h : DividesByZero .factor ws) : DividesByZero .product ws
  | multiply {vs ws : List (Word Float)} {s : Expression Float} (hs : Derives .product vs s)
      (h : DividesByZero .factor ws) : DividesByZero .product (vs ++ .symbol .times :: ws)
  | divide {vs ws : List (Word Float)} {s : Expression Float} (hs : Derives .product vs s)
      (h : DividesByZero .factor ws) : DividesByZero .product (vs ++ .symbol .divide :: ws)
  | ofProduct {ws : List (Word Float)} (h : DividesByZero .product ws) : DividesByZero .sum ws
  | add {vs ws : List (Word Float)} {s : Expression Float} (hs : Derives .sum vs s)
      (h : DividesByZero .product ws) : DividesByZero .sum (vs ++ .symbol .plus :: ws)
  | subtract {vs ws : List (Word Float)} {s : Expression Float} (hs : Derives .sum vs s)
      (h : DividesByZero .product ws) : DividesByZero .sum (vs ++ .symbol .minus :: ws)

/-- A zero divisor is met in a row of tokens before anything is wrong with its form. -/
def MeetsZeroDivisor (ts : List Token) : Prop :=
  ∃ front rest, ts = front ++ rest ∧ DividesByZero .sum (front.map Token.word)

/-- The reader of a level. -/
def Level.read (depth : Nat) : Level → Reader
  | factor => Arithmetic.factor depth
  | product => Arithmetic.product (Arithmetic.factor depth)
  | sum => Arithmetic.sum (Arithmetic.factor depth)

section Meeting

variable {operation? : Token → Option Operation} {operand : Reader}

/-- A chain fails with its first operand. -/
theorem chain_of_error {ts : List Token} {e : ArithmeticError} (h : operand ts = .error e) :
    chain operation? operand ts = .error e := by
  unfold chain
  rw [h]
  rfl

/-- A division by zero in an operand of a chain. -/
theorem AtLoop.chain_next {ss ts : List Token} {t : Token} {operation : Operation}
    {e : Expression Float} (hs : AtLoop operation? operand ss (e.value id) (t :: ts))
    (ht : operation? t = some operation) (hts : operand ts = .error .divisionByZero) :
    chain operation? operand (ss ++ t :: ts) = .error .divisionByZero := by
  have hnil : operand (ts ++ []) = (.error .divisionByZero : Except ArithmeticError Float).map
      (·, []) := by
    rw [List.append_nil, hts]
    rfl
  rw [← List.append_nil ts] at hs
  rcases hs.next ht hnil with ⟨n, _, hchain⟩
  rw [List.append_nil] at hchain
  rw [hchain]
  show ((e.value id).bind fun _ => .error .divisionByZero).bind _ = _
  rw [Expression.bind_divisionByZero]
  rfl

end Meeting

/-- What the reader of a level makes of a row of numbers and symbols. -/
theorem Derives.reads_tokens {level : Level} {ws : List (Word Float)} {e : Expression Float}
    (h : Derives level ws e) : Reads id (fun _ => 0) (rowTokens ws) e level :=
  h.reads fun x _ => isFactor_number x

/-- The levels that an expression takes are fewer than there are, if those of a row are
    that begins with it. -/
theorem Takes.lt_depth {outer : List Nat} {n m depth : Nat} {ws : List (Word Float)}
    (h : Takes outer n m ws) {rest : List Token}
    (hdepth : nestingFrom outer (some n) (rowTokens ws ++ rest) < n + depth) : m < depth := by
  rw [h] at hdepth
  omega

theorem Takes.le {outer : List Nat} {n m : Nat} {ws : List (Word Float)} (h : Takes outer n m ws)
    (rest : List Token) :
    nestingFrom outer none rest ≤ nestingFrom outer (some n) (rowTokens ws ++ rest) := by
  rw [h]
  exact Nat.le_max_right _ _

/-- What is open in front of the right operand is open in front of the row. -/
theorem Takes.le_operator {outer : List Nat} {n m : Nat} {vs : List (Word Float)}
    (hv : Takes outer n m vs) (hn : n = outer.headD 0) {s : Symbol} (hs : s.isOperator = true)
    (ws : List (Word Float)) (rest : List Token) :
    nestingFrom outer (some n) (rowTokens ws ++ rest)
      ≤ nestingFrom outer (some n) (rowTokens (vs ++ .symbol s :: ws) ++ rest) := by
  rw [rowTokens_symbol, hv, nestingFrom_operator hs, ← hn]
  exact Nat.le_max_right _ _

/-- A zero divisor ends the reading, whatever follows it. -/
theorem DividesByZero.read_eq {level : Level} {ws : List (Word Float)} (h : DividesByZero level ws)
    (outer : List Nat) (n depth : Nat) (rest : List Token)
    (hn : level ≠ .factor → n = outer.headD 0)
    (hdepth : nestingFrom outer (some n) (rowTokens ws ++ rest) < n + depth) :
    level.read depth (rowTokens ws ++ rest) = .error .divisionByZero := by
  -- Signs and parentheses take a level of the reader each. In front of an operator there
  -- is a complete expression, which is read as such.
  induction h generalizing outer n depth rest with
  | @divisor vs ws s t y hs ht value zero =>
      have hzero : (Expression.divide s t).HasZeroDivisor id := Or.inr (Or.inr ⟨y, value, zero⟩)
      have hdivide := Derives.divide hs ht
      have hlt := (hdivide.takes outer n hn).lt_depth hdepth
      rcases hdivide.reads_tokens depth rest hlt with ⟨k, _, hchain⟩
      rw [Expression.value_eq_of_hasZeroDivisor hzero] at hchain
      exact hchain
  | positive h ih =>
      cases depth with
      | zero => exact absurd (le_nestingFrom _ _ _) (Nat.not_le_of_lt hdepth)
      | succ depth =>
          exact ih outer (n + 1) depth rest (fun hne => absurd rfl hne)
            (by rw [Nat.add_right_comm]; exact hdepth)
  | @negative ws h ih =>
      cases depth with
      | zero => exact absurd (le_nestingFrom _ _ _) (Nat.not_le_of_lt hdepth)
      | succ depth =>
          have hread := ih outer (n + 1) depth rest (fun hne => absurd rfl hne)
            (by rw [Nat.add_right_comm]; exact hdepth)
          show (Level.factor.read depth (rowTokens ws ++ rest)).bind _ = _
          rw [hread]
          rfl
  | @group ws h ih =>
      cases depth with
      | zero => exact absurd (le_nestingFrom _ _ _) (Nat.not_le_of_lt hdepth)
      | succ depth =>
          have hread := ih ((n + 1) :: outer) (n + 1) depth rest (fun _ => rfl)
            (by rw [Nat.add_right_comm]; exact hdepth)
          show (Level.sum.read depth (rowTokens ws ++ rest)).bind _ = _
          rw [hread]
          rfl
  | ofFactor h ih => exact chain_of_error (ih outer n depth rest (fun hne => absurd rfl hne) hdepth)
  | ofProduct h ih =>
      exact chain_of_error (ih outer n depth rest (fun _ => hn Level.noConfusion) hdepth)
  | multiply hs h ih | divide hs h ih =>
      have hhead := hn Level.noConfusion
      have htakes := hs.takes outer n fun _ => hhead
      have hright := ih outer n depth rest (fun hne => absurd rfl hne)
        (Nat.lt_of_le_of_lt (htakes.le_operator hhead rfl _ rest) hdepth)
      rw [rowTokens_symbol] at hdepth ⊢
      exact (hs.reads_tokens depth _ (htakes.lt_depth hdepth)).chain_next rfl hright
  | add hs h ih | subtract hs h ih =>
      have hhead := hn Level.noConfusion
      have htakes := hs.takes outer n fun _ => hhead
      have hright := ih outer n depth rest (fun _ => hhead)
        (Nat.lt_of_le_of_lt (htakes.le_operator hhead rfl _ rest) hdepth)
      rw [rowTokens_symbol] at hdepth ⊢
      exact (hs.reads_tokens depth _ (htakes.lt_depth hdepth) (Stops.cons _ rfl)).chain_next rfl
        hright

/-- What the result of a reader says about the row: an expression stood at its front
    and has the value, or a zero divisor was met. There were levels enough. -/
def Accounts (level : Level) (ts : List Token) :
    Except ArithmeticError (Float × List Token) → Prop
  | .ok (x, rest) => ∃ ws e, ts = rowTokens ws ++ rest ∧ Derives level ws e ∧ e.value id = .ok x
  | .error .divisionByZero => ∃ ws rest, ts = rowTokens ws ++ rest ∧ DividesByZero level ws
  | .error .tooDeep => False
  | .error _ => True

/-- A reader that goes on where another one, which reads a part of the row, has stopped.
    The errors of that one are passed on. -/
theorem Accounts.bind {low high : Level} {ts us : List Token}
    {result : Except ArithmeticError (Float × List Token)}
    {next : Float × List Token → Except ArithmeticError (Float × List Token)}
    (h : Accounts low ts result)
    (hdivision : ∀ ws rest, ts = rowTokens ws ++ rest → DividesByZero low ws →
      ∃ vs, us = rowTokens vs ++ rest ∧ DividesByZero high vs)
    (hnext : ∀ ws e x rest, ts = rowTokens ws ++ rest → Derives low ws e → e.value id = .ok x →
      Accounts high us (next (x, rest))) :
    Accounts high us (result >>= next) := by
  cases result with
  | error err =>
      cases err with
      -- The zero divisor that was met is met in the longer row as well.
      | divisionByZero =>
          rcases h with ⟨ws, rest, hts, hdivides⟩
          rcases hdivision ws rest hts hdivides with ⟨vs, hus, hdivides'⟩
          exact ⟨vs, rest, hus, hdivides'⟩
      | tooDeep => exact h
      | _ => exact trivial
  | ok p =>
      rcases h with ⟨ws, e, hts, hw, hx⟩
      exact hnext ws e p.1 p.2 hts hw hx

/-- A symbol joins what stands in front of it and one more operand by an operation. -/
structure Joins (low high : Level) (s : Symbol) (operation : Operation) : Prop where
  isOperator : s.isOperator = true
  division {vs ws : List (Word Float)} {e : Expression Float} (hv : Derives high vs e)
    (hw : DividesByZero low ws) : DividesByZero high (vs ++ .symbol s :: ws)
  result {vs ws : List (Word Float)} {d e : Expression Float} {x y : Float}
    (hv : Derives high vs d) (hw : Derives low ws e) (hx : d.value id = .ok x)
    (hy : e.value id = .ok y) :
    (∃ z f, operation x y = .ok z ∧ Derives high (vs ++ .symbol s :: ws) f ∧ f.value id = .ok z) ∨
      (operation x y = .error .divisionByZero ∧ DividesByZero high (vs ++ .symbol s :: ws))

/-- A level is made of the operands of another one and of operators between them. -/
structure Extends (operation? : Token → Option Operation) (low high : Level) : Prop where
  ofOperand {ws : List (Word Float)} {e : Expression Float} (h : Derives low ws e) :
    Derives high ws e
  ofDivision {ws : List (Word Float)} (h : DividesByZero low ws) : DividesByZero high ws
  operator {t : Token} {operation : Operation} (ht : operation? t = some operation) :
    ∃ s : Symbol, s.token = t ∧ Joins low high s operation

theorem joins_times : Joins .factor .product .times fun x y => .ok (x * y) where
  isOperator := rfl
  division := .multiply
  result hv hw hx hy :=
    Or.inl ⟨_, _, rfl, .multiply hv hw, by rw [Expression.value, hx, hy]; rfl⟩

theorem joins_divide : Joins .factor .product .divide
    fun x y => if y == 0 then .error .divisionByZero else .ok (x / y) where
  isOperator := rfl
  division := .divide
  result {vs ws d e x y} hv hw hx hy := by
    by_cases hzero : (y == 0) = true
    · exact Or.inr ⟨if_pos hzero, .divisor hv hw hy hzero⟩
    · refine Or.inl ⟨_, _, if_neg hzero, .divide hv hw, ?_⟩
      rw [Expression.value, hx, hy]
      exact if_neg hzero

theorem joins_plus : Joins .product .sum .plus fun x y => .ok (x + y) where
  isOperator := rfl
  division := .add
  result hv hw hx hy := Or.inl ⟨_, _, rfl, .add hv hw, by rw [Expression.value, hx, hy]; rfl⟩

theorem joins_minus : Joins .product .sum .minus fun x y => .ok (x - y) where
  isOperator := rfl
  division := .subtract
  result hv hw hx hy := Or.inl ⟨_, _, rfl, .subtract hv hw, by rw [Expression.value, hx, hy]; rfl⟩

theorem extends_product : Extends productOperation? .factor .product where
  ofOperand := .ofFactor
  ofDivision := .ofFactor
  operator {t operation} ht := by
    cases t with
    | times => exact ⟨.times, rfl, Option.some.inj ht ▸ joins_times⟩
    | divide => exact ⟨.divide, rfl, Option.some.inj ht ▸ joins_divide⟩
    | _ => cases ht

theorem extends_sum : Extends sumOperation? .product .sum where
  ofOperand := .ofProduct
  ofDivision := .ofProduct
  operator {t operation} ht := by
    cases t with
    | plus => exact ⟨.plus, rfl, Option.some.inj ht ▸ joins_plus⟩
    | minus => exact ⟨.minus, rfl, Option.some.inj ht ▸ joins_minus⟩
    | _ => cases ht

namespace Extends

variable {operation? : Token → Option Operation} {low high : Level} {operand : Reader}
  {outer : List Nat} {n depth : Nat}

/-- What the loop over the operators of a level makes of the rest of a row, if its
    operands are accounted for. The front of the row was read, and has a value. -/
theorem accounts_chainAfter (hextends : Extends operation? low high) (hn : n = outer.headD 0)
    (hoperand : ∀ ts, nestingFrom outer (some n) ts < n + depth → Accounts low ts (operand ts))
    {vs : List (Word Float)} {e : Expression Float} {x : Float} (hv : Derives high vs e)
    (hx : e.value id = .ok x) (count : Nat) {ts : List Token}
    (hdepth : nestingFrom outer none ts < n + depth) :
    Accounts high (rowTokens vs ++ ts) (chainAfter operation? operand count x ts) := by
  -- What the loop has behind it is an expression of the level after each turn.
  induction count generalizing vs e x ts with
  | zero => exact ⟨vs, e, rfl, hv, hx⟩
  | succ count ih =>
      cases ts with
      | nil => exact ⟨vs, e, rfl, hv, hx⟩
      | cons t ts =>
          cases ht : operation? t with
          | none =>
              simp only [chainAfter, ht]
              exact ⟨vs, e, rfl, hv, hx⟩
          | some operation =>
              rcases hextends.operator ht with ⟨s, rfl, hjoins⟩
              rw [nestingFrom_operator hjoins.isOperator, ← hn] at hdepth
              simp only [chainAfter, ht]
              refine (hoperand ts hdepth).bind ?_ ?_
              · intro ws rest hts hdivides
                exact ⟨_, by rw [hts, rowTokens_symbol], hjoins.division hv hdivides⟩
              · rintro ws d y rest rfl hw hy
                rw [← rowTokens_symbol]
                rcases hjoins.result hv hw hx hy with ⟨z, f, hz, hf, hvalue⟩ | ⟨hzero, hdivides⟩
                · -- One more operand is complete, and the loop goes on behind it.
                  show Accounts high _ ((operation x y).bind _)
                  rw [hz]
                  refine ih hf hvalue (Nat.lt_of_le_of_lt ?_ hdepth)
                  exact (hw.takes outer n fun _ => hn).le rest
                · show Accounts high _ ((operation x y).bind _)
                  rw [hzero]
                  exact ⟨_, rest, rfl, hdivides⟩

/-- What the reader of a level makes of a row, if its operands are accounted for. -/
theorem accounts_chain (hextends : Extends operation? low high) (hn : n = outer.headD 0)
    (hoperand : ∀ ts, nestingFrom outer (some n) ts < n + depth → Accounts low ts (operand ts))
    {ts : List Token} (hdepth : nestingFrom outer (some n) ts < n + depth) :
    Accounts high ts (chain operation? operand ts) := by
  unfold chain
  refine (hoperand ts hdepth).bind ?_ ?_
  · exact fun ws rest hts hdivides => ⟨ws, hts, hextends.ofDivision hdivides⟩
  · rintro ws e x rest rfl hw hx
    refine hextends.accounts_chainAfter hn hoperand (hextends.ofOperand hw) hx rest.length
      (Nat.lt_of_le_of_lt ?_ hdepth)
    exact (hw.takes outer n fun _ => hn).le rest

end Extends

/-- What becomes of a row that is read as a sum, if its factors are accounted for. -/
theorem accounts_sum (outer : List Nat) (n depth : Nat) (hn : n = outer.headD 0)
    (hfactor : ∀ ts, nestingFrom outer (some n) ts < n + depth →
      Accounts .factor ts (factor depth ts))
    {ts : List Token} (hdepth : nestingFrom outer (some n) ts < n + depth) :
    Accounts .sum ts (sum (factor depth) ts) :=
  extends_sum.accounts_chain hn (fun _ => extends_product.accounts_chain hn hfactor) hdepth

/-- What becomes of a row that is read as a factor. -/
theorem accounts_factor {outer : List Nat} {n depth : Nat} {ts : List Token}
    (hdepth : nestingFrom outer (some n) ts < n + depth) :
    Accounts .factor ts (factor depth ts) := by
  -- The factor behind a sign has one level less, and so have all the factors in a group.
  induction depth generalizing outer n ts with
  | zero => exact absurd (le_nestingFrom _ _ _) (Nat.not_le_of_lt hdepth)
  | succ depth ih =>
      cases ts with
      | nil => exact trivial
      | cons t ts =>
          cases t with
          | number x => exact ⟨[.operand x], _, rfl, .operand x, rfl⟩
          | plus =>
              have haccount := ih (n := n + 1) (by rw [Nat.add_right_comm]; exact hdepth)
              rw [factor, ← bind_pure (factor depth ts)]
              refine haccount.bind ?_ ?_
              · intro ws rest hts hdivides
                exact ⟨_, by rw [hts]; rfl, .positive hdivides⟩
              · rintro ws e x rest rfl hw hx
                exact ⟨_, _, rfl, .positive hw, hx⟩
          | minus =>
              have haccount := ih (n := n + 1) (by rw [Nat.add_right_comm]; exact hdepth)
              refine haccount.bind ?_ ?_
              · intro ws rest hts hdivides
                exact ⟨_, by rw [hts]; rfl, .negative hdivides⟩
              · rintro ws e x rest rfl hw hx
                exact ⟨_, _, rfl, .negative hw, by rw [Expression.value, hx]; rfl⟩
          | opening =>
              have haccount := accounts_sum ((n + 1) :: outer) (n + 1) depth rfl (fun _ => ih)
                (by rw [Nat.add_right_comm]; exact hdepth)
              refine haccount.bind ?_ ?_
              · intro ws rest hts hdivides
                exact ⟨_, by rw [hts]; rfl, .group hdivides⟩
              · rintro ws e x rest rfl hw hx
                -- The group is complete if it is closed here.
                cases rest with
                | nil => exact trivial
                | cons t rest =>
                    cases t with
                    | closing =>
                        refine ⟨.symbol .opening :: (ws ++ [.symbol .closing]), .group e, ?_,
                          .group hw, hx⟩
                        exact congrArg (Token.opening :: ·)
                          (rowTokens_symbol ws .closing [] rest).symm
                    | _ => exact trivial
          | times | divide | closing => exact trivial

/-- What becomes of the tokens of a text. -/
theorem evaluateTokens_cases {ts : List Token} (hnesting : nesting ts < depthLimit) :
    (∃ e x, Derives .sum (ts.map Token.word) e ∧ e.value id = .ok x ∧ evaluateTokens ts = .ok x) ∨
      (MeetsZeroDivisor ts ∧ evaluateTokens ts = .error .divisionByZero) ∨
        ∃ err, err.IsSyntax ∧ evaluateTokens ts = .error err := by
  cases ts with
  | nil => exact Or.inr (Or.inr ⟨.emptyExpression, trivial, rfl⟩)
  | cons t ts =>
      have haccount : Accounts .sum (t :: ts) (sum (factor depthLimit) (t :: ts)) :=
        accounts_sum [] 0 depthLimit rfl (fun _ => accounts_factor) (by rwa [Nat.zero_add])
      unfold evaluateTokens
      rw [List.isEmpty_cons]
      cases hread : sum (factor depthLimit) (t :: ts) with
      | error err =>
          rw [hread] at haccount
          cases err with
          | divisionByZero =>
              rcases haccount with ⟨ws, rest, hts, hdivides⟩
              refine Or.inr (Or.inl ⟨⟨rowTokens ws, rest, hts, ?_⟩, rfl⟩)
              rwa [map_word_rowTokens]
          | tooDeep => exact haccount.elim
          | _ =>
              refine Or.inr (Or.inr ⟨_, ?_, rfl⟩)
              exact trivial
      | ok p =>
          rcases p with ⟨x, rest⟩
          rw [hread] at haccount
          rcases haccount with ⟨ws, e, hts, hw, hx⟩
          cases rest with
          | nil =>
              rw [List.append_nil] at hts
              exact Or.inl ⟨e, x, by rwa [hts, map_word_rowTokens], hx, rfl⟩
          -- An expression stands in front, but the row does not end behind it.
          | cons u rest => exact Or.inr (Or.inr ⟨.unexpectedToken (some u), trivial, rfl⟩)

/-- A zero divisor that is met in the tokens of a text ends the reading. -/
theorem MeetsZeroDivisor.evaluateTokens_eq {ts : List Token} (h : MeetsZeroDivisor ts)
    (hnesting : nesting ts < depthLimit) : evaluateTokens ts = .error .divisionByZero := by
  rcases h with ⟨front, rest, rfl, hdivides⟩
  have hread := hdivides.read_eq [] 0 depthLimit rest (fun _ => rfl)
    (by rw [rowTokens_map_word, Nat.zero_add]; exact hnesting)
  rw [rowTokens_map_word] at hread
  cases hts : front ++ rest with
  | nil =>
      -- Without a token there is no divisor.
      rw [hts] at hread
      cases hread
  | cons t ts =>
      rw [hts] at hread
      unfold evaluateTokens
      rw [List.isEmpty_cons]
      show (Level.sum.read depthLimit (t :: ts)).bind _ = _
      rw [hread]
      rfl

/-- A row that spells an expression comes to its value. -/
theorem Derives.evaluateTokens_tokens {ts : List Token} {e : Expression Float}
    (h : Derives .sum (ts.map Token.word) e) (hnesting : nesting ts < depthLimit) :
    evaluateTokens ts = e.value id := by
  have heq : evaluateTokens (rowTokens (ts.map Token.word)) = e.value id :=
    h.evaluateTokens_eq (fun x _ => isFactor_number x) (by rwa [← h.nesting_eq])
  rwa [rowTokens_map_word] at heq

/-- What becomes of a text. If its tokens spell an expression, it comes to the value of
    the expression, or to a division by zero exactly if a divisor comes to zero. If
    they spell none, it comes to no value, and to a division by zero exactly if a zero
    divisor is met in front of what is wrong. A text that has no tokens at all comes
    to no value either. -/
theorem evaluate_outcome (cs : List Char) :
    (∀ ts, Lexes cs ts → nesting ts < depthLimit →
      (∀ e, Derives .sum (ts.map Token.word) e →
        (e.HasZeroDivisor id → evaluate cs = .error .divisionByZero) ∧
          (¬ e.HasZeroDivisor id → ∃ x, e.value id = .ok x ∧ evaluate cs = .ok x)) ∧
      ((¬ ∃ e, Derives .sum (ts.map Token.word) e) →
        (MeetsZeroDivisor ts → evaluate cs = .error .divisionByZero) ∧
          (¬ MeetsZeroDivisor ts → ∃ err, err.IsSyntax ∧ evaluate cs = .error err))) ∧
    ((¬ ∃ ts, Lexes cs ts) → ∃ c ∈ cs, evaluate cs = .error (.unexpectedCharacter c) ∧
      Text.isBlank c = false ∧ Text.isDigit c = false ∧ ∀ s : Symbol, s.char ≠ c) := by
  refine ⟨fun ts hlexes hnesting => ?_, fun hnone => ?_⟩
  · have heval : evaluate cs = evaluateTokens ts := by
      rw [evaluate, ofChars_eq_ok_iff.mpr hlexes]
      rfl
    rw [heval]
    refine ⟨fun e he => ?_, fun hnone => ⟨fun hmeets => hmeets.evaluateTokens_eq hnesting,
      fun hmeets => ?_⟩⟩
    · -- The reader comes to the value of the expression.
      rw [he.evaluateTokens_tokens hnesting]
      rcases e.value_cases id with ⟨hzero, hvalue⟩ | ⟨hzero, x, hvalue⟩
      · exact ⟨fun _ => hvalue, fun hnot => absurd hzero hnot⟩
      · exact ⟨fun hdivisor => absurd hdivisor hzero, fun _ => ⟨x, hvalue, hvalue⟩⟩
    · -- Of the ways in which a reader can end, only errors of form are left.
      rcases evaluateTokens_cases hnesting with ⟨e, _, he, _⟩ | ⟨hmeets', _⟩ | ⟨err, hsyntax, herr⟩
      · exact absurd ⟨e, he⟩ hnone
      · exact absurd hmeets' hmeets
      · exact ⟨err, hsyntax, herr⟩
  · rcases exists_of_ofChars_error hnone with ⟨c, hc, herror, hstray⟩
    exact ⟨c, hc, by rw [evaluate, herror]; rfl, hstray⟩

/-- A sign binds before the operators, and these are applied from the left. -/
theorem evaluate_outcome_signed :
    let ts : List Token := [.number 8, .divide, .minus, .number 2, .times, .number 3]
    let e : Expression Float :=
      .multiply (.divide (.operand 8) (.negative (.operand 2))) (.operand 3)
    Lexes "8/ -2*3".toList ts ∧ nesting ts < depthLimit ∧ Derives .sum (ts.map Token.word) e ∧
      ¬ e.HasZeroDivisor id ∧ ∃ x, e.value id = .ok x ∧ evaluate "8/ -2*3".toList = .ok x := by
  intro ts e
  have hlexes : Lexes "8/ -2*3".toList ts := ofChars_eq_ok_iff.mp (by decide +kernel)
  have hnesting : nesting ts < depthLimit := by decide
  have hderives : Derives .sum (ts.map Token.word) e :=
    .ofProduct (.multiply (.divide (.ofFactor (.operand 8)) (.negative (.operand 2))) (.operand 3))
  have hzero : ¬ e.HasZeroDivisor id := fun hzero => by
    have hvalue := Expression.value_eq_of_hasZeroDivisor hzero
    exact absurd hvalue (by decide +kernel)
  exact ⟨hlexes, hnesting, hderives, hzero,
    (((evaluate_outcome "8/ -2*3".toList).1 ts hlexes hnesting).1 e hderives).2 hzero⟩

end Arithmetic

end Spreadsheet
