import Spreadsheet.Arithmetic.Evaluate
import Mathlib.Data.List.Chain

/-!
# The Grammar of Arithmetic

What the readers of the three levels make of an expression.

An expression is a tree, and `Derives` says which rows of words spell it. The
words are symbols and operands, and what an operand is stays open: a number, or
something that a number will be written for. So the grammar is stated once, and
what follows from it holds however operands come to be tokens, as long as the
tokens of each are read as one factor.

Chains are derived from the left, `sum '+' product`, while the reader takes an
operand and goes on in a loop. The two meet in `Reads`: a sum that has been read
leaves the loop where it is, with the value so far and the rest of the tokens,
and one more operand is one more round.

## Main definitions

* `Symbol`, `Word`: What an expression is written with.
* `Expression`: The trees, with `value`, `operands` and `nesting`.
* `Derives`: The grammar.
* `Separated`: Rows in which no operand follows another one.
* `IsFactor`: The tokens that may stand for an operand.

## Theorems

* `Derives.separated`: The grammar keeps operands apart.
* `Derives.reads`: What the reader of a level makes of a derived row.
* `Derives.evaluateTokens_eq`: A derived expression comes to its value.
* `Derives.value_eq`: A row has one value, however it is derived.
-/

namespace Spreadsheet

namespace Arithmetic

/-- An operator or a parenthesis. -/
inductive Symbol where
  | plus
  | minus
  | times
  | divide
  | opening
  | closing
deriving DecidableEq, Repr

namespace Symbol

/-- The token of a symbol. -/
def token : Symbol → Token
  | plus => .plus
  | minus => .minus
  | times => .times
  | divide => .divide
  | opening => .opening
  | closing => .closing

/-- The character that a symbol is written as. -/
def char : Symbol → Char
  | plus => '+'
  | minus => '-'
  | times => '*'
  | divide => '/'
  | opening => '('
  | closing => ')'

end Symbol

/-- A symbol, or an operand of some kind. -/
inductive Word (α : Type) where
  | symbol (s : Symbol)
  | operand (a : α)

/-- The operand that a word is, if it is one. -/
def Word.operand? {α : Type} : Word α → Option α
  | symbol _ => none
  | operand a => some a

/-- A syntax tree. Parentheses are kept, since they count as levels. -/
inductive Expression (α : Type) where
  | operand (a : α)
  | positive (e : Expression α)
  | negative (e : Expression α)
  | group (e : Expression α)
  | add (s t : Expression α)
  | subtract (s t : Expression α)
  | multiply (s t : Expression α)
  | divide (s t : Expression α)

namespace Expression

variable {α : Type}

/-- The operands, from left to right. -/
def operands : Expression α → List α
  | operand a => [a]
  | positive e | negative e | group e => e.operands
  | add s t | subtract s t | multiply s t | divide s t => s.operands ++ t.operands

/-- How deep signs and parentheses are nested, if an operand takes some levels
    itself. -/
def nesting (levels : α → Nat) : Expression α → Nat
  | operand a => levels a
  | positive e | negative e | group e => e.nesting levels + 1
  | add s t | subtract s t | multiply s t | divide s t =>
    max (s.nesting levels) (t.nesting levels)

/-- The value with numbers for the operands. Only division can fail. -/
def value (number : α → Float) : Expression α → Except ArithmeticError Float
  | operand a => pure (number a)
  | positive e | group e => e.value number
  | negative e => do
    let x ← e.value number
    pure (-x)
  | add s t => do
    let x ← s.value number
    let y ← t.value number
    pure (x + y)
  | subtract s t => do
    let x ← s.value number
    let y ← t.value number
    pure (x - y)
  | multiply s t => do
    let x ← s.value number
    let y ← t.value number
    pure (x * y)
  | divide s t => do
    let x ← s.value number
    let y ← t.value number
    if y == 0 then throw .divisionByZero else pure (x / y)

end Expression

/-- The levels of the grammar. -/
inductive Level where
  | sum
  | product
  | factor

/-- A row of words spells an expression of a level: sums of products of factors,
    where a factor is an operand, a factor with a sign or a sum in parentheses. -/
inductive Derives {α : Type} : Level → List (Word α) → Expression α → Prop
  | operand (a : α) : Derives .factor [.operand a] (.operand a)
  | positive {ws e} (h : Derives .factor ws e) :
      Derives .factor (.symbol .plus :: ws) (.positive e)
  | negative {ws e} (h : Derives .factor ws e) :
      Derives .factor (.symbol .minus :: ws) (.negative e)
  | group {ws e} (h : Derives .sum ws e) :
      Derives .factor (.symbol .opening :: (ws ++ [.symbol .closing])) (.group e)
  | ofFactor {ws e} (h : Derives .factor ws e) : Derives .product ws e
  | multiply {vs ws s t} (hs : Derives .product vs s) (ht : Derives .factor ws t) :
      Derives .product (vs ++ .symbol .times :: ws) (.multiply s t)
  | divide {vs ws s t} (hs : Derives .product vs s) (ht : Derives .factor ws t) :
      Derives .product (vs ++ .symbol .divide :: ws) (.divide s t)
  | ofProduct {ws e} (h : Derives .product ws e) : Derives .sum ws e
  | add {vs ws s t} (hs : Derives .sum vs s) (ht : Derives .product ws t) :
      Derives .sum (vs ++ .symbol .plus :: ws) (.add s t)
  | subtract {vs ws s t} (hs : Derives .sum vs s) (ht : Derives .product ws t) :
      Derives .sum (vs ++ .symbol .minus :: ws) (.subtract s t)

/-- The operands of a row are those of the expression that it spells. -/
theorem Derives.filterMap_operand? {α : Type} {level : Level} {ws : List (Word α)}
    {e : Expression α} (h : Derives level ws e) : ws.filterMap Word.operand? = e.operands := by
  induction h with
  | operand a => rfl
  | positive h ih => exact ih
  | negative h ih => exact ih
  | ofFactor h ih => exact ih
  | ofProduct h ih => exact ih
  | @group ws e h ih =>
      show (ws ++ [_]).filterMap Word.operand? = _
      rw [List.filterMap_append, ih]
      exact List.append_nil _
  | @multiply vs ws s t hs ht ihs iht =>
      rw [List.filterMap_append, ihs]
      exact congrArg (s.operands ++ ·) iht
  | @divide vs ws s t hs ht ihs iht =>
      rw [List.filterMap_append, ihs]
      exact congrArg (s.operands ++ ·) iht
  | @add vs ws s t hs ht ihs iht =>
      rw [List.filterMap_append, ihs]
      exact congrArg (s.operands ++ ·) iht
  | @subtract vs ws s t hs ht ihs iht =>
      rw [List.filterMap_append, ihs]
      exact congrArg (s.operands ++ ·) iht

/-- No operand follows another one. -/
def Separated {α : Type} : List (Word α) → Prop :=
  List.IsChain fun v w => v.operand?.isSome → w.operand? = none

theorem Separated.symbol_append {α : Type} {vs ws : List (Word α)} (hv : Separated vs) (s : Symbol)
    (hw : Separated ws) : Separated (vs ++ .symbol s :: ws) := by
  refine List.isChain_append.mpr ⟨hv, List.isChain_cons.mpr ⟨?_, hw⟩, ?_⟩
  · intro w _ hsome
    cases hsome
  · intro v _ w hw' _
    rw [← Option.some.inj hw']
    rfl

/-- The grammar keeps operands apart. -/
theorem Derives.separated {α : Type} {level : Level} {ws : List (Word α)} {e : Expression α}
    (h : Derives level ws e) : Separated ws := by
  induction h with
  | operand a => exact List.isChain_singleton _
  | positive h ih => exact Separated.symbol_append List.isChain_nil .plus ih
  | negative h ih => exact Separated.symbol_append List.isChain_nil .minus ih
  | group h ih =>
      exact Separated.symbol_append List.isChain_nil .opening
        (ih.symbol_append .closing List.isChain_nil)
  | ofFactor h ih => exact ih
  | ofProduct h ih => exact ih
  | multiply hs ht ihs iht => exact ihs.symbol_append .times iht
  | divide hs ht ihs iht => exact ihs.symbol_append .divide iht
  | add hs ht ihs iht => exact ihs.symbol_append .plus iht
  | subtract hs ht ihs iht => exact ihs.symbol_append .minus iht

section Chain

variable {operation? : Token → Option Operation} {operand : Reader}

/-- The tokens do not go on with an operator of a level. -/
def Stops (operation? : Token → Option Operation) (ts : List Token) : Prop :=
  ∀ t ∈ ts.head?, operation? t = none

theorem Stops.nil : Stops operation? [] := fun t ht => by cases ht

theorem Stops.cons {t : Token} (ts : List Token) (h : operation? t = none) :
    Stops operation? (t :: ts) := by
  intro u hu
  rw [← Option.some.inj hu]
  exact h

/-- The loop ends where the tokens do not go on with an operator. -/
theorem chainAfter_of_stops {rest : List Token} (h : Stops operation? rest) (n : Nat) (x : Float) :
    chainAfter operation? operand n x rest = .ok (x, rest) := by
  cases n with
  | zero => rfl
  | succ n =>
      cases rest with
      | nil => rfl
      | cons t rest =>
          simp only [chainAfter, h t rfl]

/-- The reader of a chain has come to a value, and is in the loop. -/
def AtLoop (operation? : Token → Option Operation) (operand : Reader) (ts : List Token)
    (v : Except ArithmeticError Float) (rest : List Token) : Prop :=
  ∃ n, rest.length ≤ n ∧
    chain operation? operand (ts ++ rest) =
      v.bind fun x => chainAfter operation? operand n x rest

/-- The first operand of a chain leads into the loop. -/
theorem atLoop_of_operand {ts rest : List Token} {v : Except ArithmeticError Float}
    (h : operand (ts ++ rest) = v.map (·, rest)) : AtLoop operation? operand ts v rest := by
  refine ⟨rest.length, Nat.le_refl _, ?_⟩
  unfold chain
  rw [h]
  cases v with
  | error e => rfl
  | ok x => rfl

/-- An operator and one more operand are one round of the loop. -/
theorem AtLoop.next {ss ts rest : List Token} {t : Token} {operation : Operation}
    {v w : Except ArithmeticError Float}
    (hv : AtLoop operation? operand ss v (t :: (ts ++ rest)))
    (ht : operation? t = some operation) (hw : operand (ts ++ rest) = w.map (·, rest)) :
    AtLoop operation? operand (ss ++ t :: ts)
      (v.bind fun x => w.bind fun y => operation x y) rest := by
  rcases hv with ⟨n, hn, hv⟩
  rw [List.length_cons, List.length_append] at hn
  cases n with
  | zero => omega
  | succ n =>
      refine ⟨n, by omega, ?_⟩
      rw [List.append_assoc, List.cons_append, hv]
      cases v with
      | error e => rfl
      | ok x =>
          -- What is left of the round is to read the operand and to apply the operator.
          show chainAfter operation? operand (n + 1) x (t :: (ts ++ rest)) = _
          simp only [chainAfter, ht, hw]
          cases w with
          | error e => rfl
          | ok y => rfl

/-- The loop is left where no operator follows. -/
theorem AtLoop.chain_eq {ts rest : List Token} {v : Except ArithmeticError Float}
    (h : AtLoop operation? operand ts v rest) (hrest : Stops operation? rest) :
    chain operation? operand (ts ++ rest) = v.map (·, rest) := by
  rcases h with ⟨n, _, h⟩
  rw [h]
  cases v with
  | error e => rfl
  | ok x => exact chainAfter_of_stops hrest n x

end Chain

/-- The tokens are read as one factor of a value that takes some levels. -/
def IsFactor (levels : Nat) (ts : List Token) (x : Float) : Prop :=
  ∀ depth rest, levels < depth → factor depth (ts ++ rest) = .ok (x, rest)

theorem isFactor_number (x : Float) : IsFactor 0 [.number x] x := by
  intro depth rest hdepth
  cases depth with
  | zero => omega
  | succ depth => rfl

/-- A sign takes one more level. -/
theorem IsFactor.minus {levels : Nat} {ts : List Token} {x : Float} (h : IsFactor levels ts x) :
    IsFactor (levels + 1) (.minus :: ts) (-x) := by
  intro depth rest hdepth
  cases depth with
  | zero => omega
  | succ depth =>
      rw [List.cons_append, factor, h depth rest (by omega)]
      rfl

theorem IsFactor.ne_nil {levels : Nat} {ts : List Token} {x : Float} (h : IsFactor levels ts x) :
    ts ≠ [] := by
  intro hts
  have hread := h (levels + 1) [] (Nat.lt_succ_self _)
  rw [hts] at hread
  cases hread

/-- The tokens of a word, given those of the operands. -/
def Word.tokens {α : Type} (spell : α → List Token) : Word α → List Token
  | symbol s => [s.token]
  | operand a => spell a

section Reading

variable {α : Type} {spell : α → List Token} {number : α → Float} {levels : α → Nat}

/-- What the reader of a level makes of the tokens of an expression. Only a sum has
    to know what follows it: no factor may be lost to a product that goes on. -/
def Reads (number : α → Float) (levels : α → Nat) (ts : List Token) (e : Expression α) :
    Level → Prop
  | .factor => ∀ depth rest, e.nesting levels < depth →
      factor depth (ts ++ rest) = (e.value number).map (·, rest)
  | .product => ∀ depth rest, e.nesting levels < depth →
      AtLoop productOperation? (factor depth) ts (e.value number) rest
  | .sum => ∀ depth rest, e.nesting levels < depth → Stops productOperation? rest →
      AtLoop sumOperation? (product (factor depth)) ts (e.value number) rest

/-- A factor that stands around an expression takes one level more. -/
theorem reads_factor {ts : List Token} {e e' : Expression α}
    (hnesting : e'.nesting levels = e.nesting levels + 1)
    (h : ∀ depth rest, e.nesting levels < depth →
      factor (depth + 1) (ts ++ rest) = (e'.value number).map (·, rest)) :
    Reads number levels ts e' .factor := by
  intro depth rest hdepth
  cases depth with
  | zero => omega
  | succ depth => exact h depth rest (by omega)

/-- A product goes on with an operator and a factor. -/
theorem reads_product {ss ts : List Token} {s t e : Expression α} {token : Token}
    {operation : Operation} (hs : Reads number levels ss s .product)
    (ht : Reads number levels ts t .factor) (htoken : productOperation? token = some operation)
    (hvalue : e.value number
      = (s.value number).bind fun x => (t.value number).bind fun y => operation x y)
    (hnesting : e.nesting levels = max (s.nesting levels) (t.nesting levels)) :
    Reads number levels (ss ++ token :: ts) e .product := by
  intro depth rest hdepth
  rw [hvalue]
  exact (hs depth _ (by omega)).next htoken (ht depth rest (by omega))

/-- A sum goes on with an operator and a product. The operator ends the product before
    it. -/
theorem reads_sum {ss ts : List Token} {s t e : Expression α} {token : Token}
    {operation : Operation} (hs : Reads number levels ss s .sum)
    (ht : Reads number levels ts t .product) (htoken : sumOperation? token = some operation)
    (hstops : productOperation? token = none)
    (hvalue : e.value number
      = (s.value number).bind fun x => (t.value number).bind fun y => operation x y)
    (hnesting : e.nesting levels = max (s.nesting levels) (t.nesting levels)) :
    Reads number levels (ss ++ token :: ts) e .sum := by
  intro depth rest hdepth hrest
  rw [hvalue]
  exact (hs depth _ (by omega) (Stops.cons _ hstops)).next htoken
    ((ht depth rest (by omega)).chain_eq hrest)

/-- Every row that the grammar derives is read as its expression. -/
theorem Derives.reads {level : Level} {ws : List (Word α)} {e : Expression α}
    (h : Derives level ws e)
    (hspell : ∀ a ∈ e.operands, IsFactor (levels a) (spell a) (number a)) :
    Reads number levels (ws.flatMap (Word.tokens spell)) e level := by
  induction h with
  | operand a =>
      intro depth rest hdepth
      rw [List.flatMap_singleton]
      exact hspell a (List.mem_singleton_self a) depth rest hdepth
  | positive h ih =>
      exact reads_factor rfl fun depth rest hdepth => ih hspell depth rest hdepth
  | @negative ws e h ih =>
      refine reads_factor rfl fun depth rest hdepth => ?_
      rw [List.flatMap_cons]
      show (factor depth (ws.flatMap (Word.tokens spell) ++ rest)).bind _ = _
      rw [ih hspell depth rest hdepth, Expression.value]
      cases e.value number with
      | error v => rfl
      | ok x => rfl
  | @group ws e h ih =>
      refine reads_factor rfl fun depth rest hdepth => ?_
      -- The sum stops at the parenthesis, which is then taken away.
      have hread := (ih hspell depth (.closing :: rest) hdepth
        (Stops.cons rest rfl)).chain_eq (Stops.cons rest rfl)
      rw [List.flatMap_cons, List.flatMap_append, List.flatMap_singleton]
      show (sum (factor depth) (_ ++ [Token.closing] ++ rest)).bind _ = _
      rw [List.append_assoc, List.singleton_append]
      show (chain sumOperation? (product (factor depth)) _).bind _ = _
      rw [hread, Expression.value]
      cases e.value number with
      | error v => rfl
      | ok x => rfl
  | ofFactor h ih =>
      intro depth rest hdepth
      exact atLoop_of_operand (ih hspell depth rest hdepth)
  | multiply hs ht ihs iht =>
      rw [List.flatMap_append, List.flatMap_cons]
      exact reads_product (ihs fun a ha => hspell a (List.mem_append_left _ ha))
        (iht fun a ha => hspell a (List.mem_append_right _ ha)) rfl rfl rfl
  | divide hs ht ihs iht =>
      rw [List.flatMap_append, List.flatMap_cons]
      exact reads_product (ihs fun a ha => hspell a (List.mem_append_left _ ha))
        (iht fun a ha => hspell a (List.mem_append_right _ ha)) rfl rfl rfl
  | ofProduct h ih =>
      intro depth rest hdepth hrest
      exact atLoop_of_operand ((ih hspell depth rest hdepth).chain_eq hrest)
  | add hs ht ihs iht =>
      rw [List.flatMap_append, List.flatMap_cons]
      exact reads_sum (ihs fun a ha => hspell a (List.mem_append_left _ ha))
        (iht fun a ha => hspell a (List.mem_append_right _ ha)) rfl rfl rfl rfl
  | subtract hs ht ihs iht =>
      rw [List.flatMap_append, List.flatMap_cons]
      exact reads_sum (ihs fun a ha => hspell a (List.mem_append_left _ ha))
        (iht fun a ha => hspell a (List.mem_append_right _ ha)) rfl rfl rfl rfl

theorem Derives.tokens_ne_nil {level : Level} {ws : List (Word α)} {e : Expression α}
    (h : Derives level ws e) (hspell : ∀ a ∈ e.operands, spell a ≠ []) :
    ws.flatMap (Word.tokens spell) ≠ [] := by
  induction h with
  | operand a =>
      rw [List.flatMap_singleton]
      exact hspell a (List.mem_singleton_self a)
  | positive h ih => exact List.cons_ne_nil _ _
  | negative h ih => exact List.cons_ne_nil _ _
  | group h ih => exact List.cons_ne_nil _ _
  | ofFactor h ih => exact ih hspell
  | ofProduct h ih => exact ih hspell
  | multiply | divide | add | subtract =>
      rw [List.flatMap_append, List.flatMap_cons]
      exact List.append_ne_nil_of_right_ne_nil _ (List.cons_ne_nil _ _)

theorem Derives.ne_nil {level : Level} {ws : List (Word α)} {e : Expression α}
    (h : Derives level ws e) : ws ≠ [] := by
  intro hws
  refine @tokens_ne_nil _ (fun _ => [.plus]) _ _ _ h (fun _ _ => List.cons_ne_nil _ _) ?_
  rw [hws, List.flatMap_nil]

/-- A derived expression comes to its value, if each operand is written as one
    factor and the levels do not run out. -/
theorem Derives.evaluateTokens_eq {ws : List (Word α)} {e : Expression α} (h : Derives .sum ws e)
    (hspell : ∀ a ∈ e.operands, IsFactor (levels a) (spell a) (number a))
    (hnesting : e.nesting levels < depthLimit) :
    evaluateTokens (ws.flatMap (Word.tokens spell)) = e.value number := by
  have hread := (h.reads hspell depthLimit [] hnesting Stops.nil).chain_eq Stops.nil
  rw [List.append_nil] at hread
  have hsum : sum (factor depthLimit) (ws.flatMap (Word.tokens spell))
      = (e.value number).map (·, []) := hread
  have hne : (ws.flatMap (Word.tokens spell)).isEmpty = false :=
    List.isEmpty_eq_false_iff.mpr (h.tokens_ne_nil fun a ha => (hspell a ha).ne_nil)
  unfold evaluateTokens
  rw [hne, hsum]
  cases e.value number with
  | error v => rfl
  | ok x => rfl

/-- However a row is derived, its value is the same. -/
theorem Derives.value_eq {ws : List (Word α)} {d e : Expression α} (hd : Derives .sum ws d)
    (he : Derives .sum ws e) : d.value number = e.value number := by
  -- As rows of numbers, both are read by the same reader, if it may go deep enough.
  have hspell : ∀ a, IsFactor 0 [.number (number a)] (number a) := fun a => isFactor_number _
  let depth := max (d.nesting fun _ => 0) (e.nesting fun _ => 0) + 1
  have hdread := (hd.reads (fun a _ => hspell a) depth [] (by omega) Stops.nil).chain_eq Stops.nil
  have heread := (he.reads (fun a _ => hspell a) depth [] (by omega) Stops.nil).chain_eq Stops.nil
  rw [hdread] at heread
  cases hdvalue : d.value number with
  | error v =>
      cases hevalue : e.value number with
      | error w =>
          rw [hdvalue, hevalue] at heread
          exact congrArg Except.error (Except.error.inj heread)
      | ok y =>
          rw [hdvalue, hevalue] at heread
          cases heread
  | ok x =>
      cases hevalue : e.value number with
      | error w =>
          rw [hdvalue, hevalue] at heread
          cases heread
      | ok y =>
          rw [hdvalue, hevalue] at heread
          exact congrArg Except.ok (Prod.mk.inj (Except.ok.inj heread)).1

end Reading

end Arithmetic

end Spreadsheet
