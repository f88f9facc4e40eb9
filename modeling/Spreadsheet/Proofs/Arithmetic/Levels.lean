import Spreadsheet.Proofs.Arithmetic.Grammar

/-!
# The Levels of a Row of Tokens

How deep signs and parentheses are nested, told from the tokens alone.

An expression has a nesting because it is a tree, but a row of tokens that spells no
expression has none, and the reader may still run out of levels in it.
`nestingFrom` therefore follows the row itself. It keeps the levels that are open
where an operand has to stand next: a sign or a parenthesis opens one more, behind
an operand only those of the open parentheses are left, and where a token stands
that may not stand there the reader stops, and so does the count.

For a row that does spell an expression the two agree (`Derives.nesting_eq`).

## Main definitions

* `Token.word`, `rowTokens`: The words of tokens, and the tokens of words.
* `nestingFrom`, `nesting`: The levels of a row of tokens.
* `Takes`: The levels that a front of a row takes.

## Theorems

* `le_nestingFrom`: The levels that are open are counted.
* `Derives.takes`: The levels that a row with an expression takes.
* `Derives.nesting_eq`: The levels of a row that spells an expression.
-/

namespace Spreadsheet

/-- The word that a token is, with numbers for the operands. -/
def Token.word : Token → Arithmetic.Word Float
  | number x => .operand x
  | plus => .symbol .plus
  | minus => .symbol .minus
  | times => .symbol .times
  | divide => .symbol .divide
  | opening => .symbol .opening
  | closing => .symbol .closing

namespace Arithmetic

/-- The tokens of a row of symbols and numbers. -/
def rowTokens (ws : List (Word Float)) : List Token := ws.flatMap (Word.tokens fun x => [.number x])

theorem rowTokens_append (vs ws : List (Word Float)) :
    rowTokens (vs ++ ws) = rowTokens vs ++ rowTokens ws := List.flatMap_append

/-- A row with a symbol in the middle. -/
theorem rowTokens_symbol (vs : List (Word Float)) (s : Symbol) (ws : List (Word Float))
    (rest : List Token) :
    rowTokens (vs ++ .symbol s :: ws) ++ rest
      = rowTokens vs ++ s.token :: (rowTokens ws ++ rest) := by
  rw [rowTokens_append, List.append_assoc]
  rfl

theorem word_token (s : Symbol) : s.token.word = .symbol s := by
  cases s <;> rfl

/-- The words of tokens have these tokens. -/
theorem rowTokens_map_word (ts : List Token) : rowTokens (ts.map Token.word) = ts := by
  induction ts with
  | nil => rfl
  | cons t ts ih =>
      have hcons : rowTokens ((t :: ts).map Token.word) = t :: rowTokens (ts.map Token.word) := by
        cases t <;> rfl
      rw [hcons, ih]

/-- The tokens of words are those of these words. -/
theorem map_word_rowTokens (ws : List (Word Float)) : (rowTokens ws).map Token.word = ws := by
  induction ws with
  | nil => rfl
  | cons w ws ih =>
      cases w with
      | operand x => exact congrArg (Word.operand x :: ·) ih
      | symbol s =>
          show s.token.word :: (rowTokens ws).map Token.word = _
          rw [word_token, ih]

/-- The levels that are open at the deepest place of a row where an operand has to
    stand. With `some n`, an operand has to stand next and `n` levels are open; with
    `none`, an operand was just read. The list has the levels inside each open
    parenthesis, the innermost first. -/
def nestingFrom : List Nat → Option Nat → List Token → Nat
  | outer, some n, .number _ :: ts => max n (nestingFrom outer none ts)
  | outer, some n, .plus :: ts | outer, some n, .minus :: ts => nestingFrom outer (some (n + 1)) ts
  | outer, some n, .opening :: ts => nestingFrom ((n + 1) :: outer) (some (n + 1)) ts
  -- Any other token ends the row here, as its end does.
  | _, some n, _ => n
  | outer, none, .plus :: ts | outer, none, .minus :: ts | outer, none, .times :: ts
  | outer, none, .divide :: ts => nestingFrom outer (some (outer.headD 0)) ts
  | _ :: outer, none, .closing :: ts => nestingFrom outer none ts
  | _, none, _ => 0

/-- How deep the signs and parentheses of a row of tokens are nested. -/
def nesting (ts : List Token) : Nat := nestingFrom [] (some 0) ts

/-- The levels that are open are counted. -/
theorem le_nestingFrom (outer : List Nat) (n : Nat) (ts : List Token) :
    n ≤ nestingFrom outer (some n) ts := by
  induction ts generalizing outer n with
  | nil => exact Nat.le_refl n
  | cons t ts ih =>
      cases t with
      | number x => exact Nat.le_max_left _ _
      | plus => exact Nat.le_of_succ_le (ih outer (n + 1))
      | minus => exact Nat.le_of_succ_le (ih outer (n + 1))
      | opening => exact Nat.le_of_succ_le (ih ((n + 1) :: outer) (n + 1))
      | times | divide | closing => exact Nat.le_refl n

/-- Whether a symbol stands between two operands. -/
def Symbol.isOperator : Symbol → Bool
  | plus | minus | times | divide => true
  | opening | closing => false

/-- Between two operands only the levels of the open parentheses are open. -/
theorem nestingFrom_operator {s : Symbol} (hs : s.isOperator = true) (outer : List Nat)
    (ts : List Token) :
    nestingFrom outer none (s.token :: ts) = nestingFrom outer (some (outer.headD 0)) ts := by
  cases s with
  | plus | minus | times | divide => rfl
  | opening | closing => cases hs

/-- From an operand position with `n` open levels, the row takes `m` more. -/
def Takes (outer : List Nat) (n m : Nat) (ws : List (Word Float)) : Prop :=
  ∀ rest, nestingFrom outer (some n) (rowTokens ws ++ rest)
    = max (n + m) (nestingFrom outer none rest)

theorem Takes.operator {outer : List Nat} {n m k : Nat} {vs ws : List (Word Float)}
    (hv : Takes outer n m vs) (hn : n = outer.headD 0) (hw : Takes outer n k ws) {s : Symbol}
    (hs : s.isOperator = true) : Takes outer n (max m k) (vs ++ .symbol s :: ws) := by
  intro rest
  rw [rowTokens_symbol, hv, nestingFrom_operator hs, ← hn, hw]
  omega

/-- A level that is opened in front of a row. -/
theorem Takes.succ {outer : List Nat} {n m : Nat} {ws : List (Word Float)}
    (h : Takes outer (n + 1) m ws) (rest : List Token) :
    nestingFrom outer (some (n + 1)) (rowTokens ws ++ rest)
      = max (n + (m + 1)) (nestingFrom outer none rest) := by
  rw [h, Nat.add_right_comm, Nat.add_assoc]

/-- A row that spells an expression takes the levels of the expression. In a sum or a
    product, the levels that are open in front are those of the open parentheses. -/
theorem Derives.takes {level : Level} {ws : List (Word Float)} {e : Expression Float}
    (h : Derives level ws e) (outer : List Nat) (n : Nat)
    (hn : level ≠ .factor → n = outer.headD 0) : Takes outer n (e.nesting fun _ => 0) ws := by
  induction h generalizing outer n with
  | operand x => exact fun rest => rfl
  | positive h ih => exact (ih outer (n + 1) fun hne => absurd rfl hne).succ
  | negative h ih => exact (ih outer (n + 1) fun hne => absurd rfl hne).succ
  | group h ih =>
      -- Behind the closing parenthesis the levels in front of the opening one are back.
      intro rest
      rw [← List.cons_append, rowTokens_symbol]
      exact (ih ((n + 1) :: outer) (n + 1) fun _ => rfl).succ (.closing :: rest)
  | ofFactor h ih => exact ih outer n fun hne => absurd rfl hne
  | ofProduct h ih => exact ih outer n fun _ => hn Level.noConfusion
  | multiply hs ht ihs iht | divide hs ht ihs iht =>
      have hhead := hn Level.noConfusion
      exact (ihs outer n fun _ => hhead).operator hhead (iht outer n fun hne => absurd rfl hne) rfl
  | add hs ht ihs iht | subtract hs ht ihs iht =>
      have hhead := hn Level.noConfusion
      exact (ihs outer n fun _ => hhead).operator hhead (iht outer n fun _ => hhead) rfl

/-- The levels of a row that spells an expression are those of the expression. -/
theorem Derives.nesting_eq {ts : List Token} {e : Expression Float}
    (h : Derives .sum (ts.map Token.word) e) : nesting ts = e.nesting fun _ => 0 := by
  have heq := h.takes [] 0 (fun _ => rfl) []
  rw [rowTokens_map_word, List.append_nil, Nat.zero_add] at heq
  rw [nesting, heq]
  exact Nat.max_zero _

end Arithmetic

end Spreadsheet
