import Spreadsheet.Proofs.Formula.Joined

/-!
# Escaped Texts

Any text between quotes, and two ways of finding where it ends.

Any text can be written in a formula between quotes, if a backslash is put in front of
each of its backslashes and quotes. The reader of literals takes the character behind a
backslash along with it, so it always finds the last quote (`restLength?_escape`).

The walk over parentheses and commas looks at nothing but the character in front of a
quote. Inside an escaped text this comes to the same, since every quote has a backslash
in front of it. At the last quote it does not, if the text ends with a backslash: this
one is escaped itself, but it stands right in front of the quote. The walk is then still
inside the quoted text behind the literal (`run_ofText`). It takes a comma there for a
part of the literal, and does not find the parenthesis that closes the call.

## Main definitions

* `StringLiteral.escape`: A text with its backslashes and quotes escaped.
* `StringLiteral.ofText`: The literal of a text.
* `StringLiteral.endsInBackslash`: A text whose last quote is overlooked.

## Theorems

* `StringLiteral.restLength?_escape`: A literal reaches to its last quote.
* `StringLiteral.run_ofText`: What the walk knows behind a literal.
* `StringLiteral.isArgument_ofText_append`: When a literal is an argument.
* `StringLiteral.arguments_ofText_iff`: When joined literals are taken apart again.
* `StringLiteral.matching?_ofText`: The end of a call that is overlooked.
-/

namespace Spreadsheet

namespace StringLiteral

/-- A character as it is written between quotes. -/
def escapeChar (c : Char) : List Char := if c = '"' ∨ c = '\\' then ['\\', c] else [c]

/-- A text as it is written between quotes: its backslashes and quotes have a backslash in
    front of them. -/
def escape (t : List Char) : List Char := t.flatMap escapeChar

/-- The literal of a text. -/
def ofText (t : List Char) : List Char := '"' :: (escape t ++ ['"'])

/-- Whether the last character of a text is a backslash. -/
def endsInBackslash (t : List Char) : Bool := t.getLast? == some '\\'

theorem escape_concat (t : List Char) (c : Char) :
    escape (t ++ [c]) = escape t ++ escapeChar c := by
  rw [escape, List.flatMap_append, List.flatMap_singleton, escape]

theorem endsInBackslash_concat (t : List Char) (c : Char) :
    endsInBackslash (t ++ [c]) = decide (c = '\\') := by
  rw [endsInBackslash, List.getLast?_concat]
  rfl

theorem escapeChar_of_ne {c : Char} (h : ¬ (c = '"' ∨ c = '\\')) : escapeChar c = [c] := if_neg h

/-- The literal of any text reaches to its last quote. -/
theorem restLength?_escape (t rest : List Char) :
    restLength? (escape t ++ '"' :: rest) = some ((escape t).length + 1) := by
  induction t with
  | nil => rfl
  | cons c t ih =>
      rw [show escape (c :: t) = escapeChar c ++ escape t from List.flatMap_cons,
        List.append_assoc]
      by_cases hc : c = '"' ∨ c = '\\'
      · -- An escaped character is passed over, together with its backslash.
        have hline : c ≠ '\n' := by
          rcases hc with rfl | rfl <;> decide
        rw [escapeChar, if_pos hc]
        show restLength? ('\\' :: c :: (escape t ++ '"' :: rest)) = _
        rw [restLength?, if_neg hline, ih]
        rfl
      · rw [not_or] at hc
        rw [escapeChar_of_ne (not_or.mpr hc), List.singleton_append, restLength?, ih]
        · rfl
        · exact hc.1
        · exact fun hback _ => hc.2 hback
        · exact fun _ _ hback _ => hc.2 hback

section Walk

/-- Inside a quoted text a quote is passed over if it is escaped. -/
theorem run_escapeChar (escaped : Bool) (depth : Int) (c : Char) :
    Nesting.run ⟨escaped, true, depth⟩ (escapeChar c) = ⟨c = '\\', true, depth⟩ := by
  by_cases hc : c = '"' ∨ c = '\\'
  · rw [escapeChar, if_pos hc]
    rcases hc with rfl | rfl <;> rfl
  · rw [escapeChar_of_ne hc]
    rw [not_or] at hc
    show Nesting.step _ c = _
    rw [Nesting.step, if_neg fun h => hc.1 h.1]
    rfl

theorem run_escape (depth : Int) (t : List Char) :
    Nesting.run ⟨false, true, depth⟩ (escape t) = ⟨endsInBackslash t, true, depth⟩ := by
  -- The walk remembers only the last character, so the text is taken apart from its end.
  induction t using List.reverseRecOn with
  | nil => rfl
  | append_singleton t c ih =>
      rw [escape_concat, endsInBackslash_concat, Nesting.run, List.foldl_append]
      show Nesting.run (Nesting.run _ _) _ = _
      rw [ih, run_escapeChar]

/-- Behind a literal, the walk is still inside the quoted text if the text ends with a
    backslash. -/
theorem run_ofText (depth : Int) (t : List Char) :
    Nesting.run ⟨false, false, depth⟩ (ofText t) = ⟨false, endsInBackslash t, depth⟩ := by
  rw [ofText, Nesting.run, List.foldl_cons, List.foldl_append]
  show Nesting.step (Nesting.run ⟨false, true, depth⟩ _) '"' = _
  rw [run_escape]
  cases endsInBackslash t <;> rfl

theorem isArgumentFrom_escapeChar (backslash : Bool) (depth : Nat) (c : Char)
    (rest : List Char) :
    Call.isArgumentFrom backslash true depth (escapeChar c ++ rest)
      = Call.isArgumentFrom (c = '\\') true depth rest := by
  by_cases hc : c = '"' ∨ c = '\\'
  · rw [escapeChar, if_pos hc]
    rcases hc with rfl | rfl <;> rfl
  · rw [escapeChar_of_ne hc, List.singleton_append]
    rw [not_or] at hc
    rw [Call.isArgumentFrom, if_neg fun h => hc.1 h.1, if_pos rfl]

theorem isArgumentFrom_escape (depth : Nat) (t rest : List Char) :
    Call.isArgumentFrom false true depth (escape t ++ rest)
      = Call.isArgumentFrom (endsInBackslash t) true depth rest := by
  induction t using List.reverseRecOn generalizing rest with
  | nil => rfl
  | append_singleton t c ih =>
      rw [escape_concat, endsInBackslash_concat, List.append_assoc, ih,
        isArgumentFrom_escapeChar]

/-- A literal is the front of an argument, which goes on inside a quoted text if the text
    ends with a backslash. -/
theorem isArgument_ofText_append (t tail : List Char) :
    Call.isArgument (ofText t ++ tail)
      = Call.isArgumentFrom false (endsInBackslash t) 0 tail := by
  rw [ofText, List.cons_append, List.append_assoc, List.singleton_append]
  show Call.isArgumentFrom false true 0 (escape t ++ '"' :: tail) = _
  rw [isArgumentFrom_escape]
  cases endsInBackslash t <;> rfl

end Walk

/-- A literal is an argument unless its last quote is overlooked. -/
theorem isArgument_ofText {t : List Char} (h : endsInBackslash t = false) :
    Call.isArgument (ofText t) = true := by
  rw [← List.append_nil (ofText t), isArgument_ofText_append, h]
  rfl

/-- One more quote ends a literal whose last quote is overlooked. -/
theorem isArgument_ofText_quote {t : List Char} (h : endsInBackslash t = true) :
    Call.isArgument (ofText t ++ ['"']) = true := by
  rw [isArgument_ofText_append, h]
  rfl

theorem trimRight_ofText_append (t rest : List Char) :
    Text.trim (ofText t ++ rest) = ofText t ++ Text.trimRight rest := by
  have hquote : Text.isBlank '"' = false := by decide
  have hcons : ofText t ++ rest = ('"' :: escape t) ++ '"' :: rest := by
    simp only [ofText, List.cons_append, List.append_assoc, List.nil_append]
  rw [Text.trim, Text.trimLeft, hcons, List.cons_append,
    List.dropWhile_cons_of_neg (by rw [hquote]; exact Bool.false_ne_true), ← List.cons_append,
    Text.trimRight_append _ _ hquote]
  simp only [ofText, List.cons_append, List.append_assoc, List.nil_append]

theorem trim_ofText (t : List Char) : Text.trim (ofText t) = ofText t := by
  have h := trimRight_ofText_append t []
  rwa [List.append_nil, show Text.trimRight [] = [] from rfl, List.append_nil] at h

/-- The first argument begins with what was passed of it. -/
theorem exists_of_argumentsFrom {s : Nesting} {current cs a : List Char} {as : List (List Char)}
    (h : Call.argumentsFrom s current cs = a :: as) :
    ∃ front, a = Text.trim (current.reverse ++ front) := by
  induction cs generalizing s current with
  | nil =>
      rw [Call.argumentsFrom] at h
      split at h
      · cases h
      · exact ⟨[], by rw [List.append_nil, ← (List.cons.inj h).1]⟩
  | cons c cs ih =>
      rw [Call.argumentsFrom] at h
      split at h
      · exact ⟨[], by rw [List.append_nil, ← (List.cons.inj h).1]⟩
      · rcases ih h with ⟨front, ha⟩
        exact ⟨c :: front, by rw [ha, List.reverse_cons, List.append_assoc]; rfl⟩

/-- A literal whose last quote is overlooked is not the first argument. -/
theorem arguments_ne_of_endsInBackslash {t : List Char} (h : endsInBackslash t = true)
    (b : List Char) (args as : List (List Char)) :
    Call.arguments (Call.join (ofText t :: b :: args)) ≠ ofText t :: as := by
  intro heq
  -- The comma behind the literal becomes a part of the argument.
  rw [Call.arguments, Call.join_cons_cons,
    (Nesting.Inside.of_isArgument (isArgument_ofText_quote h) 0).argumentsFrom_append, run_ofText,
    h, Call.argumentsFrom, if_neg fun hcomma => absurd hcomma.2.1 (by decide)] at heq
  rcases exists_of_argumentsFrom heq with ⟨front, hfront⟩
  have hcurrent : (',' :: ((ofText t).reverse ++ [])).reverse ++ front
      = ofText t ++ ',' :: front := by
    simp
  rw [hcurrent, trimRight_ofText_append, show ',' :: front = [] ++ ',' :: front from rfl,
    Text.trimRight_append _ _ (by decide)] at hfront
  have hlength := congrArg List.length hfront
  rw [List.length_append, List.nil_append, List.length_cons] at hlength
  omega

/-- Joined literals are taken apart again exactly if the last quote of none is overlooked
    but that of the last one. -/
theorem arguments_ofText_iff (ts : List (List Char)) :
    Call.arguments (Call.join (ts.map ofText)) = ts.map ofText ↔
      ∀ t ∈ ts.dropLast, endsInBackslash t = false := by
  induction ts with
  | nil => exact ⟨fun _ t ht => absurd ht List.not_mem_nil, fun _ => rfl⟩
  | cons t ts ih =>
      cases ts with
      | nil =>
          refine ⟨fun _ t ht => absurd ht List.not_mem_nil, fun _ => ?_⟩
          rw [List.map_singleton, Call.join, List.intercalate_singleton]
          -- The end of the text ends the last argument, inside a quoted text or not.
          cases h : endsInBackslash t with
          | false =>
              have hargument := isArgument_ofText h
              rw [← List.append_nil (ofText t)] at hargument
              exact Call.arguments_of_append hargument (trim_ofText t) (List.cons_ne_nil _ _)
          | true =>
              exact Call.arguments_of_append (isArgument_ofText_quote h) (trim_ofText t)
                (List.cons_ne_nil _ _)
      | cons u ts =>
          rw [List.dropLast_cons_cons, List.forall_mem_cons, List.map_cons, List.map_cons]
          cases h : endsInBackslash t with
          | false =>
              rw [Call.arguments_join_cons (isArgument_ofText h) (trim_ofText t),
                List.cons_inj_right, ← List.map_cons, ih, eq_self, true_and]
          | true =>
              -- What comes out is wrong from its first argument on.
              exact ⟨fun heq => absurd heq (arguments_ne_of_endsInBackslash h _ _ _),
                fun hnot => absurd hnot.1 (by decide)⟩

/-- If the last quote of the last literal is overlooked, so is the parenthesis behind it. -/
theorem matching?_ofText {ts : List (List Char)} (hts : ∀ t ∈ ts, endsInBackslash t = false)
    {t : List Char} (h : endsInBackslash t = true) :
    Nesting.matching? (Call.join ((ts ++ [t]).map ofText) ++ [')']) = none := by
  rw [Nesting.matching?]
  induction ts with
  | nil =>
      rw [List.nil_append, List.map_singleton, Call.join, List.intercalate_singleton,
        (Nesting.Inside.of_isArgument (isArgument_ofText_quote h) 1).closing?_append (by decide),
        run_ofText, h]
      rfl
  | cons u ts ih =>
      have hu := hts u List.mem_cons_self
      have hrest := ih fun t ht => hts t (List.mem_cons_of_mem u ht)
      -- Behind the literal `u` there is another one, be it the last or not.
      cases hcons : (ts ++ [t]).map ofText with
      | nil => simp at hcons
      | cons b args =>
          rw [hcons] at hrest
          rw [List.cons_append, List.map_cons, hcons,
            Call.closing?_join_cons (isArgument_ofText hu), hrest]
          rfl

end StringLiteral

end Spreadsheet
