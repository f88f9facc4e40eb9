import Spreadsheet.Proofs.Arithmetic.Tokens

/-!
# The Words of a Text

Which tokens a text is cut into.

`Lexes` says it without a scanner. Blanks are passed over, a symbol is a token of
its own, and a number is the longest one that the text goes on with: no longer
front of the text spells a number. This leaves nothing to choose, and the scanner
finds the tokens whenever there are any (`ofChars_eq_ok_iff`). Where there are none
it has come to a character that is part of no token.

The scanner reads digits as far as they go, then a point and digits again. That
this is the longest number, and not just a long one, is a fact about two readers
and is settled in `number?_eq_some_iff`: whatever spells a number at the start of a
text lies within what the scanner reads there.

## Main definitions

* `SpellsNumber`: The texts of numbers, with digits of any script.
* `IsLongestNumber`: The longest number that a text starts with.
* `Lexes`: The tokens of a text.

## Theorems

* `SpellsNumber.of_unsigned?`, `SpellsNumber.exists_numeral`: Literals and numerals as
  numbers.
* `number?_eq_some_iff`: The scanner reads the longest number.
* `ofChars_eq_ok_iff`: The scanner finds the tokens of a text.
* `exists_of_ofChars_error`: What a text without tokens holds.
-/

namespace Spreadsheet

namespace Arithmetic

/-- The text of a number: digits, perhaps a point, perhaps more digits, or a point and
    digits. Its value is the double nearest to what the digits spell. -/
inductive SpellsNumber : List Char → Float → Prop where
  | whole {ds : List Char} (digits : ∀ c ∈ ds, Text.isDigit c = true) (ne_nil : ds ≠ []) :
      SpellsNumber ds (Literal.decimalValue ds [])
  | point {ds es : List Char} (digits : ∀ c ∈ ds, Text.isDigit c = true)
      (fraction : ∀ c ∈ es, Text.isDigit c = true) (ne_nil : ds ≠ [] ∨ es ≠ []) :
      SpellsNumber (ds ++ '.' :: es) (Literal.decimalValue ds es)

/-- The text starts with a number, and with no longer one. -/
structure IsLongestNumber (cs ds : List Char) (x : Float) : Prop where
  front : ds <+: cs
  spells : SpellsNumber ds x
  longest : ∀ es y, es <+: cs → SpellsNumber es y → es.length ≤ ds.length

/-- The tokens of a text: its symbols and numbers, each number as long as it can be,
    with blanks anywhere between them. -/
inductive Lexes : List Char → List Token → Prop where
  | nil : Lexes [] []
  | blank {c : Char} {cs : List Char} {ts : List Token} (blank : Text.isBlank c = true)
      (h : Lexes cs ts) : Lexes (c :: cs) ts
  | symbol {s : Symbol} {cs : List Char} {ts : List Token} (h : Lexes cs ts) :
      Lexes (s.char :: cs) (s.token :: ts)
  | number {ds cs : List Char} {x : Float} {ts : List Token}
      (number : IsLongestNumber (ds ++ cs) ds x) (h : Lexes cs ts) :
      Lexes (ds ++ cs) (.number x :: ts)

/-- A point is no digit, so digits in front of one stop there. -/
theorem stopsAt_point (cs : List Char) : Text.StopsAt Text.isDigit ('.' :: cs) :=
  Text.StopsAt.cons cs (by decide)

namespace SpellsNumber

variable {ds cs : List Char} {x y : Float}

/-- A number is made of digits and points. -/
theorem continues_of_mem (h : SpellsNumber ds x) :
    ds ≠ [] ∧ ∀ c ∈ ds, Numeral.continues c = true := by
  cases h with
  | whole digits ne_nil => exact ⟨ne_nil, fun c hc => Numeral.continues_of_isDigit (digits c hc)⟩
  | point digits fraction _ =>
      exact ⟨List.append_ne_nil_of_right_ne_nil _ (List.cons_ne_nil _ _),
        Numeral.continues_of_point digits fraction⟩

/-- The digits tell the value. -/
theorem value_unique (h : SpellsNumber ds x) (h' : SpellsNumber ds y) : x = y := by
  cases h with
  | whole digits _ =>
      generalize hcs : ds = cs at h'
      cases h' with
      | whole _ _ => rfl
      | @point ds' es' _ _ _ =>
          have hpoint := digits '.' (by rw [hcs]; exact List.mem_append_right _ List.mem_cons_self)
          exact absurd hpoint (by decide)
  | @point ds es digits fraction _ =>
      generalize hcs : ds ++ '.' :: es = cs at h'
      cases h' with
      | whole digits' _ =>
          have hmem : '.' ∈ cs := by
            rw [← hcs]
            exact List.mem_append_right _ List.mem_cons_self
          have hpoint := digits' '.' hmem
          exact absurd hpoint (by decide)
      | @point ds' es' digits' _ _ =>
          -- Both have their point where the digits end.
          have hspan := Text.span_of_stop digits (stopsAt_point es)
          have hspan' := Text.span_of_stop digits' (stopsAt_point es')
          rw [hcs] at hspan
          have hds := hspan.1.symm.trans hspan'.1
          have hes := (List.cons.inj (hspan.2.symm.trans hspan'.2)).2
          rw [hds, hes]

/-- Where a text starts with a number, the scanner reads at least that much. -/
theorem exists_number? (h : SpellsNumber ds x) (cs : List Char) :
    ∃ y n, Token.number? (ds ++ cs) = some (y, n) ∧ ds.length ≤ n := by
  unfold Token.number?
  cases h with
  | whole digits ne_nil =>
      simp only [List.takeWhile_append_of_pos digits, List.dropWhile_append_of_pos digits,
        List.length_append]
      -- The digits may go on in the text behind, and a point may follow them.
      have hne : (ds ++ cs.takeWhile Text.isDigit).isEmpty = false :=
        List.isEmpty_eq_false_iff.mpr (List.append_ne_nil_of_left_ne_nil ne_nil _)
      rw [hne]
      split
      · exact ⟨_, _, rfl, by omega⟩
      · exact ⟨_, _, rfl, by omega⟩
  | @point ds es digits fraction ne_nil =>
      have hspan := Text.span_of_stop digits (stopsAt_point (es ++ cs))
      rw [List.append_assoc, List.cons_append]
      simp only [hspan.1, hspan.2, List.takeWhile_append_of_pos fraction, List.length_append,
        List.length_cons]
      -- A point needs a digit on one of its sides.
      have hne : (ds.isEmpty && (es ++ cs.takeWhile Text.isDigit).isEmpty) = false := by
        rw [Bool.and_eq_false_iff, List.isEmpty_eq_false_iff, List.isEmpty_eq_false_iff]
        exact ne_nil.imp_right fun hes => List.append_ne_nil_of_left_ne_nil hes _
      rw [hne]
      exact ⟨_, _, rfl, by omega⟩

/-- A literal without a sign spells its value. -/
theorem of_unsigned? (h : Literal.unsigned? ds = some x) : SpellsNumber ds x := by
  rcases Numeral.unsigned?_cases h with
    ⟨hne, hdigits, rfl⟩ | ⟨whole, fraction, rfl, hwhole, hfraction, hne, rfl⟩
  · exact .whole hdigits hne
  · exact .point hwhole hfraction (Or.inr hne)

/-- A number with the ten digits of ASCII is a numeral. -/
theorem exists_numeral (h : SpellsNumber ds x)
    (hdigits : ∀ c ∈ ds, Text.isDigit c = true → Text.isAsciiDigit c = true) :
    ∃ m : Numeral, m.chars = ds ∧ m.value = x := by
  cases h with
  | whole digits ne_nil =>
      refine ⟨⟨ds, none, fun c hc => hdigits c hc (digits c hc), ?_, fun hnil => ?_⟩,
        List.append_nil ds, rfl⟩
      · exact fun cs hcs => by cases hcs
      · exact absurd hnil ne_nil
  | @point ds es digits fraction ne_nil =>
      refine ⟨⟨ds, some es, fun c hc => ?_, fun cs hcs c hc => ?_, fun hnil => ?_⟩, rfl, rfl⟩
      · exact hdigits c (List.mem_append_left _ hc) (digits c hc)
      · rw [← Option.some.inj hcs] at hc
        exact hdigits c (List.mem_append_right _ (List.mem_cons_of_mem _ hc)) (fraction c hc)
      · exact ne_nil.resolve_left (fun hne => hne hnil)

end SpellsNumber

/-- What the scanner reads is a number. -/
theorem exists_of_number? {cs : List Char} {x : Float} {n : Nat}
    (h : Token.number? cs = some (x, n)) : ∃ ds, ds <+: cs ∧ SpellsNumber ds x ∧ ds.length = n := by
  rcases Text.exists_stop Text.isDigit cs with ⟨ds, rest, rfl, hds, hrest⟩
  unfold Token.number? at h
  simp only [(Text.span_of_stop hds hrest).1, (Text.span_of_stop hds hrest).2] at h
  -- Behind the digits there is a point or there is none.
  split at h
  · rename_i rest'
    rcases Text.exists_stop Text.isDigit rest' with ⟨es, rest'', rfl, hes, hrest'⟩
    rw [(Text.span_of_stop hes hrest').1] at h
    split at h
    · cases h
    · rename_i hne
      rw [Bool.not_eq_true, Bool.and_eq_false_iff, List.isEmpty_eq_false_iff,
        List.isEmpty_eq_false_iff] at hne
      rw [Option.some.injEq, Prod.mk.injEq] at h
      rw [← h.1, ← h.2]
      refine ⟨ds ++ '.' :: es, ⟨rest'', ?_⟩, .point hds hes hne, ?_⟩
      · rw [List.append_assoc, List.cons_append]
      · rw [List.length_append, List.length_cons]
        omega
  · split at h
    · cases h
    · rename_i hne
      rw [Bool.not_eq_true, List.isEmpty_eq_false_iff] at hne
      rw [Option.some.injEq, Prod.mk.injEq] at h
      rw [← h.1, ← h.2]
      exact ⟨ds, ⟨rest, rfl⟩, .whole hds hne, rfl⟩

/-- The scanner reads the longest number. -/
theorem number?_eq_some_iff {cs : List Char} {x : Float} {n : Nat} :
    Token.number? cs = some (x, n) ↔ ∃ ds, IsLongestNumber cs ds x ∧ ds.length = n := by
  constructor
  · intro h
    rcases exists_of_number? h with ⟨ds, hfront, hspells, hlen⟩
    refine ⟨ds, ⟨hfront, hspells, fun es y hes hspells' => ?_⟩, hlen⟩
    rcases hes with ⟨rest, rfl⟩
    rcases hspells'.exists_number? rest with ⟨y', n', hnumber, hle⟩
    rw [h, Option.some.injEq, Prod.mk.injEq] at hnumber
    omega
  · rintro ⟨ds, ⟨hfront, hspells, hlongest⟩, hlen⟩
    rcases hfront with ⟨rest, rfl⟩
    rcases hspells.exists_number? rest with ⟨y, n', hnumber, hle⟩
    -- What is read is not longer than the longest number, so it is that one.
    rcases exists_of_number? hnumber with ⟨es, hes, hspells', hlen'⟩
    have hle' := hlongest es y hes hspells'
    have heq : es = ds :=
      (List.prefix_of_prefix_length_le hes (List.prefix_append ds rest) hle').eq_of_length
        (by omega)
    rw [heq] at hspells' hlen'
    rw [hnumber, hspells.value_unique hspells', ← hlen, ← hlen']

/-- A blank is part of no token. -/
theorem ofChars_blank {c : Char} (h : Text.isBlank c = true) (cs : List Char) :
    Token.ofChars (c :: cs) = Token.ofChars cs := by
  rw [Token.ofChars, Token.ofCharsFrom, if_pos h, Token.ofChars]

/-- A number is a token, and what follows it is read on its own. -/
theorem ofChars_number {ds cs : List Char} {x : Float} (h : IsLongestNumber (ds ++ cs) ds x) :
    Token.ofChars (ds ++ cs) = (Token.ofChars cs).map (.number x :: ·) := by
  rcases h.spells.continues_of_mem with ⟨hne, hcontinues⟩
  have hnumber := number?_eq_some_iff.mpr ⟨ds, h, rfl⟩
  cases ds with
  | nil => exact absurd rfl hne
  | cons c ds =>
      have hblank := (Numeral.plain_of_continues (hcontinues c List.mem_cons_self)).2.2
      rw [List.cons_append] at hnumber ⊢
      rw [Token.ofChars, Token.ofCharsFrom, hblank, hnumber]
      simp only [Bool.false_eq_true, if_false, Token.ofCharsFrom_eq]
      rw [List.length_cons, Nat.add_sub_cancel, List.drop_left]

/-- A character that starts no token ends the scan. -/
theorem ofChars_stray {c : Char} {cs : List Char} (hblank : Text.isBlank c = false)
    (hnumber : Token.number? (c :: cs) = none) (hsymbol : Token.ofSymbol? c = none) :
    Token.ofChars (c :: cs) = .error (.unexpectedCharacter c) := by
  rw [Token.ofChars, Token.ofCharsFrom, hblank, hnumber]
  simp only [Bool.false_eq_true, if_false, hsymbol]

theorem exists_symbol {c : Char} {t : Token} (h : Token.ofSymbol? c = some t) :
    ∃ s : Symbol, s.char = c ∧ s.token = t := by
  unfold Token.ofSymbol? at h
  split at h
  · exact ⟨.plus, rfl, Option.some.inj h⟩
  · exact ⟨.minus, rfl, Option.some.inj h⟩
  · exact ⟨.times, rfl, Option.some.inj h⟩
  · exact ⟨.divide, rfl, Option.some.inj h⟩
  · exact ⟨.opening, rfl, Option.some.inj h⟩
  · exact ⟨.closing, rfl, Option.some.inj h⟩
  · cases h

/-- What a text starts with: a blank, a number, a symbol, or a character that the scanner
    complains about. -/
theorem start_cases (c : Char) (cs : List Char) :
    Text.isBlank c = true ∨
      (∃ ds rest x, c :: cs = ds ++ rest ∧ IsLongestNumber (ds ++ rest) ds x) ∨
      (∃ s : Symbol, s.char = c) ∨
      (Token.ofChars (c :: cs) = .error (.unexpectedCharacter c) ∧ Text.isBlank c = false ∧
        Text.isDigit c = false ∧ ∀ s : Symbol, s.char ≠ c) := by
  by_cases hblank : Text.isBlank c = true
  · exact Or.inl hblank
  rw [Bool.not_eq_true] at hblank
  -- The scanner tries them in this order.
  cases hnumber : Token.number? (c :: cs) with
  | some p =>
      rcases number?_eq_some_iff.mp hnumber with ⟨ds, hlongest, _⟩
      rcases hlongest.front with ⟨rest, hrest⟩
      rw [← hrest] at hlongest
      exact Or.inr (Or.inl ⟨ds, rest, p.1, hrest.symm, hlongest⟩)
  | none =>
      cases hsymbol : Token.ofSymbol? c with
      | some t =>
          rcases exists_symbol hsymbol with ⟨s, hs, _⟩
          exact Or.inr (Or.inr (Or.inl ⟨s, hs⟩))
      | none =>
          refine Or.inr (Or.inr (Or.inr
            ⟨ofChars_stray hblank hnumber hsymbol, hblank, ?_, ?_⟩))
          · -- A digit would be a number by itself.
            by_contra hdigit
            rw [Bool.not_eq_false] at hdigit
            have hspells : SpellsNumber [c] _ :=
              .whole (List.forall_mem_singleton.mpr hdigit) (List.cons_ne_nil _ _)
            rcases hspells.exists_number? cs with ⟨y, m, hsome, _⟩
            rw [List.singleton_append, hnumber] at hsome
            cases hsome
          · rintro s rfl
            cases s <;> cases hsymbol

/-- What the scanner makes of a text: its tokens, or the complaint about a character
    that is no blank, no symbol and in no number. -/
theorem ofChars_cases (cs : List Char) :
    (∃ ts, Token.ofChars cs = .ok ts ∧ Lexes cs ts) ∨
      ∃ c ∈ cs, Token.ofChars cs = .error (.unexpectedCharacter c) ∧ Text.isBlank c = false ∧
        Text.isDigit c = false ∧ ∀ s : Symbol, s.char ≠ c := by
  -- A number takes more than one character at a time, so the induction is on the length.
  induction hn : cs.length using Nat.strong_induction_on generalizing cs with
  | _ n ih =>
      cases cs with
      | nil => exact Or.inl ⟨[], rfl, .nil⟩
      | cons c cs =>
          rw [List.length_cons] at hn
          rcases start_cases c cs with
            hblank | ⟨ds, rest, x, hcs, hlongest⟩ | ⟨s, rfl⟩ | ⟨herror, hstray⟩
          · rw [ofChars_blank hblank]
            rcases ih cs.length (by omega) cs rfl with ⟨ts, hts, hlexes⟩ | ⟨d, hd, herror⟩
            · exact Or.inl ⟨ts, hts, .blank hblank hlexes⟩
            · exact Or.inr ⟨d, List.mem_cons_of_mem _ hd, herror⟩
          · have hpos := List.length_pos_iff.mpr hlongest.spells.continues_of_mem.1
            have hshort := congrArg List.length hcs
            rw [List.length_append, List.length_cons] at hshort
            rw [hcs, ofChars_number hlongest]
            rcases ih rest.length (by omega) rest rfl with ⟨ts, hts, hlexes⟩ | ⟨d, hd, herror, hd'⟩
            · exact Or.inl ⟨_, by rw [hts]; rfl, .number hlongest hlexes⟩
            · exact Or.inr ⟨d, List.mem_append_right _ hd, by rw [herror]; rfl, hd'⟩
          · rw [ofChars_symbol]
            rcases ih cs.length (by omega) cs rfl with ⟨ts, hts, hlexes⟩ | ⟨d, hd, herror, hd'⟩
            · exact Or.inl ⟨_, by rw [hts]; rfl, .symbol hlexes⟩
            · exact Or.inr ⟨d, List.mem_cons_of_mem _ hd, by rw [herror]; rfl, hd'⟩
          · exact Or.inr ⟨c, List.mem_cons_self, herror, hstray⟩

/-- The scanner finds the tokens of a text. -/
theorem ofChars_eq_ok_iff {cs : List Char} {ts : List Token} :
    Token.ofChars cs = .ok ts ↔ Lexes cs ts := by
  constructor
  · intro h
    rcases ofChars_cases cs with ⟨ts', hts, hlexes⟩ | ⟨c, _, herror, _⟩
    · rw [h, Except.ok.injEq] at hts
      rwa [hts]
    · rw [h] at herror
      cases herror
  · intro h
    induction h with
    | nil => rfl
    | blank blank h ih => rw [ofChars_blank blank, ih]
    | symbol h ih => rw [ofChars_symbol, ih]; rfl
    | number number h ih => rw [ofChars_number number, ih]; rfl

/-- A text without tokens holds a character that is part of none. -/
theorem exists_of_ofChars_error {cs : List Char} (h : ¬ ∃ ts, Lexes cs ts) :
    ∃ c ∈ cs, Token.ofChars cs = .error (.unexpectedCharacter c) ∧ Text.isBlank c = false ∧
      Text.isDigit c = false ∧ ∀ s : Symbol, s.char ≠ c := by
  rcases ofChars_cases cs with ⟨ts, _, hlexes⟩ | hstray
  · exact absurd ⟨ts, hlexes⟩ h
  · exact hstray

end Arithmetic

end Spreadsheet
