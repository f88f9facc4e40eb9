import Spreadsheet.Proofs.Formula.Literal
import Spreadsheet.Proofs.Formula.Mention
import Mathlib.Data.List.Induction

/-!
# Regular Formulas

The formulas in which the scanner for mentions sees what evaluation sees.

The two read a formula in different ways. The scanner takes the literals out and
looks at what is left, so that characters come together that never stood side by
side; evaluation steps over literals and never joins what stands around them.
They also disagree on what a backslash is good for and on a quote without a
partner. `IsRegular` excludes all three: there is no backslash, the quotes come
in pairs, and no literal begins right behind a character that a mention could go
on from. A range must name a block on top of that, since otherwise its ends are
read one by one.

A text is `Tidy` if it satisfies the part of this that concerns quotes. Tidy
texts may be cut wherever an even number of quotes lies on the left, and
`Tidy.mentionsIn_split` says that their mentions are cut with them.

`Within` carries a fixed list of mentions down into the parts of a formula: the
part is tidy, and the list has all its mentions. Every way in which evaluation
takes an expression apart keeps it, because it cuts at a character that stands in
no mention (`Within.split`).

## Main definitions

* `keepsApart`: No literal begins right behind a mention character.
* `Tidy`: What a formula must satisfy for its literals to be harmless.
* `Formula.IsRegular`: A tidy formula whose ranges all name blocks.
* `mentionsIn`: The mentions of a text outside its literals.
* `Within`: A tidy text with all its mentions in a list.

## Theorems

* `Tidy.left`, `Tidy.right`: Both parts of a cut are tidy.
* `Tidy.atStart?_strip`: Taking out literals changes no mention at the start.
* `Tidy.mentionsIn_split`: The mentions of a text that is cut.
* `Within.split`, `Within.trim`: What evaluation does to a text keeps it within.
-/

namespace Spreadsheet

open Mention StringLiteral

/-- Whether no literal begins right behind a mention character, for the rest of a
    text: `after` says that the character before is one, and `quoted` that the
    number of quotes before is odd. -/
def keepsApart (after quoted : Bool) : List Char → Bool
  | [] => true
  | c :: rest =>
    if c = '"' then (quoted || !after) && keepsApart false (!quoted) rest
    else keepsApart (isPart c) quoted rest

/-- A text whose literals are harmless: it escapes nothing, its quotes come in
    pairs, and no odd-numbered quote follows a letter `A` to `Z`, a digit or a
    colon. -/
structure Tidy (cs : List Char) : Prop where
  /-- There is no backslash. -/
  escape : '\\' ∉ cs
  /-- The number of quotes is even. -/
  even : cs.count '"' % 2 = 0
  /-- No quote that opens a literal follows a mention character. -/
  apart : keepsApart false false cs = true

instance (cs : List Char) : Decidable (Tidy cs) :=
  decidable_of_iff ('\\' ∉ cs ∧ cs.count '"' % 2 = 0 ∧ keepsApart false false cs = true)
    ⟨fun h => ⟨h.1, h.2.1, h.2.2⟩, fun h => ⟨h.escape, h.even, h.apart⟩⟩

/-- A formula in which scanning for mentions and evaluating agree: it is tidy, and
    all its ranges name blocks. -/
def Formula.IsRegular (formula : String) : Prop :=
  Tidy formula.toList ∧ ∀ text ∈ Formula.rangeTexts formula, (Block.ofText text).toOption.isSome

instance (formula : String) : Decidable (Formula.IsRegular formula) :=
  inferInstanceAs (Decidable (_ ∧ _))

/-- With fewer mention characters before it, a text keeps its literals apart all
    the more. -/
theorem keepsApart_of_after {after quoted : Bool} {cs : List Char}
    (h : keepsApart after quoted cs = true) : keepsApart false quoted cs = true := by
  cases cs with
  | nil => rfl
  | cons c cs =>
      rw [keepsApart] at h ⊢
      by_cases hc : c = '"'
      · rw [if_pos hc, Bool.and_eq_true] at h
        rw [if_pos hc, Bool.and_eq_true]
        exact ⟨Bool.or_true quoted, h.2⟩
      · rw [if_neg hc] at h ⊢
        exact h

theorem keepsApart_append {after quoted : Bool} {a b : List Char}
    (h : keepsApart after quoted (a ++ b) = true) :
    keepsApart after quoted a = true ∧ keepsApart false (quoted ^^ isOpen a) b = true := by
  induction a generalizing after quoted with
  | nil =>
      refine ⟨rfl, ?_⟩
      rw [show isOpen [] = false from rfl, Bool.xor_false]
      exact keepsApart_of_after h
  | cons c a ih =>
      rw [List.cons_append, keepsApart] at h
      rw [keepsApart, isOpen_cons]
      by_cases hc : c = '"'
      · rw [if_pos hc, Bool.and_eq_true] at h
        -- A quote changes the parity for everything behind it.
        have hrest := ih h.2
        rw [if_pos hc, Bool.and_eq_true, hc, beq_self_eq_true]
        refine ⟨⟨h.1, hrest.1⟩, ?_⟩
        rw [Bool.xor_true, Bool.xor_not, ← Bool.not_xor]
        exact hrest.2
      · rw [if_neg hc] at h ⊢
        rw [beq_eq_false_iff_ne.mpr hc, Bool.xor_false]
        exact ih h

namespace Tidy

theorem nil : Tidy [] := by decide

theorem paired {cs : List Char} (h : Tidy cs) : Paired cs := paired_of_even h.escape h.even

theorem left {a b : List Char} (h : Tidy (a ++ b)) (ha : a.count '"' % 2 = 0) : Tidy a where
  escape := fun hm => h.escape (List.mem_append_left b hm)
  even := ha
  apart := (keepsApart_append h.apart).1

theorem right {a b : List Char} (h : Tidy (a ++ b)) (ha : a.count '"' % 2 = 0) : Tidy b where
  escape := fun hm => h.escape (List.mem_append_right a hm)
  even := by
    have := h.even
    rw [List.count_append] at this
    omega
  apart := by
    have := (keepsApart_append h.apart).2
    rwa [isOpen_eq_false_iff.mpr ha, Bool.xor_false] at this

theorem tail {c : Char} {cs : List Char} (h : Tidy (c :: cs)) (hc : c ≠ '"') : Tidy cs :=
  h.right (a := [c]) (by rw [List.count_cons_of_ne hc, List.count_nil])

/-- No literal begins right behind a mention character. -/
theorem head?_ne_quote {c : Char} {cs : List Char} (h : Tidy (c :: cs)) (hc : isPart c = true) :
    cs.head? ≠ some '"' := by
  intro hq
  have hne : c ≠ '"' := fun hcq => by
    rw [hcq] at hc
    exact absurd hc (by decide)
  cases cs with
  | nil => cases hq
  | cons d cs =>
      rw [List.head?_cons, Option.some.injEq] at hq
      have := h.apart
      rw [keepsApart, if_neg hne, keepsApart, if_pos hq, hc] at this
      cases this

/-- Taking out literals leaves the run of mention characters at the start of a
    text as it is. -/
theorem takeWhile_strip {cs : List Char} (h : Tidy cs) (hq : cs.head? ≠ some '"') :
    (strip cs).takeWhile isPart = cs.takeWhile isPart := by
  induction cs with
  | nil => rfl
  | cons c cs ih =>
      have hc : c ≠ '"' := fun hc => hq (by rw [hc]; rfl)
      rw [strip_plain cs hc]
      by_cases hpart : isPart c = true
      · rw [List.takeWhile_cons_of_pos hpart, List.takeWhile_cons_of_pos hpart,
          ih (h.tail hc) (h.head?_ne_quote hpart)]
      · rw [List.takeWhile_cons_of_neg hpart, List.takeWhile_cons_of_neg hpart]

/-- Taking out literals changes no mention at the start of a text. -/
theorem atStart?_strip {cs : List Char} (h : Tidy cs) (hq : cs.head? ≠ some '"') :
    atStart? (strip cs) = atStart? cs := by
  rw [atStart?_takeWhile, h.takeWhile_strip hq, ← atStart?_takeWhile]

end Tidy

/-- The mentions of a text outside its literals. -/
def mentionsIn (cs : List Char) : List Mention := Mention.scan (strip cs)

theorem mentionsIn_literal {body : List Char} (rest : List Char) (quote : '"' ∉ body)
    (escape : '\\' ∉ body) : mentionsIn ('"' :: (body ++ '"' :: rest)) = mentionsIn rest := by
  rw [mentionsIn, strip_literal rest quote escape]
  rfl

namespace Tidy

/-- What follows the first literal of a tidy text is tidy. -/
theorem of_literal {body rest : List Char} (h : Tidy ('"' :: (body ++ '"' :: rest)))
    (quote : '"' ∉ body) : Tidy rest := by
  have heq : '"' :: (body ++ '"' :: rest) = ('"' :: (body ++ ['"'])) ++ rest := by
    rw [List.cons_append, List.append_assoc, List.singleton_append]
  rw [heq] at h
  refine h.right ?_
  rw [List.count_cons_self, List.count_append, List.count_eq_zero.mpr quote,
    List.count_singleton_self]

theorem mentionsIn_of_none {c : Char} {rest : List Char} (h : Tidy (c :: rest)) (hc : c ≠ '"')
    (hm : atStart? (c :: rest) = none) : mentionsIn (c :: rest) = mentionsIn rest := by
  have hq : (c :: rest).head? ≠ some '"' := fun hq => hc (Option.some.inj hq)
  have hm' := h.atStart?_strip hq
  rw [hm, strip_plain rest hc] at hm'
  rw [mentionsIn, strip_plain rest hc, scan_of_none hm', mentionsIn]

theorem mentionsIn_of_some {m : Mention} {rest : List Char} (h : Tidy (m.chars ++ rest))
    (hm : atStart? (m.chars ++ rest) = some m) :
    mentionsIn (m.chars ++ rest) = m :: mentionsIn rest ∧ Tidy rest := by
  rcases (exists_of_atStart? hm).2 with ⟨hpart, c, cs, hcs, hletter⟩
  have hquote : '"' ∉ m.chars := fun hq => absurd (hpart _ hq) (by decide)
  have hstrip : strip (m.chars ++ rest) = m.chars ++ strip rest := by
    rw [strip_append rest (paired_of_not_mem hquote), strip_of_not_mem hquote]
  have hq : (m.chars ++ rest).head? ≠ some '"' := fun hq => by
    rw [hcs, List.cons_append, List.head?_cons, Option.some.injEq] at hq
    rw [hq] at hletter
    exact absurd hletter (by decide)
  have hm' := h.atStart?_strip hq
  rw [hm, hstrip] at hm'
  refine ⟨?_, h.right (by rw [List.count_eq_zero.mpr hquote])⟩
  rw [mentionsIn, hstrip, scan_of_some hm', mentionsIn]

/-- The mentions of a text that is cut at a character of none. -/
theorem mentionsIn_split {a b : List Char} {c : Char} (h : Tidy (a ++ c :: b))
    (ha : a.count '"' % 2 = 0) (hpart : isPart c = false) (hc : c ≠ '"') :
    mentionsIn (a ++ c :: b) = mentionsIn a ++ mentionsIn b := by
  have hletter : Column.isLetter c = false := by
    by_contra hl
    rw [Bool.not_eq_false] at hl
    rw [isPart_of_isLetter hl] at hpart
    exact absurd hpart.symm Bool.false_ne_true
  -- The literals on the left are closed, so the text is stripped on each side alone.
  rw [mentionsIn, strip_append _ (h.left ha).paired, strip_plain b hc,
    scan_append (Apart.cons_right _ _ hpart), scan_of_not_isLetter _ hletter]
  rfl

end Tidy

/-- A tidy text all of whose mentions are in a list. -/
structure Within (ms : List Mention) (cs : List Char) : Prop where
  /-- Its literals are harmless. -/
  tidy : Tidy cs
  /-- Its mentions are in the list. -/
  mem : ∀ m ∈ mentionsIn cs, m ∈ ms

namespace Within

variable {ms : List Mention}

theorem self {cs : List Char} (h : Tidy cs) : Within (mentionsIn cs) cs := ⟨h, fun _ hm => hm⟩

/-- Both sides of a cut are within, if the character at which it is made stands in
    no mention and in no literal. -/
theorem split {a b : List Char} {c : Char} (h : Within ms (a ++ c :: b))
    (ha : a.count '"' % 2 = 0) (hpart : isPart c = false) (hc : c ≠ '"') :
    Within ms a ∧ Within ms b := by
  have hsplit := h.tidy.mentionsIn_split ha hpart hc
  refine ⟨⟨h.tidy.left ha, fun m hm => h.mem m ?_⟩, ⟨(h.tidy.right ha).tail hc, fun m hm =>
    h.mem m ?_⟩⟩
  · rw [hsplit]
    exact List.mem_append_left _ hm
  · rw [hsplit]
    exact List.mem_append_right _ hm

theorem blank_ne_quote {c : Char} (h : Text.isBlank c = true) : c ≠ '"' := by
  intro hc
  rw [hc] at h
  exact absurd h (by decide)

theorem trimLeft {cs : List Char} (h : Within ms cs) : Within ms (Text.trimLeft cs) := by
  rw [Text.trimLeft]
  induction cs with
  | nil => exact h
  | cons c cs ih =>
      by_cases hc : Text.isBlank c = true
      · rw [List.dropWhile_cons_of_pos hc]
        exact ih (h.split (a := []) rfl (isPart_of_isBlank hc) (blank_ne_quote hc)).2
      · rw [List.dropWhile_cons_of_neg hc]
        exact h

theorem trimRight {cs : List Char} (h : Within ms cs) : Within ms (Text.trimRight cs) := by
  rw [Text.trimRight]
  induction cs using List.reverseRecOn with
  | nil => exact h
  | append_singleton cs c ih =>
      rw [List.reverse_append, List.reverse_singleton, List.singleton_append]
      by_cases hc : Text.isBlank c = true
      · rw [List.dropWhile_cons_of_pos hc]
        have hne := blank_ne_quote hc
        -- Without the blank the quotes still come in pairs, so the cut is a good one.
        have heven : cs.count '"' % 2 = 0 := by
          have := h.tidy.even
          rwa [List.count_append, List.count_cons_of_ne hne, List.count_nil, Nat.add_zero] at this
        exact ih (h.split heven (isPart_of_isBlank hc) hne).1
      · rw [List.dropWhile_cons_of_neg hc, List.reverse_cons, List.reverse_reverse]
        exact h

/-- Blanks stand in no mention, so leaving them out at the ends loses none. -/
theorem trim {cs : List Char} (h : Within ms cs) : Within ms (Text.trim cs) :=
  h.trimLeft.trimRight

end Within

end Spreadsheet
