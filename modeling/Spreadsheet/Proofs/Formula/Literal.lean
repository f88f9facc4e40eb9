import Spreadsheet.Formula.StringLiteral
import Mathlib.Data.List.TakeWhile

/-!
# Texts with Paired Quotes

What marking and stripping do where every quote has a partner.

In a text that escapes nothing, the first quote opens a literal, the second one
closes it, and so on in pairs. `Paired` says this by recursion on the text: it is
made of characters outside all literals and of whole literals. Backslashes
between the literals do no harm, so a text without quotes is paired, whatever
else is in it.

A paired text can be marked by itself: what follows does not reach back into it.
That is what lets an argument walk through a formula part by part.

## Main definitions

* `isOpen`: Whether the quotes passed are odd in number.
* `Paired`: A text made of single characters and whole literals.

## Theorems

* `paired_of_even`: Without backslashes, an even number of quotes is enough.
* `paired_of_not_mem`: A text without quotes is paired.
* `mark_plain`, `mark_literal`, `mark_append`: The marks of a text, part by part.
* `strip_plain`, `strip_literal`, `strip_append`: The same for what is left
  outside the literals.
-/

namespace Spreadsheet

namespace StringLiteral

/-- Whether a literal is open behind a text: the number of its quotes is odd. -/
def isOpen (cs : List Char) : Bool := cs.count '"' % 2 == 1

theorem isOpen_cons (c : Char) (cs : List Char) :
    isOpen (c :: cs) = (isOpen cs ^^ c == '"') := by
  rw [isOpen, isOpen]
  by_cases hc : c = '"'
  · rw [hc, List.count_cons_self, beq_self_eq_true]
    rcases Nat.mod_two_eq_zero_or_one (cs.count '"') with h0 | h1
    · rw [h0, show (cs.count '"' + 1) % 2 = 1 by omega]
      rfl
    · rw [h1, show (cs.count '"' + 1) % 2 = 0 by omega]
      rfl
  · rw [List.count_cons_of_ne hc, beq_eq_false_iff_ne.mpr hc, Bool.xor_false]

theorem isOpen_eq_false_iff {cs : List Char} : isOpen cs = false ↔ cs.count '"' % 2 = 0 := by
  rw [isOpen, beq_eq_false_iff_ne]
  omega

/-- A text made of characters outside literals and of whole literals, with no
    backslash in a literal. -/
inductive Paired : List Char → Prop
  | nil : Paired []
  /-- A character outside all literals. -/
  | plain {c : Char} {rest : List Char} (quote : c ≠ '"') (paired : Paired rest) :
      Paired (c :: rest)
  /-- A whole literal. -/
  | literal {body rest : List Char} (quote : '"' ∉ body) (escape : '\\' ∉ body)
      (paired : Paired rest) : Paired ('"' :: (body ++ '"' :: rest))

/-- A text without quotes is paired. -/
theorem paired_of_not_mem {cs : List Char} (h : '"' ∉ cs) : Paired cs := by
  induction cs with
  | nil => exact Paired.nil
  | cons c cs ih =>
      rw [List.mem_cons, not_or] at h
      exact Paired.plain (fun hc => h.1 hc.symm) (ih h.2)

/-- Without backslashes, an even number of quotes is enough. -/
theorem paired_of_even {cs : List Char} (escape : '\\' ∉ cs) (even : cs.count '"' % 2 = 0) :
    Paired cs := by
  induction hn : cs.length using Nat.strong_induction_on generalizing cs with
  | _ n ih =>
      cases cs with
      | nil => exact Paired.nil
      | cons c cs =>
          rw [List.mem_cons, not_or] at escape
          rw [List.length_cons] at hn
          by_cases hc : c = '"'
          · -- The quote has a partner, or their number would be odd.
            subst hc
            rw [List.count_cons_self] at even
            have hmem : '"' ∈ cs := by
              rw [← List.count_pos_iff]
              omega
            rcases List.eq_append_cons_of_mem hmem with ⟨body, rest, rfl, hbody⟩
            rw [List.mem_append, not_or, List.mem_cons, not_or] at escape
            rw [List.count_append, List.count_cons_self, List.count_eq_zero.mpr hbody] at even
            rw [List.length_append, List.length_cons] at hn
            exact Paired.literal hbody escape.2.1
              (ih rest.length (by omega) escape.2.2.2 (by omega) rfl)
          · rw [List.count_cons_of_ne hc] at even
            exact Paired.plain hc (ih cs.length (by omega) escape.2 even rfl)

theorem Paired.append {a b : List Char} (ha : Paired a) (hb : Paired b) : Paired (a ++ b) := by
  induction ha with
  | nil => exact hb
  | plain quote _ ih => exact Paired.plain quote ih
  | literal quote escape _ ih =>
      rw [List.cons_append, List.append_assoc, List.cons_append]
      exact Paired.literal quote escape ih

theorem restLength?_of_body {body : List Char} (rest : List Char) (quote : '"' ∉ body)
    (escape : '\\' ∉ body) : restLength? (body ++ '"' :: rest) = some (body.length + 1) := by
  induction body with
  | nil => rfl
  | cons c body ih =>
      rw [List.mem_cons, not_or] at quote escape
      have hstep : restLength? (c :: (body ++ '"' :: rest))
          = (restLength? (body ++ '"' :: rest)).map (· + 1) := by
        rw [restLength?]
        · exact fun hc => quote.1 hc.symm
        · exact fun hc _ => escape.1 hc.symm
        · exact fun d rest' hc _ => escape.1 hc.symm
      rw [List.cons_append, hstep, ih quote.2 escape.2]
      rfl

theorem markFrom_append (a b : List Char) :
    markFrom a.length (a ++ b) = a.map (fun c => (c, true)) ++ mark b := by
  induction a with
  | nil => rfl
  | cons c a ih => rw [List.length_cons, List.cons_append, markFrom, ih]; rfl

theorem mark_plain {c : Char} (rest : List Char) (h : c ≠ '"') :
    mark (c :: rest) = (c, false) :: mark rest := by
  rw [mark, markFrom, if_neg h]
  rfl

theorem mark_literal {body : List Char} (rest : List Char) (quote : '"' ∉ body)
    (escape : '\\' ∉ body) :
    mark ('"' :: (body ++ '"' :: rest))
      = ('"' :: (body ++ ['"'])).map (fun c => (c, true)) ++ mark rest := by
  have hlen : body.length + 1 = (body ++ ['"']).length := by
    rw [List.length_append, List.length_singleton]
  rw [mark, markFrom, if_pos rfl, restLength?_of_body rest quote escape]
  simp only
  rw [hlen, show body ++ '"' :: rest = (body ++ ['"']) ++ rest by
    rw [List.append_assoc, List.singleton_append], markFrom_append]
  rfl

/-- Nothing that follows a paired text changes its marks. -/
theorem mark_append {a : List Char} (b : List Char) (h : Paired a) :
    mark (a ++ b) = mark a ++ mark b := by
  induction h with
  | nil => rfl
  | plain quote _ ih =>
      rw [List.cons_append, mark_plain _ quote, mark_plain _ quote, ih, List.cons_append]
  | literal quote escape _ ih =>
      rw [List.cons_append, List.append_assoc, List.cons_append, mark_literal _ quote escape,
        mark_literal _ quote escape, ih, List.append_assoc]

theorem mark_of_not_mem {cs : List Char} (h : '"' ∉ cs) :
    mark cs = cs.map fun c => (c, false) := by
  induction cs with
  | nil => rfl
  | cons c cs ih =>
      rw [List.mem_cons, not_or] at h
      rw [mark_plain cs (fun hc => h.1 hc.symm), ih h.2]
      rfl

theorem strip_plain {c : Char} (rest : List Char) (h : c ≠ '"') :
    strip (c :: rest) = c :: strip rest := by
  rw [strip, mark_plain rest h]
  rfl

theorem strip_literal {body : List Char} (rest : List Char) (quote : '"' ∉ body)
    (escape : '\\' ∉ body) : strip ('"' :: (body ++ '"' :: rest)) = strip rest := by
  rw [strip, mark_literal rest quote escape, List.filterMap_append, strip]
  have hnone : (('"' :: (body ++ ['"'])).map (fun c => (c, true))).filterMap
      (fun x : Char × Bool => if x.2 then none else some x.1) = [] := by
    rw [List.filterMap_map, List.filterMap_eq_nil_iff]
    intro c _
    rfl
  rw [hnone]
  rfl

theorem strip_append {a : List Char} (b : List Char) (h : Paired a) :
    strip (a ++ b) = strip a ++ strip b := by
  rw [strip, mark_append b h, List.filterMap_append]
  rfl

theorem strip_of_not_mem {cs : List Char} (h : '"' ∉ cs) : strip cs = cs := by
  induction cs with
  | nil => rfl
  | cons c cs ih =>
      rw [List.mem_cons, not_or] at h
      rw [strip_plain cs (fun hc => h.1 hc.symm), ih h.2]

end StringLiteral

end Spreadsheet
