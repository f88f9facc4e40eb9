import Spreadsheet.Proofs.Evaluate.Call
import Spreadsheet.Proofs.Evaluate.Inert
import Spreadsheet.Proofs.Formula.Escape

/-!
# Literals as Arguments

Which texts come through a call as they were written.

A literal by itself has what is written between its quotes as its value, whatever that
is. Among the arguments of a call it has to be found first. This goes well as long as
no text ends with a backslash: then the literals are arguments, and a call that joins
their values gives the contents one after the other.

A text that ends with a backslash is lost wherever it stands. In front of a comma it is
joined to the literal behind it. At the end of the call the closing parenthesis is not
found, so that the formula is no call but arithmetic. Since the opening parenthesis
survives in that, the value is a number or an error, and never a text.

## Main definitions

* `StringLiteral.AreKept`: Texts that come through a call as they were written.

## Theorems

* `Scope.value?_ofText`: The value of a literal.
* `Scope.expression_of_unclosed`: A call whose parenthesis is not found has no text.
* `Scope.evaluate_ofText`: A call that joins texts.
* `StringLiteral.areKept_iff`: Which texts come through a call.
-/

namespace Spreadsheet

open StringLiteral

/-- An expression in which something is left to compute does not come to a text. -/
theorem Arithmetic.valueOf_ne_text {text cs : List Char} {c : Char} (hc : c ∈ cs)
    (hsurvives : survives c = true) (s : String) : valueOf text cs ≠ .text s := by
  have hne : cs.filter survives ≠ [] := List.ne_nil_of_mem (List.mem_filter.mpr ⟨hc, hsurvives⟩)
  rw [valueOf_eq_ofArithmetic hne]
  exact Value.ofArithmetic_ne_text _ s

namespace Scope

variable {scope : Scope}

/-- The value of a literal is what is written between its quotes. -/
theorem value?_ofText (scope : Scope) (depth : Nat) (t : List Char) :
    scope.value? (depth + 1) (ofText t) = some (.text (String.ofList (escape t))) := by
  have hquoted : Form.isQuoted (ofText t) = true := by
    rw [Form.isQuoted, decide_eq_true_eq, ofText, ← List.cons_append, List.getLast?_concat]
    exact ⟨rfl, rfl⟩
  have hform : Form.ofTrimmed (Text.trim (ofText t)) = .quoted (escape t) := by
    rw [trim_ofText, Form.ofTrimmed_of_isQuoted hquoted, ofText, List.drop_succ_cons,
      List.drop_zero, List.dropLast_concat]
  exact (Yields.text (by rw [hform]; rfl)).value?_eq

section Unclosed

variable {name : List Char} (hne : name ≠ [])
  (hname : ∀ c ∈ name, Column.isLetter c = true) {cs args : List Char}
  (hcs : cs = name ++ '(' :: (args ++ [')']))
  (h : Nesting.matching? (args ++ [')']) = none)

include hne hname hcs h

/-- A call whose parenthesis is not found is arithmetic without a single cell. -/
theorem form_of_unclosed :
    Form.ofTrimmed (Text.trim cs) = .arithmetic cs (cs.map .plain) := by
  have hstart : Call.start? cs = some (name, args ++ [')']) := by
    rw [hcs]
    exact Call.start?_of_name _ hne hname
  have htrim : Text.trim cs = cs := by
    rw [hcs]
    exact Form.trim_call hne hname
  have hwhole : Call.whole? cs = none := by
    rw [Call.whole?, hstart]
    simp only [h]
  -- Where a call is not closed, all that follows is plain.
  have hunclosed : Piece.start? cs = some .unclosed := by
    rw [Piece.start?, hstart]
    simp only [h]
  have hscan : Piece.scan cs = cs.map .plain := by
    rcases List.exists_cons_of_ne_nil hne with ⟨c, letters, hletters⟩
    rw [hcs, hletters, List.cons_append] at hunclosed ⊢
    exact Piece.scan_unclosed (hname c (by rw [hletters]; exact List.mem_cons_self)) hunclosed
  rw [htrim, Form.ofTrimmed_of_start? hstart, Form.operation, hwhole, hscan]

/-- A call whose parenthesis is not found does not come to a text. -/
theorem expression_of_unclosed (s : String) : scope.expression cs ≠ .text s := by
  rw [expression_of_map_plain (form_of_unclosed hne hname hcs h)]
  refine Arithmetic.valueOf_ne_text (c := '(') ?_ (by decide) s
  rw [hcs]
  exact List.mem_append_right _ List.mem_cons_self

end Unclosed

/-- The values of literals. -/
theorem mapM_ofText (scope : Scope) (depth : Nat) (ts : List (List Char)) :
    (ts.map ofText).mapM (scope.value? (depth + 1))
      = some (ts.map fun t => .text (String.ofList (escape t))) :=
  mapM_map_of_some fun t _ => value?_ofText scope depth t

/-- Texts are joined one after the other. -/
theorem call_concat (scope : Scope) (ts : List (List Char)) :
    scope.call Builtin.concat.apply (ts.map fun t => .text (String.ofList (escape t)))
      = .text (String.ofList (ts.flatMap escape)) := by
  have hcontribution : (ts.map fun t => Value.text (String.ofList (escape t))).flatMap
      scope.contribution = ts.map fun t => .text (String.ofList (escape t)) := by
    rw [List.flatMap_map]
    exact List.flatMap_pure_eq_map _ _
  rw [call, hcontribution]
  show Value.text (String.join _) = _
  rw [String.join_eq, List.map_map, List.map_map, List.map_map, List.flatMap]
  congr 3
  refine List.map_congr_left fun t _ => ?_
  exact String.toList_ofList

/-- A call that joins texts comes to their contents, if their literals are arguments. -/
theorem evaluate_ofText (cells : Cells) {ts : List (List Char)}
    (hts : ∀ t ∈ ts, endsInBackslash t = false) :
    evaluate ⟨cells, .builtins⟩ (String.ofList ('=' :: Call.text "CONCAT".toList (ts.map ofText)))
      = .text (String.ofList (ts.flatMap escape)) := by
  have hargs : ∀ a ∈ ts.map ofText, Call.isArgument a = true ∧ Text.trim a = a := by
    intro a ha
    rcases List.mem_map.mp ha with ⟨t, ht, rfl⟩
    exact ⟨isArgument_ofText (hts t ht), trim_ofText t⟩
  have hlast : (ts.map ofText).getLast? ≠ some [] := by
    intro hlast
    rcases List.mem_map.mp (List.mem_of_getLast? hlast) with ⟨t, _, ht⟩
    cases ht
  have hf : (Scope.mk cells .builtins).functions.get? (String.ofList "CONCAT".toList)
      = some Builtin.concat.apply := Registry.get?_builtins .concat
  have hvalue := value?_text (by decide) (List.all_eq_true.mp (by decide)) hargs hlast hf
    (mapM_ofText _ 398 ts)
  rw [call_concat] at hvalue
  rw [evaluate_formula]
  exact expression_of_value? hvalue fun r hr => by cases hr

end Scope

namespace StringLiteral

/-- The texts come through a call as they were written, whatever the cells hold. -/
structure AreKept (cells : Cells) (ts : List (List Char)) : Prop where
  /-- The arguments that are found are the literals. -/
  arguments : Call.arguments (Call.join (ts.map ofText)) = ts.map ofText
  /-- A call that joins the arguments comes to the contents of the literals. -/
  value : Scope.evaluate ⟨cells, .builtins⟩
      (String.ofList ('=' :: Call.text "CONCAT".toList (ts.map ofText)))
    = .text (String.ofList (ts.flatMap escape))

/-- The reader of literals finds where each literal ends. The texts come through a call
    exactly if none of them ends with a backslash. -/
theorem areKept_iff (cells : Cells) (ts : List (List Char)) :
    (∀ t ∈ ts, restLength? (escape t ++ ['"']) = some (escape t ++ ['"']).length) ∧
      (AreKept cells ts ↔ ∀ t ∈ ts, endsInBackslash t = false) := by
  refine ⟨fun t _ => by rw [restLength?_escape, List.length_append, List.length_singleton], ?_⟩
  constructor
  · intro hkept
    have hfront := (arguments_ofText_iff ts).mp hkept.arguments
    rcases List.eq_nil_or_concat' ts with rfl | ⟨front, t, rfl⟩
    · exact fun t ht => absurd ht List.not_mem_nil
    · rw [List.dropLast_concat] at hfront
      -- Only the last literal is left, and behind it the call has to end.
      have hlast : endsInBackslash t = false := by
        rw [← Bool.not_eq_true]
        intro h
        have hvalue := hkept.value
        rw [Scope.evaluate_formula] at hvalue
        exact Scope.expression_of_unclosed (by decide) (List.all_eq_true.mp (by decide)) rfl
          (matching?_ofText hfront h) _ hvalue
      intro u hu
      rcases List.mem_append.mp hu with hu | hu
      · exact hfront u hu
      · rwa [List.mem_singleton.mp hu]
  · intro hts
    exact ⟨(arguments_ofText_iff ts).mpr fun t ht => hts t (List.mem_of_mem_dropLast ht),
      Scope.evaluate_ofText cells hts⟩

/-- A backslash by itself takes the literal behind it along. -/
theorem not_areKept_backslash :
    ¬ ∀ (cells : Cells) (ts : List (List Char)), ts ≠ [] → AreKept cells ts := by
  intro hkept
  have harguments := (hkept ∅ [['\\'], ['b']] (by decide)).arguments
  exact absurd harguments (by decide +kernel)

end StringLiteral

end Spreadsheet
