import Spreadsheet.Proofs.Address.Name
import Spreadsheet.Proofs.Evaluate.Blank
import Spreadsheet.Proofs.Evaluate.Call

/-!
# Ranges and Lists of Cells

A function that takes any number of arguments makes no difference between a range
and the cells of its block, one by one.

The two calls are read in different ways. A range is one argument, and what it
contributes is looked up in the cells that are present. The names are arguments of
their own, each with the value of its cell, and an absent cell is an empty text
there. So the function receives the same values in the same order, with empty texts
for the cells that a range leaves out (`Cells.filter_valuesIn`), and the functions in
question ignore these (`Builtin.ignoresBlanks`). This holds at every depth, since
neither the range nor the names need more than one level.

## Main definitions

* `Address.IsSpelled`: A text that is spelled like a name.
* `CellName.ofPosition`: The name that is written for a row and a column.

## Theorems

* `Block.exists_of_isSpelled`: Two names with a colon between them name a block.
* `Form.ofTrimmed_range`: They are read as a range.
* `Scope.value?_listed`: A call with the names of a block has the value of the call
  with the range.
* `Scope.evaluate_range_eq_listed`: A range means the same as its cells.
-/

namespace Spreadsheet

open Arithmetic

/-- A text that is spelled like the name of a cell. -/
def Address.IsSpelled (name : List Char) : Prop :=
  ∃ letters digits, IsSpelling letters digits ∧ name = letters ++ digits

namespace Address.IsSpelled

variable {name : List Char}

theorem isName (h : IsSpelled name) : Mention.IsName name := by
  rcases h with ⟨letters, digits, hspelling, rfl⟩
  refine ⟨letters, digits, rfl, hspelling.letters_ne_nil, hspelling.digits_ne_nil,
    fun c hc => decide_eq_true (hspelling.isLetter c hc), fun c hc => ?_⟩
  exact Text.isDigit_of_isAsciiDigit c (decide_eq_true (hspelling.isDigit c hc))

theorem exists_ofId (h : IsSpelled name) :
    ∃ a, Address.ofId (String.ofList (Text.trim name)) = .ok a := by
  have htrim := Mention.trim_of_isPart h.isName.isPart
  rcases h with ⟨letters, digits, hspelling, rfl⟩
  rcases exists_of_isSpelling hspelling (Or.inl rfl) with ⟨a, ha, _⟩
  rw [List.append_nil] at ha
  exact ⟨a, by rw [htrim, ofId, ofId?, String.toList_ofList, ha]⟩

end Address.IsSpelled

/-- Two names with a colon between them name a block. -/
theorem Block.exists_of_isSpelled {first last : List Char} (hfirst : Address.IsSpelled first)
    (hlast : Address.IsSpelled last) : ∃ block, ofChars (first ++ ':' :: last) = .ok block := by
  rcases hfirst.exists_ofId with ⟨a, ha⟩
  rcases hlast.exists_ofId with ⟨b, hb⟩
  have hbefore : ∀ c ∈ first, (c != ':') = true := by
    intro c hc
    rw [bne_iff_ne]
    rintro rfl
    exact hfirst.isName.not_mem_colon hc
  have hstop : Text.StopsAt (· != ':') (':' :: last) := Text.StopsAt.cons last rfl
  have hspan := Text.span_of_stop hbefore hstop
  have hcolon : last.contains ':' = false := by
    simpa using hlast.isName.not_mem_colon
  rw [ofChars]
  simp only [hspan, hcolon, ha, hb]
  exact ⟨spanning a b, rfl⟩

/-- Two names with a colon between them are a range, if they name a block. -/
theorem Form.ofTrimmed_range {first last : List Char} {block : Block}
    (hfirst : Mention.IsName first) (hlast : Mention.IsName last)
    (hblock : Block.ofChars (first ++ ':' :: last) = .ok block) :
    ofTrimmed (first ++ ':' :: last)
      = .range ⟨String.ofList (first ++ ':' :: last), block⟩ := by
  have hname := Mention.name?_of_isName hlast (Text.StopsAt.nil Text.isDigit)
  rw [List.append_nil] at hname
  have hstart := Mention.atStart?_of_range
    (Mention.name?_of_isName hfirst (Text.StopsAt.cons last (by decide))) hname
  rcases hfirst.exists_cons with ⟨c, cs, rfl, hc⟩
  rw [List.cons_append, ofTrimmed_of_isLetter _ hc, ← List.cons_append, reference?, hstart]
  simp only [Mention.chars, if_true, hblock, Option.getD_some]

/-- Two names with a colon between them consist of letters, digits and the colon. -/
theorem Mention.isPart_range {first last : List Char} (hfirst : IsName first)
    (hlast : IsName last) : ∀ c ∈ first ++ ':' :: last, isPart c = true := by
  intro c hc
  rcases List.mem_append.mp hc with hc | hc
  · exact hfirst.isPart c hc
  · rcases List.mem_cons.mp hc with rfl | hc
    · decide
    · exact hlast.isPart c hc

namespace Call

/-- Letters, digits and colons are one argument. -/
theorem isArgument_of_isPart {cs : List Char} (h : ∀ c ∈ cs, Mention.isPart c = true) :
    isArgument cs = true := by
  unfold isArgument
  induction cs with
  | nil => rfl
  | cons c cs ih =>
      have hc := h c List.mem_cons_self
      have hne : ∀ d, Mention.isPart d = false → c ≠ d := by
        rintro d hd rfl
        rw [hc] at hd
        cases hd
      rw [isArgumentFrom]
      simp only [hne '"' (by decide), hne '(' (by decide), hne ')' (by decide),
        hne ',' (by decide), hne '\\' (by decide), false_and, if_false, decide_false,
        Bool.false_eq_true]
      exact ih fun c hc => h c (List.mem_cons_of_mem _ hc)

/-- Such arguments can be joined, if none is empty. -/
theorem isArgument_and_trim {args : List (List Char)}
    (h : ∀ a ∈ args, a ≠ [] ∧ ∀ c ∈ a, Mention.isPart c = true) :
    (∀ a ∈ args, isArgument a = true ∧ Text.trim a = a) ∧ args.getLast? ≠ some [] := by
  refine ⟨fun a ha => ?_, fun hnil => ?_⟩
  · exact ⟨isArgument_of_isPart (h a ha).2, Mention.trim_of_isPart (h a ha).2⟩
  · exact (h [] (List.mem_of_getLast? hnil)).1 rfl

end Call

namespace Arithmetic

/-- The name that is written for a row and a column. -/
def CellName.ofPosition (row col : Nat) : CellName where
  letters := Column.letters col
  digits := Nat.toDigits 10 (row + 1)
  letters_ne_nil := Column.letters_ne_nil col
  digits_ne_nil := Nat.toDigits_ne_nil
  isLetter_letters := Column.isLetter_of_mem_letters col
  isAsciiDigit_digits := Text.isAsciiDigit_of_mem_toDigits

end Arithmetic

namespace Block

/-- The names of a block are written like names in an expression. -/
theorem exists_cellName {block : Block} {id : String} (h : id ∈ block.ids) :
    ∃ n : CellName, n.chars = id.toList := by
  rcases List.mem_map.mp h with ⟨a, _, rfl⟩
  exact ⟨.ofPosition a.row.toNat a.col.toNat, String.toList_ofList.symm⟩

/-- The names of a block consist of letters and digits. -/
theorem isPart_ids (block : Block) {a : List Char} (h : a ∈ block.ids.map String.toList) :
    a ≠ [] ∧ ∀ c ∈ a, Mention.isPart c = true := by
  rcases List.mem_map.mp h with ⟨id, hid, rfl⟩
  rcases exists_cellName hid with ⟨n, hn⟩
  rw [← hn]
  exact ⟨n.isName.ne_nil, n.isName.isPart⟩

theorem ids_ne_nil (block : Block) : block.ids ≠ [] := by
  have hcorner : (⟨block.top, block.left⟩ : Address) ∈ block.addresses :=
    mem_addresses.mpr ⟨⟨Int.le_refl _, block.top_le_bottom⟩, Int.le_refl _, block.left_le_right⟩
  exact List.ne_nil_of_mem (List.mem_map_of_mem hcorner)

end Block

namespace Scope

variable {scope : Scope}

/-- Cells contribute their values, unless one shows a range. -/
theorem flatMap_contribution {ids : List String}
    (hplain : ∀ id ∈ ids, (scope.cells.valueAt id).IsPlain) :
    (ids.map scope.cells.valueAt).flatMap scope.contribution = ids.map scope.cells.valueAt := by
  have hone : ∀ v : Value, v.IsPlain → scope.contribution v = [v] := by
    intro v hv
    cases v with
    | range r => exact absurd rfl (hv r)
    | text _ | number _ | bool _ | error _ => rfl
  rw [List.flatMap_map, List.flatMap_congr fun id hid => hone _ (hplain id hid)]
  exact List.flatMap_pure_eq_map _ _

/-- The value of a range is the range. -/
theorem value?_range {first last : List Char} {block : Block} (hfirst : Mention.IsName first)
    (hlast : Mention.IsName last) (hblock : Block.ofChars (first ++ ':' :: last) = .ok block)
    (depth : Nat) :
    scope.value? (depth + 1) (first ++ ':' :: last)
      = some (.range ⟨String.ofList (first ++ ':' :: last), block⟩) := by
  refine (Yields.range ?_).value?_eq
  rw [Mention.trim_of_isPart (Mention.isPart_range hfirst hlast),
    Form.ofTrimmed_range hfirst hlast hblock]

/-- The values of the names of a block are those of its cells. -/
theorem mapM_ids (block : Block) (depth : Nat) :
    (block.ids.map String.toList).mapM (scope.value? (depth + 1))
      = some (block.ids.map scope.cells.valueAt) := by
  refine mapM_map_of_some fun id hid => ?_
  rcases Block.exists_cellName hid with ⟨n, hn⟩
  rw [← hn, value?_cell, hn, String.ofList_toList]

/-- A call with the names of a block has the value of the call with the range, at every
    depth, if the function ignores blanks. -/
theorem value?_listed {name : List Char} {f : Function} (hne : name ≠ [])
    (hname : ∀ c ∈ name, Column.isLetter c = true)
    (hf : scope.functions.get? (String.ofList name) = some f) (hignores : f.IgnoresBlanks)
    {first last : List Char} {block : Block} (hfirst : Mention.IsName first)
    (hlast : Mention.IsName last) (hblock : Block.ofChars (first ++ ':' :: last) = .ok block)
    (hplain : ∀ id ∈ block.ids, (scope.cells.valueAt id).IsPlain) (depth : Nat) :
    scope.value? depth (Call.text name [first ++ ':' :: last])
      = scope.value? depth (Call.text name (block.ids.map String.toList)) := by
  have hone : ∀ a ∈ [first ++ ':' :: last], a ≠ [] ∧ ∀ c ∈ a, Mention.isPart c = true := by
    intro a ha
    rw [List.mem_singleton.mp ha]
    exact ⟨List.append_ne_nil_of_left_ne_nil hfirst.ne_nil _, Mention.isPart_range hfirst hlast⟩
  rcases Call.isArgument_and_trim hone with ⟨hargs, hend⟩
  rcases Call.isArgument_and_trim fun _ ha => block.isPart_ids ha with ⟨hargs', hend'⟩
  cases depth with
  | zero => rfl
  | succ depth =>
      rw [value?_text_eq_map hne hname hargs hend hf, value?_text_eq_map hne hname hargs' hend' hf]
      cases depth with
      | zero =>
          -- There is no level left for the arguments, and neither call is without any.
          rcases List.exists_cons_of_ne_nil block.ids_ne_nil with ⟨id, ids, hids⟩
          rw [hids]
          rfl
      | succ depth =>
          rw [List.mapM_cons, List.mapM_nil, value?_range hfirst hlast hblock, mapM_ids]
          refine congrArg some (hignores.outcome_eq ?_)
          rw [flatMap_contribution hplain, ← Cells.filter_valuesIn (Block.onGrid_of_ofChars hblock)]
          exact congrArg _ (List.append_nil _)

/-- For the functions that take any number of arguments, a range means the same as the
    cells of its block one by one, also where a cell is absent, and however deep the call
    stands in an expression. Only a cell that shows a range would stand for more than one
    argument. -/
theorem evaluate_range_eq_listed {F : Builtin}
    (hF : F ∈ [Builtin.sum, .average, .min, .max, .count, .counta, .concat])
    (hfunctions : scope.functions.get? F.name = some F.apply) {first last : List Char}
    (hfirst : Address.IsSpelled first) (hlast : Address.IsSpelled last) :
    ∃ block, Block.ofChars (first ++ ':' :: last) = .ok block ∧
      ((∀ id ∈ block.ids, (scope.cells.valueAt id).IsPlain) →
        scope.evaluate (String.ofList ('=' :: Call.text F.name.toList [first ++ ':' :: last]))
            = scope.evaluate (String.ofList
                ('=' :: Call.text F.name.toList (block.ids.map String.toList))) ∧
          ∀ depth, scope.value? depth (Call.text F.name.toList [first ++ ':' :: last])
            = scope.value? depth (Call.text F.name.toList (block.ids.map String.toList))) := by
  rcases Block.exists_of_isSpelled hfirst hlast with ⟨block, hblock⟩
  refine ⟨block, hblock, fun hplain => ?_⟩
  have hname : F.name.toList ≠ [] ∧ ∀ c ∈ F.name.toList, Column.isLetter c = true := by
    cases F <;> exact ⟨by decide, List.all_eq_true.mp (by decide)⟩
  have hignores : Function.IgnoresBlanks F.apply := by
    refine Builtin.ignoresBlanks ?_
    revert hF
    cases F <;> decide
  have hvalue : ∀ depth, scope.value? depth (Call.text F.name.toList [first ++ ':' :: last])
      = scope.value? depth (Call.text F.name.toList (block.ids.map String.toList)) :=
    value?_listed hname.1 hname.2 (by rwa [String.ofList_toList]) hignores hfirst.isName
      hlast.isName hblock hplain
  rw [evaluate_formula, evaluate_formula, expression, expression, hvalue]
  exact ⟨rfl, hvalue⟩

/-- The corners in another order, one with a zero in front, and two cells that are
    absent. -/
theorem evaluate_range_eq_listed_sparse :
    let cells : Cells := .ofList [("A1", { value := "2" }), ("B2", { value := "-0.5" })]
    let scope : Scope := ⟨cells, .builtins⟩
    Address.IsSpelled "B2".toList ∧ Address.IsSpelled "A01".toList ∧
      (∀ id ∈ ["A1", "B1", "A2", "B2"], (scope.cells.valueAt id).IsPlain) ∧
      scope.evaluate "=AVERAGE(B2:A01)" = scope.evaluate "=AVERAGE(A1,B1,A2,B2)" ∧
      scope.evaluate "=AVERAGE(A1,B1,A2,B2)" = .number (.float 0.75) := by
  intro cells scope
  have hfirst : Address.IsSpelled "B2".toList :=
    ⟨['B'], ['2'], ⟨by decide, by simp, by decide, by simp, by decide⟩, rfl⟩
  have hlast : Address.IsSpelled "A01".toList :=
    ⟨['A'], ['0', '1'], ⟨by decide, by simp, by decide, by simp, by decide⟩, rfl⟩
  have hplain : ∀ id ∈ ["A1", "B1", "A2", "B2"], (scope.cells.valueAt id).IsPlain := by
    decide +kernel
  have hfunctions : scope.functions.get? Builtin.average.name = some Builtin.average.apply :=
    Registry.get?_builtins .average
  rcases evaluate_range_eq_listed (by decide) hfunctions hfirst hlast with ⟨block, hblock, h⟩
  have hids : block.ids = ["A1", "B1", "A2", "B2"] := by
    have hread : (Block.ofChars ("B2".toList ++ ':' :: "A01".toList)).map Block.ids
        = .ok ["A1", "B1", "A2", "B2"] := by decide +kernel
    rw [hblock] at hread
    exact Except.ok.inj hread
  rw [hids] at h
  refine ⟨hfirst, hlast, hplain, (h hplain).1, ?_⟩
  decide +kernel

end Scope

end Spreadsheet
