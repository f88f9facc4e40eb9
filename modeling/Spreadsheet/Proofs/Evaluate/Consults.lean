import Spreadsheet.Proofs.Evaluate.Level
import Spreadsheet.Proofs.Formula.Form
import Spreadsheet.Proofs.OrderedMap

/-!
# What Evaluation Looks At

The cells that the value of an expression can depend on.

Evaluation finds its way through a formula by its text alone: the form of a part
does not depend on any cell. So the cells that may be asked for their values can
be told beforehand (`Consults`), whatever the depth, the functions and the sheet:
cells that stand by themselves, cells among the pieces of arithmetic, and the
cells of blocks that are arguments. Two collections of cells that agree on these
give the same value.

The last kind needs care. An argument stands for the cells of a block exactly if
its value is a range, and that the value is a range shows in the text, as long as
no cell that is consulted shows one. No cell does: what formulas come to and what
is typed in are texts, numbers, truth values and errors, which are the values
called plain here.

Whether a cell without anything in it is there or not shows only in a block, where a
cell that is there contributes an empty text. So for the other uses it is enough that
two collections of cells show the same value, and for a block that is an argument of
a function which ignores empty texts it is as well (`Function.IgnoresBlanks`).

## Main definitions

* `Value.IsPlain`: A value that a cell can hold.
* `Cells.AgreeAt`: Two collections of cells show the same under a name.
* `Consults`: The names that an expression is evaluated with.
* `PassesRange`: The names in the blocks that some functions are given.
* `Function.IgnoresBlanks`: A function for which an empty text is as good as nothing.
* `Scope.Origin`: Where the value of an expression comes from.

## Theorems

* `Scope.origin_of_value?`: Every value has an origin.
* `Scope.evaluate_cases`: What a text comes to.
* `Scope.evaluate_isPlain`: No formula comes to a range.
* `Scope.form_of_value?_range`: Only ranges have ranges as values.
* `Scope.exists_of_mem_contributions`: What a function receives.
* `Scope.call_congr`: A call depends on what the ranges among its arguments contribute.
* `Scope.value?_congr_of_valueAt`: The value depends only on the values of the cells
  that are consulted, and on which of them are there where a function may notice.
-/

namespace Spreadsheet

namespace Value

/-- A value that a cell can hold: any but a range. -/
def IsPlain (v : Value) : Prop := ∀ r, v ≠ range r

instance (v : Value) : Decidable v.IsPlain :=
  match v with
  | text _ => isTrue fun _ h => Value.noConfusion h
  | number _ => isTrue fun _ h => Value.noConfusion h
  | bool _ => isTrue fun _ h => Value.noConfusion h
  | error _ => isTrue fun _ h => Value.noConfusion h
  | range r => isFalse fun h => h r rfl

theorem isPlain_of_isError {v : Value} (h : v.isError = true) : v.IsPlain := by
  intro r hr
  rw [hr] at h
  cases h

theorem isPlain_ofFloat (x : Float) : (ofFloat x).IsPlain := by
  intro r
  rw [ofFloat]
  split <;> exact fun h => by cases h

theorem isPlain_ofResult (v : Option Value) : (ofResult v).IsPlain := by
  intro r
  unfold ofResult
  split
  · exact fun h => by cases h
  · exact fun h => by cases h
  · exact isPlain_ofFloat _ r
  · exact fun h => by cases h
  · rename_i v hrange
    exact fun h => hrange r h

theorem isPlain_ofLiteral (s : String) : (ofLiteral s).IsPlain := by
  intro r
  rw [ofLiteral]
  split <;> exact fun h => by cases h

theorem isPlain_valueOf (text cs : List Char) : (Arithmetic.valueOf text cs).IsPlain := by
  intro r
  rw [Arithmetic.valueOf]
  split
  · exact fun h => by cases h
  · split
    · exact isPlain_ofFloat _ r
    · exact fun h => by cases h

end Value

namespace Cells

/-- Two collections of cells show the same under a name: both have the cell, with
    one value, or neither has it. -/
def AgreeAt (a b : Cells) (id : String) : Prop :=
  (a.get? id).map Cell.currentValue = (b.get? id).map Cell.currentValue

variable {a b : Cells}

theorem AgreeAt.valueAt {id : String} (h : AgreeAt a b id) : a.valueAt id = b.valueAt id := by
  rw [Cells.valueAt, Cells.valueAt, h]

theorem AgreeAt.symm {id : String} (h : AgreeAt a b id) : AgreeAt b a id := Eq.symm h

theorem isPlain_valueAt (h : ∀ e ∈ a.entries, e.2.currentValue.IsPlain) (id : String) :
    (a.valueAt id).IsPlain := by
  rw [Cells.valueAt]
  cases hget : a.get? id with
  | none => exact fun r hr => by cases hr
  | some c => exact h (id, c) ((OrderedMap.get?_eq_some_iff a).mp hget)

theorem exists_of_mem_valuesIn {block : Block} (hgrid : block.OnGrid) {v : Value}
    (h : v ∈ a.valuesIn block) : ∃ id ∈ block.ids, a.valueAt id = v := by
  rw [valuesIn_eq a hgrid] at h
  rcases List.mem_filterMap.mp h with ⟨id, hid, hv⟩
  exact ⟨id, hid, by rw [Cells.valueAt, hv, Option.getD_some]⟩

/-- Apart from empty texts, a block contributes what its cells show one by one. An empty
    text is what an absent cell shows. -/
theorem filter_valuesIn {block : Block} (hgrid : block.OnGrid) :
    (a.valuesIn block).filter (fun v => v ≠ .text "")
      = (block.ids.map a.valueAt).filter fun v => v ≠ .text "" := by
  rw [valuesIn_eq a hgrid, ← List.filterMap_eq_map, List.filter_filterMap, List.filter_filterMap]
  refine List.filterMap_congr fun id _ => ?_
  rw [Function.comp_apply, Cells.valueAt]
  cases (a.get? id).map Cell.currentValue with
  | none => rfl
  | some v => rfl

/-- What a block contributes apart from empty texts depends on the values of its
    cells. -/
theorem filter_valuesIn_congr {block : Block} (hgrid : block.OnGrid)
    (h : ∀ id ∈ block.ids, a.valueAt id = b.valueAt id) :
    (a.valuesIn block).filter (fun v => v ≠ .text "")
      = (b.valuesIn block).filter fun v => v ≠ .text "" := by
  rw [filter_valuesIn hgrid, filter_valuesIn hgrid, List.map_congr_left h]

theorem valuesIn_congr {block : Block} (hgrid : block.OnGrid)
    (h : ∀ id ∈ block.ids, AgreeAt a b id) : a.valuesIn block = b.valuesIn block := by
  rw [valuesIn_eq a hgrid, valuesIn_eq b hgrid]
  exact List.filterMap_congr h

end Cells

/-- The names under which the value of an expression may look for a cell. Which
    they are shows in the text. -/
inductive Consults : List Char → String → Prop where
  /-- The expression is a cell. -/
  | cell {cs : List Char} {name : String} (form : Form.ofTrimmed (Text.trim cs) = .cell name) :
    Consults cs name
  /-- A cell is a piece of the expression. -/
  | piece {cs text : List Char} {pieces : List Piece} {name : String}
    (form : Form.ofTrimmed (Text.trim cs) = .arithmetic text pieces)
    (mem : Piece.cell name ∈ pieces) : Consults cs name
  /-- A range that holds the cell is an argument. -/
  | block {cs args arg : List Char} {name id : String} {r : RangeReference}
    (form : Form.ofTrimmed (Text.trim cs) = .call name args)
    (mem : arg ∈ Call.arguments args) (range : Form.ofTrimmed (Text.trim arg) = .range r)
    (id_mem : id ∈ r.block.ids) : Consults cs id
  /-- Something that is evaluated on the way asks for the cell. -/
  | part {cs part : List Char} {id : String} (mem : part ∈ (Form.ofTrimmed (Text.trim cs)).parts)
    (consults : Consults part id) : Consults cs id

/-- The names of the cells in a range that is an argument of a function whose name is
    one of `names`, anywhere in an expression. -/
inductive PassesRange (names : String → Prop) : List Char → String → Prop where
  /-- A range that holds the cell is an argument. -/
  | block {cs args arg : List Char} {name id : String} {r : RangeReference}
    (form : Form.ofTrimmed (Text.trim cs) = .call name args) (named : names name)
    (mem : arg ∈ Call.arguments args) (range : Form.ofTrimmed (Text.trim arg) = .range r)
    (id_mem : id ∈ r.block.ids) : PassesRange names cs id
  /-- This happens in something that is evaluated on the way. -/
  | part {cs part : List Char} {id : String} (mem : part ∈ (Form.ofTrimmed (Text.trim cs)).parts)
    (passes : PassesRange names part id) : PassesRange names cs id

namespace PassesRange

variable {names : String → Prop} {cs : List Char} {id : String}

theorem consults (h : PassesRange names cs id) : Consults cs id := by
  induction h with
  | block form _ mem range id_mem => exact .block form mem range id_mem
  | part mem _ ih => exact .part mem ih

/-- If the function called is not one of them, then the range is passed in an
    argument. -/
theorem exists_argument {name : String} {args : List Char}
    (form : Form.ofTrimmed (Text.trim cs) = .call name args) (hname : ¬ names name)
    (h : PassesRange names cs id) : ∃ arg ∈ Call.arguments args, PassesRange names arg id := by
  cases h with
  | block form' named _ _ _ =>
      rw [form] at form'
      rw [← (Form.call.inj form').1] at named
      exact absurd named hname
  | part mem passes =>
      rw [form] at mem
      exact ⟨_, mem, passes⟩

/-- Something without parts passes no range. -/
theorem parts_ne_nil (h : PassesRange names cs id) :
    (Form.ofTrimmed (Text.trim cs)).parts ≠ [] := by
  cases h with
  | block form _ mem _ _ =>
      rw [form]
      exact List.ne_nil_of_mem mem
  | part mem _ => exact List.ne_nil_of_mem mem

end PassesRange

namespace Function

/-- The value of a call, given what the function receives. -/
def outcome (f : Function) (arguments : List (Option Value)) : Value :=
  match f arguments with
  | .ok result => .ofResult result
  | .error _ => .failure

/-- A function for which an empty text among its arguments is as good as nothing. -/
def IgnoresBlanks (f : Function) : Prop :=
  ∀ arguments, f.outcome arguments = f.outcome (arguments.filter fun v => v ≠ some (.text ""))

/-- Apart from empty texts, it is the arguments that decide. -/
theorem IgnoresBlanks.outcome_eq {f : Function} (h : f.IgnoresBlanks) {values values' : List Value}
    (hfilter : values.filter (fun v => v ≠ .text "") = values'.filter fun v => v ≠ .text "") :
    f.outcome (values.map some) = f.outcome (values'.map some) := by
  have hmap : ∀ values : List Value, (values.map some).filter (fun v => v ≠ some (.text ""))
      = (values.filter fun v => v ≠ .text "").map some := by
    intro values
    rw [List.filter_map]
    congr 1
    refine List.filter_congr fun v _ => ?_
    simp only [Function.comp_apply, ne_eq, Option.some.injEq]
  rw [h, h (values'.map some), hmap, hmap, hfilter]

end Function

namespace Scope

theorem call_eq_outcome (scope : Scope) (f : Function) (arguments : List Value) :
    scope.call f arguments = f.outcome ((arguments.flatMap scope.contribution).map some) := rfl

/-- What splicing stops at is an error, and the value of a cell or of a call. -/
theorem exists_of_splice {scope : Scope} {f : List Char → Option Value} {pieces : List Piece}
    {v : Value} (h : scope.splice f pieces = some (.error v)) :
    v.isError = true ∧ ((∃ name, Piece.cell name ∈ pieces ∧ scope.cells.valueAt name = v) ∨
      ∃ text, Piece.call text ∈ pieces ∧ f text = some v) := by
  rcases exists_of_splice_error h with ⟨p, hp, hv⟩
  cases p with
  | plain c => cases Option.some.inj hv
  | cell name =>
      rcases Value.eq_of_inserted_error (Option.some.inj hv) with ⟨hvalue, herror⟩
      exact ⟨herror, Or.inl ⟨name, hp, hvalue⟩⟩
  | call text =>
      rcases Option.map_eq_some_iff.mp hv with ⟨w, hw, hinserted⟩
      rcases Value.eq_of_inserted_error hinserted with ⟨rfl, herror⟩
      exact ⟨herror, Or.inr ⟨text, hp, hw⟩⟩

/-- Where the value of an expression of a known form comes from. -/
inductive Origin (scope : Scope) (form : Form) (v : Value) : Prop
  /-- A text that was there. -/
  | text {s : String} (value : v = .text s)
  /-- A number that stands for itself. -/
  | number {n : Number} (is : form = .number n) (value : v = .number n)
  /-- A cell, which is handed on. -/
  | cell {name : String} (is : form = .cell name) (value : v = scope.cells.valueAt name)
  /-- A range that stands for itself. -/
  | range {r : RangeReference} (is : form = .range r) (value : v = .range r)
  /-- An error, found here or handed on. -/
  | error (value : v.isError = true)
  /-- The result of a function. -/
  | call (f : Function) (arguments : List Value) (value : v = scope.call f arguments)
  /-- The result of arithmetic. -/
  | arithmetic (text cs : List Char) (value : v = Arithmetic.valueOf text cs)

/-- Every value has an origin. -/
theorem origin_of_value? {scope : Scope} {depth : Nat} {cs : List Char} {v : Value}
    (h : scope.value? depth cs = some v) : scope.Origin (Form.ofTrimmed (Text.trim cs)) v := by
  cases depth with
  | zero => cases h
  | succ depth =>
      cases yields_of_value? h with
      | text _ => exact .text rfl
      | number hform => exact .number hform rfl
      | cell hform => exact .cell hform rfl
      | range hform => exact .range hform rfl
      | unknown _ _ => exact .error rfl
      | call _ _ _ => exact .call _ _ rfl
      | arithmetic _ _ => exact .arithmetic _ _ rfl
      | error _ hsplice => exact .error (exists_of_splice hsplice).1

/-- An expression whose value is a range is one. -/
theorem form_of_value?_range {scope : Scope} {depth : Nat} {cs : List Char} {r : RangeReference}
    (hplain : ∀ id, Consults cs id → (scope.cells.valueAt id).IsPlain)
    (h : scope.value? depth cs = some (.range r)) :
    Form.ofTrimmed (Text.trim cs) = .range r := by
  cases origin_of_value? h with
  | text hvalue => cases hvalue
  | number _ hvalue => cases hvalue
  -- No cell shows a range.
  | cell hform hvalue => exact absurd hvalue.symm (hplain _ (.cell hform) r)
  | range hform hvalue => rw [hform, Value.range.inj hvalue]
  | error hvalue => cases hvalue
  | call f arguments hvalue =>
      rw [call] at hvalue
      split at hvalue
      · exact absurd hvalue.symm (Value.isPlain_ofResult _ r)
      · cases hvalue
  | arithmetic text cs hvalue => exact absurd hvalue.symm (Value.isPlain_valueOf _ _ r)

section Arguments

variable {scope : Scope} {depth : Nat} {cs args : List Char} {name : String} {values : List Value}
  (hplain : ∀ id, Consults cs id → (scope.cells.valueAt id).IsPlain)
  (hform : Form.ofTrimmed (Text.trim cs) = .call name args)
  (harguments : (Call.arguments args).mapM (scope.value? depth) = some values)

include hplain hform harguments

/-- A range that a call is given is known by the text of an argument. -/
theorem exists_argument_of_range {r : RangeReference} (hr : .range r ∈ values) :
    ∃ arg ∈ Call.arguments args, Form.ofTrimmed (Text.trim arg) = .range r := by
  rcases exists_mem_left (mapM_eq_some_iff.mp harguments) hr with ⟨arg, harg, hvalue⟩
  have hpart : arg ∈ (Form.ofTrimmed (Text.trim cs)).parts := by
    rw [hform]
    exact Form.mem_parts_of_call harg
  exact ⟨arg, harg, form_of_value?_range (fun id hid => hplain id (.part hpart hid)) hvalue⟩

/-- What a function receives is shown by a cell that is consulted, or the value of an
    argument. -/
theorem exists_of_mem_contributions {v : Value} (hv : v ∈ values.flatMap scope.contribution) :
    (∃ id, Consults cs id ∧ scope.cells.valueAt id = v) ∨
      ∃ arg ∈ Call.arguments args, scope.value? depth arg = some v := by
  rcases List.mem_flatMap.mp hv with ⟨value, hvalue, hcontribution⟩
  cases value with
  | range r =>
      rcases exists_argument_of_range hplain hform harguments hvalue with ⟨arg, harg, hrange⟩
      rcases Cells.exists_of_mem_valuesIn (Form.onGrid_of_range hrange) hcontribution with
        ⟨id, hid, hvalueAt⟩
      exact Or.inl ⟨id, .block hform harg hrange hid, hvalueAt⟩
  | _ =>
      rw [List.mem_singleton.mp hcontribution]
      exact Or.inr (exists_mem_left (mapM_eq_some_iff.mp harguments) hvalue)

end Arguments

/-- What an expression comes to is an error or a text, or its value, which is no range
    then. -/
theorem expression_cases (scope : Scope) (cs : List Char) :
    scope.expression cs = .failure ∨ (∃ s, scope.expression cs = .text s) ∨
      scope.value? depthLimit cs = some (scope.expression cs) ∧
        (scope.expression cs).IsPlain := by
  rw [expression]
  split
  · exact Or.inl rfl
  · exact Or.inr (Or.inl ⟨_, rfl⟩)
  · rename_i v hrange hvalue
    exact Or.inr (Or.inr ⟨hvalue, hrange⟩)

/-- What a text comes to is an error or a text, or the value of the expression behind its
    equals sign, which is no range then. -/
theorem evaluate_cases (scope : Scope) (text : String) :
    scope.evaluate text = .failure ∨ (∃ s, scope.evaluate text = .text s) ∨
      ∃ cs, text.toList = '=' :: cs ∧ scope.value? depthLimit cs = some (scope.evaluate text) ∧
        (scope.evaluate text).IsPlain := by
  rw [evaluate]
  split
  · rename_i cs hcs
    rcases scope.expression_cases cs with herror | htext | hvalue
    · exact Or.inl herror
    · exact Or.inr (Or.inl htext)
    · exact Or.inr (Or.inr ⟨cs, hcs, hvalue⟩)
  · exact Or.inr (Or.inl ⟨text, rfl⟩)

/-- No formula comes to a range. -/
theorem evaluate_isPlain (scope : Scope) (text : String) : (scope.evaluate text).IsPlain := by
  rcases scope.evaluate_cases text with herror | ⟨s, hs⟩ | ⟨_, _, _, hplain⟩
  · rw [herror]
    exact fun r h => Value.noConfusion h
  · rw [hs]
    exact fun r h => Value.noConfusion h
  · exact hplain

/-- A call gives the same over other cells, if the ranges among its arguments contribute
    the same, or the same apart from empty texts that the function ignores. -/
theorem call_congr {a b : Cells} {functions : Registry} {f : Function} {values : List Value}
    (h : (∀ r, .range r ∈ values → a.valuesIn r.block = b.valuesIn r.block) ∨
      f.IgnoresBlanks ∧ ∀ r, .range r ∈ values →
        (a.valuesIn r.block).filter (fun v => v ≠ .text "")
          = (b.valuesIn r.block).filter fun v => v ≠ .text "") :
    call ⟨a, functions⟩ f values = call ⟨b, functions⟩ f values := by
  rw [call_eq_outcome, call_eq_outcome]
  -- An argument that is no range contributes itself, so only the ranges are of interest.
  rcases h with hsame | ⟨hignores, hfilter⟩
  · have hcontribution : values.flatMap (contribution ⟨a, functions⟩)
        = values.flatMap (contribution ⟨b, functions⟩) := by
      refine List.flatMap_congr fun v hv => ?_
      cases v with
      | range r => exact hsame r hv
      | _ => rfl
    rw [hcontribution]
  · refine hignores.outcome_eq ?_
    rw [List.filter_flatMap, List.filter_flatMap]
    refine List.flatMap_congr fun v hv => ?_
    cases v with
    | range r => exact hfilter r hv
    | _ => rfl

section

variable {a b : Cells} {functions : Registry} {names : String → Prop} {depth : Nat} {cs : List Char}
  (hplain : ∀ id, Consults cs id → (a.valueAt id).IsPlain)
  (hvalue : ∀ id, Consults cs id → a.valueAt id = b.valueAt id)
  (hagree : ∀ id, PassesRange names cs id → Cells.AgreeAt a b id)

include hplain hvalue hagree

/-- A call gives the same over other cells, if these show the same where they are
    consulted, and are the same where a function that notices empty texts is given a range. -/
theorem call_congr_of_valueAt {name : String} {args : List Char} {f : Function}
    {values : List Value}
    (hignores : ¬ names name → f.IgnoresBlanks)
    (hform : Form.ofTrimmed (Text.trim cs) = .call name args)
    (harguments : (Call.arguments args).mapM (value? ⟨a, functions⟩ depth) = some values) :
    call ⟨a, functions⟩ f values = call ⟨b, functions⟩ f values := by
  have hrange : ∀ {r}, .range r ∈ values → ∃ arg ∈ Call.arguments args,
      Form.ofTrimmed (Text.trim arg) = .range r :=
    fun hr => exists_argument_of_range hplain hform harguments hr
  refine call_congr ?_
  by_cases hname : names name
  · refine Or.inl fun r hr => ?_
    rcases hrange hr with ⟨arg, harg, hr⟩
    exact Cells.valuesIn_congr (Form.onGrid_of_range hr)
      fun id hid => hagree id (.block hform hname harg hr hid)
  · refine Or.inr ⟨hignores hname, fun r hr => ?_⟩
    rcases hrange hr with ⟨arg, harg, hr⟩
    exact Cells.filter_valuesIn_congr (Form.onGrid_of_range hr)
      fun id hid => hvalue id (.block hform harg hr hid)

end

/-- What an expression comes to, it comes to over any cells that have the values of the
    cells that it consults, and the same of them where a function in `names` is given a
    range. All other functions ignore empty texts. -/
theorem value?_of_valueAt {a b : Cells} {functions : Registry} (names : String → Prop)
    (hignores : ∀ name f, functions.get? name = some f → ¬ names name → f.IgnoresBlanks)
    {depth : Nat} {cs : List Char} {v : Value}
    (hplain : ∀ id, Consults cs id → (a.valueAt id).IsPlain)
    (hvalue : ∀ id, Consults cs id → a.valueAt id = b.valueAt id)
    (hagree : ∀ id, PassesRange names cs id → Cells.AgreeAt a b id)
    (h : value? ⟨a, functions⟩ depth cs = some v) :
    value? ⟨b, functions⟩ depth cs = some v := by
  -- The parts of an expression consult nothing that the expression does not consult.
  induction depth generalizing cs v with
  | zero => cases h
  | succ depth ih =>
      refine ((yields_of_value? h).mono ?_ ?_ ?_ ?_).value?_eq
      · exact fun part hpart _ =>
          ih (fun id hid => hplain id (.part hpart hid)) (fun id hid => hvalue id (.part hpart hid))
            fun id hid => hagree id (.part hpart hid)
      · exact fun hform => hvalue _ (.cell hform)
      · exact fun hform hmem => hvalue _ (.piece hform hmem)
      · exact fun hform hget harguments =>
          call_congr_of_valueAt hplain hvalue hagree (hignores _ _ hget) hform harguments

/-- The value of an expression depends only on the values of the cells that it
    consults, and on which of them are there for the functions in `names`, if all others
    ignore empty texts. -/
theorem value?_congr_of_valueAt {a b : Cells} {functions : Registry} (names : String → Prop)
    (hignores : ∀ name f, functions.get? name = some f → ¬ names name → f.IgnoresBlanks)
    {depth : Nat} {cs : List Char}
    (hplain : ∀ id, Consults cs id → (a.valueAt id).IsPlain)
    (hvalue : ∀ id, Consults cs id → a.valueAt id = b.valueAt id)
    (hagree : ∀ id, PassesRange names cs id → Cells.AgreeAt a b id) :
    value? ⟨a, functions⟩ depth cs = value? ⟨b, functions⟩ depth cs :=
  Option.ext fun _ =>
    ⟨value?_of_valueAt names hignores hplain hvalue hagree,
      value?_of_valueAt names hignores (fun id hid => by rw [← hvalue id hid]; exact hplain id hid)
        (fun id hid => (hvalue id hid).symm) fun id hid => (hagree id hid).symm⟩

end Scope

end Spreadsheet
