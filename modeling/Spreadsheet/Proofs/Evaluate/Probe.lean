import Spreadsheet.Proofs.Evaluate.Depth
import Spreadsheet.Proofs.Evaluate.Errors

/-!
# Evaluation Looks at All That It Consults

No cell that an expression consults can be left out: with suitable functions its
value does depend on that cell.

The functions are ones that tell whether they are given a certain error, the
probe, and give it back if they are. If one cell shows the probe and the others
show no error, then the probe passes through every call and every arithmetic
expression on the way up, so an expression that consults the cell comes to it
(`Scope.value?_eq_probe`). Without the probe in any cell it does not, since the
functions make up no errors.

The functions have to be there: the arguments of an unknown function are not
looked at. `Formula.callNames` collects the names that an expression calls.

## Main definitions

* `Value.probe`: The error that is passed on.
* `Function.tell`: A function that gives the probe if it is given it.
* `Formula.callNames`: The functions that an expression calls.
* `Registry.telling`: Functions that tell, under given names.
* `Cells.Probing`: Cells with no error but the probe.

## Theorems

* `Scope.value?_eq_probe`: An expression comes to a probe that it consults.
* `Scope.evaluate_ne_probe`: Without a probe no formula comes to it.
-/

namespace Spreadsheet

/-- An error that nothing but the functions here gives. -/
def Value.probe : Value := .error "#PROBE!"

/-- A function that gives the probe if it is among its arguments, and the empty text
    if not. -/
def Function.tell : Function := fun args =>
  .ok (some (if some .probe ∈ args then .probe else .text ""))

/-- The names of the functions that an expression calls, down to some level. -/
def Formula.callNames : Nat → List Char → List String
  | 0, _ => []
  | depth + 1, cs =>
    let form := Form.ofTrimmed (Text.trim cs)
    (match form with
      | .call name _ => [name]
      | _ => []) ++ form.parts.flatMap (callNames depth)

namespace Registry

/-- The builtin functions, with functions that tell under some names. -/
def telling (names : List String) : Registry :=
  names.foldl (fun registry name => registry.register name Function.tell) builtins

theorem get?_register_self (registry : Registry) (name : String) (f : Function) :
    (registry.register name f).get? name = some f :=
  OrderedMap.get?_insert_self _ _ _

theorem get?_register (registry : Registry) (name name' : String) (f : Function) :
    (registry.register name f).get? name' = some f ∨
      (registry.register name f).get? name' = registry.get? name' := by
  by_cases h : Text.upper name' = Text.upper name
  · refine Or.inl ?_
    rw [get?, h]
    exact OrderedMap.get?_insert_self _ _ _
  · exact Or.inr (OrderedMap.get?_insert_of_ne _ _ h)

/-- Under each of the names there is a function that tells. -/
theorem get?_telling {names : List String} {name : String} (h : name ∈ names) :
    (telling names).get? name = some Function.tell := by
  -- A name that is registered stays with the same function, whatever is registered later.
  have hfold : ∀ registry : Registry,
      name ∈ names ∨ registry.get? name = some Function.tell →
        (names.foldl (fun registry name => registry.register name Function.tell) registry).get? name
          = some Function.tell := by
    clear h
    induction names with
    | nil =>
        intro registry h
        exact h.resolve_left List.not_mem_nil
    | cons name' names ih =>
        intro registry h
        refine ih _ ?_
        rcases h with h | h
        · rcases List.mem_cons.mp h with rfl | h
          · exact Or.inr (get?_register_self _ _ _)
          · exact Or.inl h
        · rcases get?_register registry name' name Function.tell with hself | hrest
          · exact Or.inr hself
          · exact Or.inr (by rw [hrest, h])
  exact hfold builtins (Or.inl h)

theorem mem_of_tell {args : List (Option Value)} {v : Value}
    (h : Function.tell args = .ok (some v)) (hv : v.isError = true) : some v ∈ args := by
  have hvalue := Option.some.inj (Except.ok.inj h)
  by_cases hmem : some Value.probe ∈ args
  · rw [if_pos hmem] at hvalue
    rw [← hvalue]
    exact hmem
  · rw [if_neg hmem] at hvalue
    rw [← hvalue] at hv
    cases hv

/-- Functions that tell make up no errors. -/
theorem keepsErrors_telling (names : List String) : KeepsErrors (telling names) := by
  have hfold : ∀ registry : Registry, registry.KeepsErrors →
      KeepsErrors (names.foldl (fun registry name => registry.register name Function.tell)
        registry) := by
    induction names with
    | nil => exact fun registry h => h
    | cons name names ih =>
        intro registry h
        refine ih _ fun name' f args v hf hv herror => ?_
        rcases get?_register registry name name' Function.tell with hself | hrest
        · rw [hself, Option.some.injEq] at hf
          rw [← hf] at hv
          exact mem_of_tell hv herror
        · rw [hrest] at hf
          exact h name' f args v hf hv herror
  exact hfold builtins keepsErrors_builtins

end Registry

/-- Cells that show no range, and no error but the probe. -/
def Cells.Probing (cells : Cells) : Prop :=
  ∀ id, (cells.valueAt id).IsPlain ∧ ((cells.valueAt id).isError = true → cells.valueAt id = .probe)

namespace Scope

variable {scope : Scope}

/-- The value of an argument is among the values. -/
theorem mem_of_mapM {f : List Char → Option Value} {texts : List (List Char)} {values : List Value}
    (h : texts.mapM f = some values) {cs : List Char} {v : Value} (hcs : cs ∈ texts)
    (hv : f cs = some v) : v ∈ values := by
  rcases exists_mem_right (mapM_eq_some_iff.mp h) hcs with ⟨w, hw, hcsw⟩
  rw [hv, Option.some.injEq] at hcsw
  rwa [hcsw]

/-- Splicing stops at the probe, if it is the only error among the values. -/
theorem splice_eq_probe {f : List Char → Option Value} {pieces : List Piece}
    (hprobing : scope.cells.Probing)
    (hcall : ∀ text, Piece.call text ∈ pieces →
      ∃ v, f text = some v ∧ (v.isError = true → v = .probe))
    {p : Piece} (hp : p ∈ pieces) (hprobe : scope.insertion f p = some Value.probe.inserted) :
    scope.splice f pieces = some (.error .probe) := by
  have hinsertion : ∀ p ∈ pieces, ∃ result, scope.insertion f p = some result := by
    refine fun p hp => exists_insertion fun text htext => ?_
    rcases hcall text (htext ▸ hp) with ⟨v, hv, _⟩
    exact ⟨v, hv⟩
  rcases exists_splice hinsertion with ⟨result, hresult⟩
  cases result with
  | error v =>
      rcases exists_of_splice hresult with ⟨herror, ⟨name, _, hv⟩ | ⟨text, htext, hv⟩⟩
      · rw [← hv] at herror hresult
        rw [hresult, (hprobing name).2 herror]
      · rcases hcall text htext with ⟨w, hw, hwerror⟩
        rw [hv, Option.some.injEq] at hw
        rw [← hw] at hwerror
        rw [hresult, hwerror herror]
  | ok cs =>
      -- Splicing that does not stop has met no error, and the probe is one.
      rcases exists_of_splice_ok hresult p hp with ⟨cs', hcs'⟩
      rw [hprobe] at hcs'
      cases hcs'

/-- What a function that tells gives is the probe, if it is given it, and no
    error otherwise. -/
theorem call_tell (values : List Value) :
    scope.call Function.tell values
      = if .probe ∈ values.flatMap scope.contribution then .probe else .text "" := by
  rw [call, Function.tell]
  have hmem : some Value.probe ∈ (values.flatMap scope.contribution).map some ↔
      .probe ∈ values.flatMap scope.contribution := by
    rw [List.mem_map]
    refine ⟨fun h => ?_, fun h => ⟨_, h, rfl⟩⟩
    rcases h with ⟨v, hv, heq⟩
    rwa [← Option.some.inj heq]
  by_cases h : .probe ∈ values.flatMap scope.contribution
  · rw [if_pos h]
    simp only [hmem.mpr h, if_true]
    rfl
  · rw [if_neg h]
    simp only
    rw [if_neg (fun h' => h (hmem.mp h'))]
    rfl

/-- A call of a function that tells, if it is not nested too deep. -/
theorem value?_of_call {depth : Nat} {cs args : List Char} {name : String}
    (hform : Form.ofTrimmed (Text.trim cs) = .call name args)
    (hnested : Formula.nestedWithin (depth + 1) cs = true)
    (hnames : ∀ name ∈ Formula.callNames (depth + 1) cs,
      scope.functions.get? name = some Function.tell) :
    ∃ values, (Call.arguments args).mapM (scope.value? depth) = some values ∧
      scope.value? (depth + 1) cs
        = some (if .probe ∈ values.flatMap scope.contribution then .probe else .text "") := by
  have hfunction : scope.functions.get? name = some Function.tell := by
    refine hnames name ?_
    rw [Formula.callNames, hform]
    exact List.mem_cons_self
  have hpart : ∀ arg ∈ Call.arguments args, ∃ v, scope.value? depth arg = some v := by
    intro arg harg
    refine exists_of_nestedWithin (Formula.nestedWithin_part hnested ?_)
    rw [hform]
    exact Form.mem_parts_of_call harg
  rcases exists_mapM_of_forall hpart with ⟨values, hvalues⟩
  refine ⟨values, hvalues, ?_⟩
  rw [← call_tell]
  exact (Yields.call hform hfunction hvalues).value?_eq

theorem callNames_part {depth : Nat} {cs part : List Char}
    (hpart : part ∈ (Form.ofTrimmed (Text.trim cs)).parts) {name : String}
    (hname : name ∈ Formula.callNames depth part) : name ∈ Formula.callNames (depth + 1) cs :=
  List.mem_append_right _ (List.mem_flatMap.mpr ⟨part, hpart, hname⟩)

/-- A call among the pieces of arithmetic gives the probe, or no error. -/
theorem exists_value?_of_piece {depth : Nat} {cs text part : List Char} {pieces : List Piece}
    (hform : Form.ofTrimmed (Text.trim cs) = .arithmetic text pieces)
    (hnested : Formula.nestedWithin (depth + 1) cs = true)
    (hnames : ∀ name ∈ Formula.callNames (depth + 1) cs,
      scope.functions.get? name = some Function.tell) (hpart : Piece.call part ∈ pieces) :
    ∃ v, scope.value? depth part = some v ∧ (v.isError = true → v = .probe) := by
  have hmem : part ∈ (Form.ofTrimmed (Text.trim cs)).parts := by
    rw [hform]
    exact Form.mem_parts_of_piece hpart
  have hnested' := Formula.nestedWithin_part hnested hmem
  rw [(Form.eq_of_arithmetic hform).2] at hpart
  rcases Piece.whole?_of_mem_scan hpart with ⟨name, args, hwhole⟩
  cases depth with
  | zero => cases hnested'
  | succ depth =>
      rcases value?_of_call (Form.ofTrimmed_of_whole? hwhole) hnested'
        (fun name hname => hnames name (callNames_part hmem hname)) with ⟨values, _, hvalue⟩
      refine ⟨_, hvalue, fun herror => ?_⟩
      split at herror
      · rename_i hprobe
        rw [if_pos hprobe]
      · cases herror

theorem mem_valuesIn {block : Block} (hgrid : block.OnGrid) {id : String} (hid : id ∈ block.ids)
    (hprobe : scope.cells.valueAt id = .probe) : .probe ∈ scope.cells.valuesIn block := by
  rw [Cells.valuesIn_eq _ hgrid]
  refine List.mem_filterMap.mpr ⟨id, hid, ?_⟩
  rw [Cells.valueAt] at hprobe
  cases hget : (scope.cells.get? id).map Cell.currentValue with
  | none =>
      rw [hget] at hprobe
      cases hprobe
  | some v =>
      rw [hget, Option.getD_some] at hprobe
      rw [hprobe]

section Level

variable {depth : Nat} {cs : List Char}
  (hnested : Formula.nestedWithin (depth + 1) cs = true)
  (hnames : ∀ name ∈ Formula.callNames (depth + 1) cs,
    scope.functions.get? name = some Function.tell)

include hnested hnames

/-- A call comes to a probe that one of its arguments contributes. -/
theorem value?_eq_probe_of_argument {name : String} {args arg : List Char} {v : Value}
    (hform : Form.ofTrimmed (Text.trim cs) = .call name args) (harg : arg ∈ Call.arguments args)
    (hv : scope.value? depth arg = some v) (hprobe : .probe ∈ scope.contribution v) :
    scope.value? (depth + 1) cs = some .probe := by
  rcases value?_of_call hform hnested hnames with ⟨values, hvalues, hvalue⟩
  rw [hvalue, if_pos (List.mem_flatMap.mpr ⟨v, mem_of_mapM hvalues harg hv, hprobe⟩)]

/-- Arithmetic comes to a probe that one of its pieces is. -/
theorem value?_eq_probe_of_piece (hprobing : scope.cells.Probing) {text : List Char}
    {pieces : List Piece} {p : Piece}
    (hform : Form.ofTrimmed (Text.trim cs) = .arithmetic text pieces) (hp : p ∈ pieces)
    (hprobe : scope.insertion (scope.value? depth) p = some Value.probe.inserted) :
    scope.value? (depth + 1) cs = some .probe :=
  (Yields.error hform (splice_eq_probe hprobing
    (fun _ => exists_value?_of_piece hform hnested hnames) hp hprobe)).value?_eq

end Level

/-- An expression comes to a probe that it consults, if its functions tell. -/
theorem value?_eq_probe (hprobing : scope.cells.Probing) {depth : Nat} {cs : List Char}
    {id : String} (hid : Consults cs id) (hprobe : scope.cells.valueAt id = .probe)
    (hnested : Formula.nestedWithin depth cs = true)
    (hnames : ∀ name ∈ Formula.callNames depth cs,
      scope.functions.get? name = some Function.tell) :
    scope.value? depth cs = some .probe := by
  -- On each level the probe is there at once, or a part comes to it a level further down.
  induction depth generalizing cs with
  | zero => cases hnested
  | succ depth ih =>
      cases hid with
      | cell hform =>
          rw [← hprobe]
          exact (Yields.cell hform).value?_eq
      | piece hform hmem =>
          exact value?_eq_probe_of_piece hnested hnames hprobing hform hmem
            (by rw [insertion, hprobe])
      | @block _ args arg name _ r hform harg hrange hid =>
          have hnested' := Formula.nestedWithin_part hnested
            (by rw [hform]; exact Form.mem_parts_of_call harg)
          have hargvalue : scope.value? depth arg = some (.range r) := by
            cases depth with
            | zero => cases hnested'
            | succ depth => exact (Yields.range hrange).value?_eq
          exact value?_eq_probe_of_argument hnested hnames hform harg hargvalue
            (mem_valuesIn (Form.onGrid_of_range hrange) hid hprobe)
      | @part _ part _ hpart hid =>
          have hvalue := ih hid (Formula.nestedWithin_part hnested hpart)
            fun name hname => hnames name (callNames_part hpart hname)
          cases hform : Form.ofTrimmed (Text.trim cs) with
          | call name args =>
              rw [hform] at hpart
              exact value?_eq_probe_of_argument hnested hnames hform hpart hvalue
                (List.mem_singleton_self _)
          | arithmetic text pieces =>
              rw [hform] at hpart
              exact value?_eq_probe_of_piece hnested hnames hprobing hform
                (Form.mem_parts_arithmetic.mp hpart) (by rw [insertion, hvalue, Option.map_some])
          | _ =>
              rw [hform] at hpart
              cases hpart

/-- Where no cell shows the probe, no formula comes to it. -/
theorem evaluate_ne_probe (hkeeps : scope.functions.KeepsErrors)
    (hplain : ∀ id, (scope.cells.valueAt id).IsPlain)
    (hprobe : ∀ id, scope.cells.valueAt id ≠ .probe) (formula : String) :
    scope.evaluate formula ≠ .probe :=
  evaluate_ne_of_forall hkeeps rfl (by decide) (by decide) (fun _ _ id _ => hplain id)
    fun _ _ id _ => hprobe id

end Scope

end Spreadsheet
