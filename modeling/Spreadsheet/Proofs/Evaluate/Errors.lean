import Spreadsheet.Proofs.Evaluate.Consults

/-!
# Where Errors Come From

An error that a formula comes to is new, or one that a cell shows.

Evaluation makes two errors of its own: one for everything that fails, and one
for functions that do not exist. Any other error was shown by a cell that the
formula looked at, and was passed on: by arithmetic, which stops at the first
error, or by a function. This needs functions that make up no errors, as the
builtin ones do not: of these only the choice between two arguments can give an
error at all, and then it is one of the arguments.

So an error of any other kind, such as that of a cycle, is never the result of a
formula that looks at no cell with this error.

## Main definitions

* `Builtin.Gives`: What a builtin function can give for its arguments.
* `Registry.KeepsErrors`: Functions that give no errors but those they are given.

## Theorems

* `Builtin.gives_of_apply`: Builtin functions give nothing else.
* `Registry.keepsErrors_builtins`: The builtin functions are like that.
* `Scope.error_cases`: Where the error of an expression comes from.
* `Scope.evaluate_ne_of_forall`: A formula does not come to an error that no cell
  it looks at shows.
-/

namespace Spreadsheet

namespace Builtin

theorem mem_of_nth {args : List (Option Value)} {i : Nat} {v : Value}
    (h : Argument.nth args i = some v) : some v ∈ args := by
  rw [Argument.nth, Option.join_eq_some_iff] at h
  exact List.mem_of_getElem? h

/-- What a builtin function can give for its arguments: a double, a number of
    arguments, a text, or one of the arguments. -/
inductive Gives (args : List (Option Value)) : Value → Prop where
  /-- A double that was computed. -/
  | double (x : Float) : Gives args (.number (.float x))
  /-- How many arguments are of some kind. -/
  | count {n : Nat} (le : n ≤ args.length) : Gives args (.number (.whole n))
  /-- A text. -/
  | text (s : String) : Gives args (.text s)
  /-- An argument as it is. -/
  | argument {v : Value} (mem : some v ∈ args) : Gives args v

/-- There are no more numbers than arguments. -/
theorem length_numbers_le {args : List (Option Value)} {xs : List Float}
    (h : Argument.numbers args = .ok xs) : xs.length ≤ args.length := by
  rw [Argument.numbers] at h
  rcases exists_of_bind h with ⟨numbers, hnumbers, h⟩
  rw [← Except.ok.inj h, (forall₂_of_mapM hnumbers).length_eq]
  exact List.length_filterMap_le _ _

/-- Builtin functions give nothing else. -/
theorem gives_of_apply {f : Builtin} {args : List (Option Value)} {v : Value}
    (h : f.apply args = .ok (some v)) : Gives args v := by
  have hgives : ∀ {w : Value}, (pure (some w) : Except CallFault _) = .ok (some v) →
      Gives args w → Gives args v := fun hw hgives => by
    rwa [← Option.some.inj (Except.ok.inj hw)]
  cases f with
  | sum =>
      rcases exists_of_bind h with ⟨n, hn, h⟩
      rcases exists_of_bind hn with ⟨xs, _, hn⟩
      refine hgives h ?_
      rw [← Except.ok.inj hn]
      split
      · exact .count (Nat.zero_le _)
      · exact .double _
  | count =>
      rcases exists_of_bind h with ⟨xs, hxs, h⟩
      exact hgives h (.count ((List.length_filter_le _ _).trans (length_numbers_le hxs)))
  | counta => exact hgives h (.count (List.length_filter_le _ _))
  -- The choice gives one of its arguments, or the empty text for a missing one.
  | choose =>
      rcases exists_of_bind h with ⟨condition, _, h⟩
      refine hgives h ?_
      cases hnth : Argument.nth args (if condition then 1 else 2) with
      | none => exact .text ""
      | some w => exact .argument (mem_of_nth hnth)
  | concat | upper | lower => exact hgives h (.text _)
  -- The others compute a double, after reading their arguments.
  | average | min | max | abs =>
      rcases exists_of_bind h with ⟨x, _, h⟩
      exact hgives h (.double _)
  | sqrt =>
      rcases exists_of_bind h with ⟨x, _, h⟩
      rcases exists_of_bind h with ⟨y, _, h⟩
      exact hgives h (.double _)
  | round | power =>
      rcases exists_of_bind h with ⟨x, _, h⟩
      rcases exists_of_bind h with ⟨y, _, h⟩
      rcases exists_of_bind h with ⟨z, _, h⟩
      exact hgives h (.double _)

/-- A builtin function gives no error but those it is given. -/
theorem mem_of_apply {f : Builtin} {args : List (Option Value)} {v : Value}
    (h : f.apply args = .ok (some v)) (hv : v.isError = true) : some v ∈ args := by
  cases gives_of_apply h with
  | argument hmem => exact hmem
  | double _ | count _ | text _ => cases hv

end Builtin

namespace Registry

/-- Functions that give no errors but those they are given. -/
def KeepsErrors (registry : Registry) : Prop :=
  ∀ name f args v, registry.get? name = some f → f args = .ok (some v) → v.isError = true →
    some v ∈ args

/-- The builtin functions make up no errors. -/
theorem keepsErrors_builtins : KeepsErrors builtins := by
  intro name f args v hf hv herror
  rcases List.mem_map.mp (OrderedMap.mem_of_get?_ofList hf) with ⟨b, _, heq⟩
  rw [← (Prod.mk.inj heq).2] at hv
  exact Builtin.mem_of_apply hv herror

end Registry

namespace Value

theorem ofFloat_of_isError {x : Float} (h : (ofFloat x).isError = true) :
    ofFloat x = failure := by
  rw [ofFloat] at h ⊢
  split at h
  · cases h
  · rename_i hfinite
    rw [if_neg hfinite]

theorem valueOf_of_isError {text cs : List Char}
    (h : (Arithmetic.valueOf text cs).isError = true) : Arithmetic.valueOf text cs = failure := by
  unfold Arithmetic.valueOf at h ⊢
  by_cases hempty : (cs.filter Arithmetic.survives).isEmpty = true
  · simp only [hempty, if_true] at h
    cases h
  · simp only [hempty, Bool.false_eq_true, if_false] at h ⊢
    cases heval : Arithmetic.evaluate (cs.filter Arithmetic.survives) with
    | ok x =>
        rw [heval] at h
        exact ofFloat_of_isError h
    | error e => rfl

theorem ofResult_of_isError {result : Option Value} (h : (ofResult result).isError = true) :
    ofResult result = failure ∨ result = some (ofResult result) := by
  unfold ofResult at h ⊢
  split at h
  · cases h
  · cases h
  · exact Or.inl (ofFloat_of_isError h)
  · cases h
  · exact Or.inr rfl

end Value

namespace Scope

/-- The error of a call is new, or the function has received it. -/
theorem call_error_cases {scope : Scope} (hkeeps : scope.functions.KeepsErrors) {name : String}
    {f : Function} (hf : scope.functions.get? name = some f) {values : List Value}
    (hv : (scope.call f values).isError = true) :
    scope.call f values = .failure ∨
      scope.call f values ∈ values.flatMap scope.contribution := by
  unfold call at hv ⊢
  cases hresult : f ((values.flatMap scope.contribution).map some) with
  | error e => exact Or.inl rfl
  | ok result =>
      rw [hresult] at hv
      rcases Value.ofResult_of_isError hv with hfailure | hsome
      · exact Or.inl hfailure
      · rw [hsome] at hresult
        rcases List.mem_map.mp (hkeeps name f _ _ hf hresult hv) with ⟨w, hw, heq⟩
        rw [Option.some.inj heq] at hw
        exact Or.inr hw

/-- The error of an expression is one of the two that evaluation makes, or shown by
    a cell that is consulted. -/
theorem error_cases {scope : Scope} (hkeeps : scope.functions.KeepsErrors) {depth : Nat}
    {cs : List Char} {v : Value} (hplain : ∀ id, Consults cs id → (scope.cells.valueAt id).IsPlain)
    (h : scope.value? depth cs = some v) (hv : v.isError = true) :
    v = .failure ∨ v = .nameError ∨ ∃ id, Consults cs id ∧ scope.cells.valueAt id = v := by
  induction depth generalizing cs v with
  | zero => cases h
  | succ depth ih =>
      -- What a part gives comes from what the part consults.
      have hpart : ∀ part ∈ (Form.ofTrimmed (Text.trim cs)).parts, ∀ w, w.isError = true →
          scope.value? depth part = some w →
            w = .failure ∨ w = .nameError ∨ ∃ id, Consults cs id ∧ scope.cells.valueAt id = w := by
        intro part hmem w hw hvalue
        rcases ih (fun id hid => hplain id (.part hmem hid)) hvalue hw with hf | hn | ⟨id, hid, hw'⟩
        · exact Or.inl hf
        · exact Or.inr (Or.inl hn)
        · exact Or.inr (Or.inr ⟨id, .part hmem hid, hw'⟩)
      cases yields_of_value? h with
      | text _ | number _ | range _ => cases hv
      | @cell name hform => exact Or.inr (Or.inr ⟨name, .cell hform, rfl⟩)
      | unknown _ _ => exact Or.inr (Or.inl rfl)
      | @call name args f values hform hf harguments =>
          rcases call_error_cases hkeeps hf hv with hfailure | hreceived
          · exact Or.inl hfailure
          · rcases exists_of_mem_contributions hplain hform harguments hreceived with
              hcell | ⟨arg, harg, hvalue⟩
            · exact Or.inr (Or.inr hcell)
            · exact hpart arg (by rw [hform]; exact Form.mem_parts_of_call harg) _ hv hvalue
      | arithmetic _ _ => exact Or.inl (Value.valueOf_of_isError hv)
      | @error text pieces w hform hsplice =>
          rcases (exists_of_splice hsplice).2 with ⟨name, hname, hw⟩ | ⟨part, hmem, hw⟩
          · exact Or.inr (Or.inr ⟨name, .piece hform hname, hw⟩)
          · exact hpart part (by rw [hform]; exact Form.mem_parts_of_piece hmem) _ hv hw

/-- The error of a formula is one of the two that evaluation makes, or shown by a
    cell that is consulted. -/
theorem evaluate_error_cases {scope : Scope} (hkeeps : scope.functions.KeepsErrors)
    {formula : String}
    (hplain : ∀ cs, formula.toList = '=' :: cs → ∀ id, Consults cs id →
      (scope.cells.valueAt id).IsPlain)
    (herror : (scope.evaluate formula).isError = true) :
    scope.evaluate formula = .failure ∨ scope.evaluate formula = .nameError ∨
      ∃ cs, formula.toList = '=' :: cs ∧
        ∃ id, Consults cs id ∧ scope.cells.valueAt id = scope.evaluate formula := by
  rcases scope.evaluate_cases formula with hfailure | ⟨s, hs⟩ | ⟨cs, hcs, hvalue, _⟩
  · exact Or.inl hfailure
  · rw [hs] at herror
    cases herror
  · rcases error_cases hkeeps (hplain cs hcs) hvalue herror with h | h | ⟨id, hid, h⟩
    · exact Or.inl h
    · exact Or.inr (Or.inl h)
    · exact Or.inr (Or.inr ⟨cs, hcs, id, hid, h⟩)

/-- A formula that looks at no cell with some error does not come to it, unless
    evaluation makes the error itself. -/
theorem evaluate_ne_of_forall {scope : Scope} (hkeeps : scope.functions.KeepsErrors)
    {formula : String} {v : Value} (hv : v.isError = true) (hfailure : v ≠ .failure)
    (hname : v ≠ .nameError)
    (hplain : ∀ cs, formula.toList = '=' :: cs → ∀ id, Consults cs id →
      (scope.cells.valueAt id).IsPlain)
    (hcells : ∀ cs, formula.toList = '=' :: cs → ∀ id, Consults cs id →
      scope.cells.valueAt id ≠ v) : scope.evaluate formula ≠ v := by
  intro h
  rw [← h] at hv
  rcases evaluate_error_cases hkeeps hplain hv with h' | h' | ⟨cs, hcs, id, hid, h'⟩
  · exact hfailure (h.symm.trans h')
  · exact hname (h.symm.trans h')
  · exact hcells cs hcs id hid (h'.trans h)

end Scope

end Spreadsheet
