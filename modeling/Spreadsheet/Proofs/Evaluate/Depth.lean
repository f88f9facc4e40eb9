import Spreadsheet.Proofs.Evaluate.Consults

/-!
# Depth of Expressions

How deep an expression is nested shows in its text.

The parts of an expression are known without evaluating anything, so the number
of levels that evaluation could have to go down is known as well. An expression
that is nested less deep than evaluation may go has a value, whatever the cells
hold, and the value does not change if evaluation may go deeper.

## Main definitions

* `Formula.nestedWithin`: An expression with fewer levels than a bound.

## Theorems

* `Scope.valueFrom_mono`, `Scope.valueFrom_congr`: Only the values of the parts matter.
* `Scope.exists_of_nestedWithin`: An expression with few levels has a value.
* `Scope.value?_succ`: Room for more levels changes no value.
-/

namespace Spreadsheet

/-- Whether an expression has fewer than `depth` levels below it, counting all
    parts that could be evaluated. -/
def Formula.nestedWithin : Nat → List Char → Bool
  | 0, _ => false
  | depth + 1, cs => (Form.ofTrimmed (Text.trim cs)).parts.all (nestedWithin depth)

namespace Formula

theorem nestedWithin_part {depth : Nat} {cs part : List Char}
    (h : nestedWithin (depth + 1) cs = true)
    (hpart : part ∈ (Form.ofTrimmed (Text.trim cs)).parts) : nestedWithin depth part = true :=
  List.all_eq_true.mp h part hpart

end Formula

namespace Scope

variable {scope : Scope}

/-- An expression has a value if all of its parts do. -/
theorem exists_valueFrom {f : List Char → Option Value} {cs : List Char}
    (hpart : ∀ part ∈ (Form.ofTrimmed (Text.trim cs)).parts, ∃ v, f part = some v) :
    ∃ v, scope.valueFrom f cs = some v := by
  rw [valueFrom]
  cases hform : Form.ofTrimmed (Text.trim cs) with
  | call name args =>
      rw [hform] at hpart
      simp only
      split
      · exact ⟨_, rfl⟩
      · rcases exists_mapM_of_forall hpart with ⟨values, hvalues⟩
        exact ⟨_, Option.bind_eq_some_iff.mpr ⟨values, hvalues, rfl⟩⟩
  | arithmetic text pieces =>
      rw [hform] at hpart
      have hinsertion : ∀ p ∈ pieces, ∃ result, scope.insertion f p = some result :=
        fun p hp => exists_insertion fun part hcall =>
          hpart part (Form.mem_parts_of_piece (hcall ▸ hp))
      rcases exists_splice hinsertion with ⟨result, hresult⟩
      cases result with
      | ok spliced => exact ⟨_, Option.bind_eq_some_iff.mpr ⟨.ok spliced, hresult, rfl⟩⟩
      | error v => exact ⟨_, Option.bind_eq_some_iff.mpr ⟨.error v, hresult, rfl⟩⟩
  -- The other forms have no parts, and their values are at hand.
  | _ => exact ⟨_, rfl⟩

/-- An expression that is not nested too deep has a value. -/
theorem exists_of_nestedWithin {depth : Nat} {cs : List Char}
    (h : Formula.nestedWithin depth cs = true) : ∃ v, scope.value? depth cs = some v := by
  induction depth generalizing cs with
  | zero => cases h
  | succ depth ih =>
      exact exists_valueFrom fun part hpart => ih (Formula.nestedWithin_part h hpart)

/-- Only the values of the parts matter. -/
theorem valueFrom_mono {f g : List Char → Option Value} {cs : List Char} {v : Value}
    (hfg : ∀ part ∈ (Form.ofTrimmed (Text.trim cs)).parts, ∀ w, f part = some w → g part = some w)
    (h : scope.valueFrom f cs = some v) : scope.valueFrom g cs = some v := by
  have hyields : scope.Yields f cs v := yields_of_valueFrom h
  exact (hyields.mono hfg (fun _ => rfl) (fun _ _ => rfl) fun _ _ _ => rfl).valueFrom_eq

theorem valueFrom_congr {f g : List Char → Option Value} {cs : List Char}
    (hfg : ∀ part ∈ (Form.ofTrimmed (Text.trim cs)).parts, f part = g part) :
    scope.valueFrom f cs = scope.valueFrom g cs := by
  refine Option.ext fun v => ⟨?_, ?_⟩
  · exact valueFrom_mono fun part hpart w hw => (hfg part hpart).symm.trans hw
  · exact valueFrom_mono fun part hpart w hw => (hfg part hpart).trans hw

/-- Room for more levels changes no value. -/
theorem value?_succ {depth : Nat} {cs : List Char} {v : Value}
    (h : scope.value? depth cs = some v) : scope.value? (depth + 1) cs = some v := by
  induction depth generalizing cs v with
  | zero => cases h
  | succ depth ih => exact valueFrom_mono (fun part _ w hw => ih hw) h

/-- So does room for any number of levels. -/
theorem value?_of_le {depth depth' : Nat} {cs : List Char} {v : Value}
    (h : scope.value? depth cs = some v) (hle : depth ≤ depth') :
    scope.value? depth' cs = some v := by
  induction hle with
  | refl => exact h
  | step _ ih => exact value?_succ ih

end Scope

end Spreadsheet
