import Spreadsheet.Proofs.Evaluate.Coverage
import Spreadsheet.Proofs.Number.Numeral

/-!
# Overflow

Where a formula can come to a double that is not finite.

What is computed is checked: the result of a function, whichever it is, and the result
of arithmetic become an error if they are infinite or not a number. Two ways around the
checks are left. A number that is written as a whole formula is the value of the
formula as it is, and so is the value of a cell whose name is a whole formula. Digits
may be so many that the number they spell is beyond the doubles, so the first way is
one for infinity to come in, and the second one for it to be handed on.

A formula of either kind reads what it shows and nothing else.

## Main definitions

* `Value.Overflows`: A value is a double that is not finite.
* `Formula.HasForm`: A text is a formula, and its expression has a form.

## Theorems

* `Scope.form_of_overflows`: Only numbers and cells have such doubles as values.
* `Scope.overflows_evaluate_iff`: When a formula comes to such a double.
* `Formula.HasForm.reads_iff`, `Formula.HasForm.not_reads`: What such a formula reads.
-/

namespace Spreadsheet

namespace Value

/-- A value is a double that is infinite or not a number. -/
def Overflows (v : Value) : Prop := ∃ x, v = number (.float x) ∧ x.isFinite = false

/-- The same, as a test. -/
def overflown : Value → Bool
  | number (.float x) => !x.isFinite
  | _ => false

theorem overflown_iff {v : Value} : v.overflown = true ↔ v.Overflows := by
  unfold overflown
  split
  · rename_i x
    rw [Bool.not_eq_true']
    refine ⟨fun h => ⟨x, rfl, h⟩, ?_⟩
    rintro ⟨y, hy, hinfinite⟩
    rwa [Number.float.inj (number.inj hy)]
  · rename_i hfloat
    refine iff_of_false Bool.false_ne_true ?_
    rintro ⟨x, hx, _⟩
    exact hfloat x hx

instance (v : Value) : Decidable v.Overflows := decidable_of_iff _ overflown_iff

theorem not_overflows_text (s : String) : ¬ (text s).Overflows := by
  rintro ⟨x, hx, _⟩
  cases hx

theorem not_overflows_of_isError {v : Value} (h : v.isError = true) : ¬ v.Overflows := by
  rintro ⟨x, rfl, _⟩
  cases h

/-- A double that was checked is finite. -/
theorem not_overflows_ofFloat (x : Float) : ¬ (ofFloat x).Overflows := by
  rintro ⟨y, hy, hinfinite⟩
  rw [ofFloat] at hy
  split at hy
  · rename_i hfinite
    rw [Number.ofFloat] at hy
    cases hwhole : Double.whole? x with
    | some n =>
        rw [hwhole] at hy
        cases hy
    | none =>
        rw [hwhole] at hy
        rw [← Number.float.inj (number.inj hy), hfinite] at hinfinite
        cases hinfinite
  · cases hy

/-- The value of a call is finite, whatever the result of the function. -/
theorem not_overflows_ofResult (v : Option Value) : ¬ (ofResult v).Overflows := by
  unfold ofResult
  split
  · exact not_overflows_text ""
  · rintro ⟨x, hx, _⟩
    cases hx
  · exact not_overflows_ofFloat _
  · exact not_overflows_text _
  · -- What is left of the numbers are whole ones.
    rename_i v hfloat _
    rintro ⟨x, hx, _⟩
    exact hfloat x hx

theorem not_overflows_valueOf (text cs : List Char) :
    ¬ (Arithmetic.valueOf text cs).Overflows := by
  rw [Arithmetic.valueOf]
  split
  · exact not_overflows_text _
  · split
    · exact not_overflows_ofFloat _
    · exact not_overflows_of_isError rfl

end Value

namespace Formula

/-- A text is a formula, and the expression behind its equals sign has a form. -/
def HasForm (formula : String) (form : Form) : Prop :=
  ∃ cs, formula.toList = '=' :: cs ∧ Form.ofTrimmed (Text.trim cs) = form

variable {formula id name : String}

/-- Without quotes in it, a formula mentions what its trimmed expression mentions. -/
theorem mentions_eq {cs : List Char} (h : formula.toList = '=' :: cs)
    (hquote : '"' ∉ Text.trim cs) :
    mentions formula = Mention.scan (Text.trim cs) := by
  have hcs : '"' ∉ '=' :: cs := by
    rcases Text.exists_blanks cs with ⟨front, back, heq, hfront, hback⟩
    rw [heq, List.mem_cons, List.mem_append, List.mem_append]
    rintro (hc | hc | hc | hc)
    · exact absurd hc (by decide)
    · exact absurd (hfront _ hc) (by decide)
    · exact hquote hc
    · exact absurd (hback _ hc) (by decide)
  rw [mentions, h, StringLiteral.strip_of_not_mem hcs, Mention.scan_of_not_isLetter _ (by decide),
    Mention.scan_trim]

/-- A formula that is the name of a cell reads that cell only. -/
theorem HasForm.reads_iff (h : HasForm formula (.cell name)) : Reads formula id ↔ id = name := by
  rcases h with ⟨cs, hcs, hform⟩
  rcases Form.eq_of_cell hform with ⟨htrim, hstart⟩
  rw [htrim] at hstart
  have hname : Mention.IsName name.toList :=
    Mention.isName_of_atStart? hstart (show Mention.Names (.cell name.toList) name.toList from rfl)
  have hquote : '"' ∉ name.toList := fun hm => absurd (hname.isPart _ hm) (by decide)
  -- The name is all that is mentioned, and it is no range.
  have hmentions : mentions formula = [.cell name.toList] := by
    rw [mentions_eq hcs (by rwa [htrim]), htrim]
    have hscan := @Mention.scan_of_some (.cell name.toList) [] (by
      rw [Mention.chars, List.append_nil]
      exact hstart)
    rwa [Mention.chars, List.append_nil] at hscan
  have hcell : [Mention.cell name.toList].filterMap Mention.cellName? = [name] := by
    rw [List.filterMap_cons_some (b := name) (by rw [Mention.cellName?, String.ofList_toList]),
      List.filterMap_nil]
  have hranges : ranges formula = [] := by
    rw [ranges, rangeTexts, hmentions]
    rfl
  rw [Reads, hranges, references, hmentions, List.mem_eraseDups, hcell]
  simp only [List.mem_singleton, List.not_mem_nil, false_and, exists_false, and_false, or_false]

/-- A formula that is a number reads no cell. -/
theorem HasForm.not_reads {n : Number} (h : HasForm formula (.number n)) : ¬ Reads formula id := by
  rcases h with ⟨cs, hcs, hform⟩
  have hplain : ∀ c ∈ Text.trim cs, c ≠ '"' ∧ Column.isLetter c = false := by
    cases Form.fits_of_eq hform with
    | number hvalue => exact Numeral.plain_of_value? hvalue
  have hmentions : mentions formula = [] := by
    rw [mentions_eq hcs fun hm => (hplain _ hm).1 rfl]
    exact Mention.scan_eq_nil fun c hc => (hplain c hc).2
  rw [Reads, ranges, rangeTexts, references, hmentions]
  rintro (hid | ⟨_, _, _, hblock, _⟩)
  · cases hid
  · cases hblock

end Formula

namespace Scope

variable {scope : Scope}

/-- Where the value of an expression is a double that is not finite, it stands for itself
    or is handed on: what is computed is checked. -/
theorem form_of_overflows {depth : Nat} {cs : List Char} {v : Value} (hv : v.Overflows)
    (h : scope.value? depth cs = some v) :
    (∃ n, Form.ofTrimmed (Text.trim cs) = .number n ∧ v = .number n) ∨
      ∃ name, Form.ofTrimmed (Text.trim cs) = .cell name ∧ v = scope.cells.valueAt name := by
  cases origin_of_value? h with
  | text heq => exact absurd (heq ▸ hv) (Value.not_overflows_text _)
  | number hform heq => exact Or.inl ⟨_, hform, heq⟩
  | cell hform heq => exact Or.inr ⟨_, hform, heq⟩
  | range _ heq =>
      rcases hv with ⟨x, hx, _⟩
      rw [heq] at hx
      cases hx
  | error herror => exact absurd hv (Value.not_overflows_of_isError herror)
  | call f arguments heq =>
      rw [heq, call] at hv
      split at hv
      · exact absurd hv (Value.not_overflows_ofResult _)
      · exact absurd hv (Value.not_overflows_of_isError rfl)
  | arithmetic text cs heq => exact absurd (heq ▸ hv) (Value.not_overflows_valueOf text cs)

/-- A double that is not finite is the value of the formula as it is. -/
theorem evaluate_eq_of_overflows {text : String} {cs : List Char} {v : Value}
    (hcs : text.toList = '=' :: cs) (hv : v.Overflows) (h : scope.value? depthLimit cs = some v) :
    scope.evaluate text = v := by
  rcases hv with ⟨x, rfl, _⟩
  rw [evaluate_eq_expression hcs, expression, h]

/-- A formula comes to a double that is not finite if it is such a number, or the name
    of a cell that shows one. -/
theorem overflows_evaluate_iff (scope : Scope) (text : String) :
    (scope.evaluate text).Overflows ↔
      (∃ n, Formula.HasForm text (.number n) ∧ (Value.number n).Overflows) ∨
        ∃ name, Formula.HasForm text (.cell name) ∧ (scope.cells.valueAt name).Overflows := by
  constructor
  · intro h
    rcases scope.evaluate_cases text with herror | ⟨s, hs⟩ | ⟨cs, hcs, hvalue, _⟩
    · exact absurd (herror ▸ h) (Value.not_overflows_of_isError rfl)
    · exact absurd (hs ▸ h) (Value.not_overflows_text s)
    · rcases form_of_overflows h hvalue with ⟨n, hform, heq⟩ | ⟨name, hform, heq⟩
      · exact Or.inl ⟨n, ⟨cs, hcs, hform⟩, heq ▸ h⟩
      · exact Or.inr ⟨name, ⟨cs, hcs, hform⟩, heq ▸ h⟩
  · rintro (⟨n, ⟨cs, hcs, hform⟩, hn⟩ | ⟨name, ⟨cs, hcs, hform⟩, hname⟩)
    · rwa [evaluate_eq_of_overflows hcs hn (Yields.number hform).value?_eq]
    · rwa [evaluate_eq_of_overflows hcs hname (Yields.cell hform).value?_eq]

end Scope

end Spreadsheet
