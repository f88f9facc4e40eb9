import Spreadsheet.Proofs.Evaluate.Consults

/-!
# Reads Cover What Evaluation Looks At

The dependency graph and the evaluator take formulas apart in different ways: the
graph scans the text for mentions, evaluation goes down through the forms. A
formula is covered (`Formula.IsCovered`) if every cell that evaluation may look
at is read by the formula as the graph understands it. Then the cells that the
graph knows of decide the value, and what the rest of a sheet holds does not
matter.

Every regular formula is covered. The invariant is `Within`: each part of the
formula that is evaluated has all its mentions among those of the formula. So a
cell that is looked at stands in a mention, and if that mention is a range, which
it can only be an end of, the cell lies in the block.

## Main definitions

* `Mention.StandsFor`: The cells that a mention can stand for.
* `Formula.Reads`: The cells that a formula reads, as the graph understands it.
* `Formula.IsCovered`: A formula that looks only at cells it reads.
* `Formula.Passes`: The cells in ranges that a formula passes to some functions.

## Theorems

* `Within.exists_of_consults`: What evaluation looks at stands in a mention.
* `Formula.isCovered_of_isRegular`: Regular formulas are covered.
* `Scope.evaluate_congr_of_valueAt`, `Scope.evaluate_congr`: What a covered formula
  reads decides its value.
* `Scope.evaluate_eq_of_isRegular`: The same for regular formulas.
-/

namespace Spreadsheet

namespace Formula

/-- A formula reads the single cells that it mentions and the cells in the blocks
    that it names. -/
def Reads (formula id : String) : Prop :=
  id ∈ references formula ∨ ∃ a, Address.ofId? id = some a ∧ ∃ block ∈ ranges formula, a ∈ block

instance (formula id : String) : Decidable (Reads formula id) :=
  decidable_of_iff (id ∈ references formula ∨
      ∃ a ∈ Address.ofId? id, ∃ block ∈ ranges formula, a ∈ block) (by
    rw [Reads]
    refine or_congr_right (exists_congr fun a => ?_)
    rw [Option.mem_def])

/-- A formula is covered if evaluation looks only at cells that it reads. -/
def IsCovered (formula : String) : Prop :=
  ∀ cs, formula.toList = '=' :: cs → ∀ id, Consults cs id → Reads formula id

/-- A formula passes a range that holds the cell to a function whose name is one of
    `names`. -/
def Passes (names : String → Prop) (formula id : String) : Prop :=
  ∃ cs, formula.toList = '=' :: cs ∧ PassesRange names cs id

theorem mem_references {formula : String} {name : List Char}
    (h : Mention.cell name ∈ mentions formula) : String.ofList name ∈ references formula :=
  List.mem_eraseDups.mpr (List.mem_filterMap.mpr ⟨_, h, rfl⟩)

theorem mem_rangeTexts {formula : String} {first last : List Char}
    (h : Mention.range first last ∈ mentions formula) :
    String.ofList (Mention.range first last).chars ∈ rangeTexts formula :=
  List.mem_eraseDups.mpr (List.mem_filterMap.mpr ⟨_, h, rfl⟩)

/-- The ranges of a regular formula name blocks. -/
theorem IsRegular.exists_block {formula text : String} (h : IsRegular formula)
    (htext : text ∈ rangeTexts formula) : ∃ block, Block.ofText text = .ok block := by
  have hsome := h.2 text htext
  cases hof : Block.ofText text with
  | ok block => exact ⟨block, rfl⟩
  | error e =>
      rw [hof] at hsome
      cases hsome

theorem mem_ranges {formula text : String} {block : Block} (h : text ∈ rangeTexts formula)
    (hblock : Block.ofText text = .ok block) : block ∈ ranges formula :=
  List.mem_filterMap.mpr ⟨text, h, by rw [hblock]; rfl⟩

end Formula

namespace Mention

/-- The cells that a mention can stand for: those that it names, and those in the
    block of a range. -/
def StandsFor (m : Mention) (id : String) : Prop :=
  match m with
  | cell name => id.toList = name
  | range first last =>
    (range first last).Names id.toList ∨
      ∃ block, Block.ofChars (range first last).chars = .ok block ∧ id ∈ block.ids

theorem standsFor_of_names {m : Mention} {id : String} (h : m.Names id.toList) :
    m.StandsFor id := by
  cases m with
  | cell name => exact h
  | range first last => exact Or.inl h

end Mention

namespace Within

variable {ms : List Mention}

/-- A text that is one mention: the mention is in the list. -/
theorem mem_of_chars {m : Mention} (h : Within ms m.chars)
    (hm : Mention.atStart? m.chars = some m) : m ∈ ms := by
  rw [← List.append_nil m.chars] at h hm
  exact (h.mention hm).1

/-- A cell that evaluation looks at is named by a mention, or lies in the block of
    a range. -/
theorem exists_of_consults {cs : List Char} {id : String} (h : Within ms cs)
    (hid : Consults cs id) : ∃ m ∈ ms, m.StandsFor id := by
  -- A part of an expression mentions nothing that the expression does not mention.
  induction hid with
  | @cell cs name hform =>
      have htrim := h.trim
      rcases Form.eq_of_cell hform with ⟨hcs, hm⟩
      rw [hcs] at htrim hm
      exact ⟨.cell name.toList, htrim.mem_of_chars hm, rfl⟩
  | @piece cs text pieces name hform hmem =>
      rw [(Form.eq_of_arithmetic hform).2] at hmem
      rcases h.trim.pieces _ hmem with ⟨m, hm, hname⟩
      exact ⟨m, hm, Mention.standsFor_of_names hname⟩
  | @block cs args arg name id r hform hmem hrange hid =>
      have hpart : Within ms arg := h.trim.parts arg (by rw [hform]; exact hmem)
      have htrim := hpart.trim
      rcases Form.eq_of_range hrange with ⟨_, hblock, first, last, hcs, hm⟩
      rw [hcs] at htrim hm hblock
      exact ⟨.range first last, htrim.mem_of_chars hm, Or.inr ⟨r.block, hblock, hid⟩⟩
  | @part cs part id hmem _ ih => exact ih (h.trim.parts part hmem)

end Within

namespace Mention

/-- The ends of a range that names a block lie in it. -/
theorem exists_of_names_range {first last : List Char} {block : Block} {id : String}
    (hfirst : IsName first) (hlast : IsName last)
    (hblock : Block.ofChars (range first last).chars = .ok block)
    (hid : (range first last).Names id.toList) :
    ∃ a, Address.ofId? id = some a ∧ a ∈ block := by
  rcases Block.exists_of_ofChars hblock with ⟨first', last', a, b, hcs, _, _, ha, hb, rfl⟩
  -- Names hold no colon, so the text is cut between them.
  rcases (List.append_cons_inj_of_notMem hfirst.not_mem_colon hlast.not_mem_colon).mp hcs with
    ⟨rfl, _, rfl⟩
  rw [trim_of_isPart hfirst.isPart] at ha
  rw [trim_of_isPart hlast.isPart] at hb
  rcases hid with hid | hid
  · rw [← hid, String.ofList_toList] at ha
    exact ⟨a, ha, Block.left_mem_spanning a b⟩
  · rw [← hid, String.ofList_toList] at hb
    exact ⟨b, hb, Block.right_mem_spanning a b⟩

end Mention

namespace Formula

/-- A regular formula reads the cells that its mentions stand for. -/
theorem reads_of_standsFor {formula id : String} (hregular : IsRegular formula) {m : Mention}
    (hm : m ∈ mentions formula) (hid : m.StandsFor id) : Reads formula id := by
  cases m with
  | cell name =>
      refine Or.inl ?_
      rw [← String.ofList_toList (s := id), show id.toList = name from hid]
      exact mem_references hm
  | range first last =>
      have htext := mem_rangeTexts hm
      rcases hregular.exists_block htext with ⟨block, hblock⟩
      have hchars := hblock
      rw [Block.ofText, String.toList_ofList] at hchars
      refine Or.inr ?_
      rcases hid with hid | ⟨block', hblock', hid⟩
      · -- A corner of a range lies in its block.
        rcases Mention.exists_of_names_range (Mention.isName_of_mem_scan hm (Or.inl rfl))
          (Mention.isName_of_mem_scan hm (Or.inr rfl)) hchars hid with ⟨a, ha, hmem⟩
        exact ⟨a, ha, block, mem_ranges htext hblock, hmem⟩
      · rw [hchars] at hblock'
        rw [← Except.ok.inj hblock'] at hid
        rcases ((Block.mem_ids (Block.onGrid_of_ofChars hchars)).mp hid).2 with ⟨a, ha, hmem⟩
        exact ⟨a, ha, block, mem_ranges htext hblock, hmem⟩

/-- Regular formulas look only at cells that they read. -/
theorem isCovered_of_isRegular {formula : String} (h : IsRegular formula) :
    IsCovered formula := by
  intro cs hcs id hid
  have hself : Within (mentions formula) formula.toList := Within.self h.1
  rw [hcs] at hself
  have hwithin : Within (mentions formula) cs :=
    (hself.split (a := []) rfl (by decide) (by decide)).2
  rcases hwithin.exists_of_consults hid with ⟨m, hm, hstands⟩
  exact reads_of_standsFor h hm hstands

end Formula

namespace Scope

variable {functions : Registry} {a b : Cells} {formula : String}

/-- The values of what a covered formula reads decide its value, together with which
    cells are there for the functions in `names`, if all others ignore empty texts. -/
theorem evaluate_congr_of_valueAt (names : String → Prop)
    (hignores : ∀ name f, functions.get? name = some f → ¬ names name → f.IgnoresBlanks)
    (hcovered : Formula.IsCovered formula)
    (hplain : ∀ id, Formula.Reads formula id → (a.valueAt id).IsPlain)
    (hvalue : ∀ id, Formula.Reads formula id → a.valueAt id = b.valueAt id)
    (hagree : ∀ id, Formula.Passes names formula id → Cells.AgreeAt a b id) :
    evaluate ⟨a, functions⟩ formula = evaluate ⟨b, functions⟩ formula := by
  rw [evaluate, evaluate]
  split
  · rename_i cs hcs
    rw [expression, expression, value?_congr_of_valueAt names hignores
      (fun id hid => hplain id (hcovered cs hcs id hid))
      (fun id hid => hvalue id (hcovered cs hcs id hid)) fun id hid => hagree id ⟨cs, hcs, hid⟩]
  · rfl

/-- What a covered formula reads decides its value. -/
theorem evaluate_congr (hcovered : Formula.IsCovered formula)
    (hplain : ∀ id, Formula.Reads formula id → (a.valueAt id).IsPlain)
    (hagree : ∀ id, Formula.Reads formula id → Cells.AgreeAt a b id) :
    evaluate ⟨a, functions⟩ formula = evaluate ⟨b, functions⟩ formula :=
  evaluate_congr_of_valueAt (fun _ => True) (fun _ _ _ hname => absurd trivial hname) hcovered
    hplain (fun id hid => (hagree id hid).valueAt) fun id hid => by
      rcases hid with ⟨cs, hcs, hpasses⟩
      exact hagree id (hcovered cs hcs id hpasses.consults)

/-- What a regular formula reads, singly or in a block, decides its value, whatever
    else the cells hold. -/
theorem evaluate_eq_of_isRegular (hregular : Formula.IsRegular formula)
    (hplain : ∀ id, Formula.Reads formula id → (a.valueAt id).IsPlain)
    (hagree : ∀ id, Formula.Reads formula id →
      (a.get? id).map Cell.currentValue = (b.get? id).map Cell.currentValue) :
    evaluate ⟨a, functions⟩ formula = evaluate ⟨b, functions⟩ formula :=
  evaluate_congr (Formula.isCovered_of_isRegular hregular) hplain hagree

/-- A sum does not see the cell beside its range. -/
theorem evaluate_sum_insert :
    let a : Cells := .ofList [("A1", { value := "1" }), ("C1", { value := "2" }),
      ("D1", { value := "3" })]
    let b : Cells := a.insert "D1" { value := "4" }
    Formula.IsRegular "=SUM(A1:B1)*C1" ∧ ¬ Formula.Reads "=SUM(A1:B1)*C1" "D1" ∧
      evaluate ⟨a, .builtins⟩ "=SUM(A1:B1)*C1" = evaluate ⟨b, .builtins⟩ "=SUM(A1:B1)*C1" := by
  intro a b
  have hregular : Formula.IsRegular "=SUM(A1:B1)*C1" := by decide +kernel
  have hreads : ¬ Formula.Reads "=SUM(A1:B1)*C1" "D1" := by decide +kernel
  refine ⟨hregular, hreads, evaluate_eq_of_isRegular hregular
    (fun id _ => Cells.isPlain_valueAt (by decide +kernel) id) fun id hid => ?_⟩
  have hne : id ≠ "D1" := fun h => hreads (by rw [← h]; exact hid)
  rw [OrderedMap.get?_insert_of_ne a _ hne]

end Scope

end Spreadsheet
