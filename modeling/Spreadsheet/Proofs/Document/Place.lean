import Spreadsheet.Proofs.Document.RoundTrip

/-!
# Places in a Document

Where a document keeps a cell, and when it keeps all of them.

In a document a cell has no name but a place: the row of its number, and there the
field with the label of its column. Two names for one address have one place, and
what is written there for the first is lost when the second is written. So nothing is
lost from a sheet in which every address has at most one name (`Cells.AreApart`),
canonical or not. Where two names share an address, one of two different cells is
missing.

## Main definitions

* `Json.entryAt?`: What a document has at an address.
* `Cells.AreApart`: No address has two names.
* `Sheet.IsWrittenWhole`: All that was entered stands in the document.

## Theorems

* `Sheet.entryAt?_toDocument`: A document keeps a cell that shares its address with
  no other.
* `Sheet.isWrittenWhole_of_areApart`: Cells that are apart are all written.
* `Sheet.not_isWrittenWhole_of_shared`: Of two cells with one address, one is lost.
-/

namespace Spreadsheet

/-- What a document has at an address: in the row of its number, the field with the
    label of its column. -/
def Json.entryAt? (document : Json) (a : Address) : Option Json :=
  match document with
  | .object fields =>
    match field? fields "rows" with
    | some (.array rows) =>
      match rows[a.row.toNat]? with
      | some (.object row) => field? row (String.ofList (Column.letters a.col.toNat))
      | _ => none
    | _ => none
  | _ => none

/-- No address has two names. -/
def Cells.AreApart (cells : Cells) : Prop :=
  ∀ id ∈ cells.keys, ∀ id' ∈ cells.keys, ∀ a,
    Address.ofId? id = some a → Address.ofId? id' = some a → id = id'

/-- Canonical names are apart. -/
theorem Cells.areApart_of_isCanonical {cells : Cells}
    (h : ∀ id ∈ cells.keys, Address.IsCanonical id) : cells.AreApart :=
  fun id hid id' hid' _ ha ha' => Address.eq_of_isCanonical (h id hid) (h id' hid') ha ha'

/-- An entry tells the literal of its cell. -/
theorem Cell.value_of_toEntry {c c' : Cell} (h : c.toEntry = c'.toEntry) : c.value = c'.value := by
  rw [toEntry, toEntry, List.cons_append, List.cons_append, Json.object.injEq,
    List.cons.injEq, Prod.mk.injEq, Json.text.injEq] at h
  exact h.1.2

namespace Sheet

/-- Every cell with a text or a formula stands at its place in the document. -/
def IsWrittenWhole (sheet : Sheet) : Prop :=
  ∀ time id c, sheet.cells.get? id = some c → c.value ≠ "" ∨ c.isFormula = true →
    ∃ a, Address.ofId? id = some a ∧ (sheet.toDocument time).entryAt? a = some c.toEntry

variable {sheet : Sheet} {id : String} {c : Cell} {a : Address}

/-- At an address of a cell that is listed, a document has what it lists in the row. -/
theorem entryAt?_of_mem_listed (hlisted : (a, c) ∈ sheet.cells.listed) (time : String) :
    (sheet.toDocument time).entryAt? a
      = Json.field? (Cells.rowFields (sheet.cells.rowOf a.row.toNat))
          (String.ofList (Column.letters a.col.toNat)) := by
  rcases sheet.cells.exists_toRows with ⟨count, hrows, hcount⟩
  have hrow : sheet.cells.toRows[a.row.toNat]?
      = some (.object (Cells.rowFields (sheet.cells.rowOf a.row.toNat))) := by
    rw [hrows, List.getElem?_map, List.getElem?_range (hcount _ hlisted)]
    rfl
  have hentry : (sheet.toDocument time).entryAt? a
      = match sheet.cells.toRows[a.row.toNat]? with
        | some (.object row) => Json.field? row (String.ofList (Column.letters a.col.toNat))
        | _ => none := rfl
  rw [hentry, hrow]

/-- A document keeps a cell that shares its address with no other. -/
theorem entryAt?_toDocument (hapart : sheet.cells.AreApart) (hget : sheet.cells.get? id = some c)
    (ha : Address.ofId? id = some a) (hfilled : c.value ≠ "" ∨ c.isFormula = true)
    (time : String) : (sheet.toDocument time).entryAt? a = some c.toEntry := by
  have hlisted : (a, c) ∈ sheet.cells.listed := Cells.mem_listed.mpr ⟨⟨id, hget, ha⟩, hfilled⟩
  have hnonneg := Address.nonneg_of_ofId? ha
  have hrow : (a, c) ∈ sheet.cells.rowOf a.row.toNat :=
    List.mem_filter.mpr ⟨hlisted, decide_eq_true (Int.toNat_of_nonneg hnonneg.1).symm⟩
  rw [entryAt?_of_mem_listed hlisted]
  -- There is a field with the label, and it was written for some cell of this row.
  rcases List.mem_map.mp (Cells.mem_labels_of_mem hrow) with ⟨field, hfield, hlabel⟩
  rcases Cells.exists_of_mem_rowFields hfield with ⟨a', c', hrow', rfl⟩
  rcases List.mem_filter.mp hrow' with ⟨hlisted', hsame⟩
  rcases Cells.mem_listed.mp hlisted' with ⟨⟨id', hget', ha'⟩, _⟩
  have hnonneg' := Address.nonneg_of_ofId? ha'
  -- Row and label are those of one address, and this has only one name.
  have hcol : a'.col.toNat = a.col.toNat := Column.letters_injective (String.ofList_injective hlabel)
  have haddress : a' = a := by
    have hsame := of_decide_eq_true hsame
    rcases a with ⟨row, col⟩
    rcases a' with ⟨row', col'⟩
    rw [Address.mk.injEq]
    simp only at hsame hcol hnonneg hnonneg'
    omega
  rw [haddress] at ha'
  have hid : id' = id := hapart id' ((OrderedMap.mem_keys_iff _).mpr ⟨c', hget'⟩) id
    ((OrderedMap.mem_keys_iff _).mpr ⟨c, hget⟩) a ha' ha
  have hcell : c' = c := Option.some.inj (by rw [← hget', hid, hget])
  rw [haddress, hcell] at hfield
  exact (OrderedMap.get?_eq_some_iff _).mpr hfield

/-- If all names denote addresses and no two the same, all that was entered stands in
    the document. -/
theorem isWrittenWhole_of_areApart (hapart : sheet.cells.AreApart)
    (hids : ∀ id ∈ sheet.cells.keys, (Address.ofId? id).isSome = true) : sheet.IsWrittenWhole := by
  intro time id c hget hfilled
  rcases Option.isSome_iff_exists.mp (hids id ((OrderedMap.mem_keys_iff _).mpr ⟨c, hget⟩)) with
    ⟨a, ha⟩
  exact ⟨a, ha, entryAt?_toDocument hapart hget ha hfilled time⟩

/-- Of two cells with one address and different texts, one is lost. -/
theorem not_isWrittenWhole_of_shared {id' : String} {c' : Cell}
    (hget : sheet.cells.get? id = some c) (hget' : sheet.cells.get? id' = some c')
    (ha : Address.ofId? id = some a) (ha' : Address.ofId? id' = some a) (hvalue : c.value ≠ "")
    (hvalue' : c'.value ≠ "") (hne : c.value ≠ c'.value) : ¬ sheet.IsWrittenWhole := by
  intro hwhole
  rcases hwhole "" id c hget (Or.inl hvalue) with ⟨b, hb, hentry⟩
  rcases hwhole "" id' c' hget' (Or.inl hvalue') with ⟨b', hb', hentry'⟩
  rw [Option.some.inj (hb.symm.trans ha)] at hentry
  rw [Option.some.inj (hb'.symm.trans ha')] at hentry'
  exact hne (Cell.value_of_toEntry (Option.some.inj (hentry.symm.trans hentry')))

end Sheet

end Spreadsheet
