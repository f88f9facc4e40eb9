import Spreadsheet.Evaluate

/-!
# Splicing

What is written in the place of the pieces of an arithmetic expression.

Splicing goes from left to right and stops at the first error, or where a part is
too deep to have a value. Each piece is treated by itself: `Scope.insertion` says
what it comes to, and `splice_cons` that splicing is nothing but doing this piece
by piece. Whatever is said about splicing is said about single pieces first.

## Main definitions

* `Value.inserted`: The text of a value, or the value itself if it is an error.
* `Scope.insertion`: What a piece comes to.

## Theorems

* `Scope.splice_cons`: The walk over the pieces.
* `Scope.exists_of_splice_error`: Splicing stops at the error of a piece.
* `Scope.exists_of_splice_ok`: Splicing that does not stop has met no error.
* `Scope.exists_splice`: Splicing comes to something, if every piece does.
* `Scope.splice_mono`: Only what the pieces come to matters.
-/

namespace Spreadsheet

/-- The text of a value inside arithmetic, or the value itself if it is an error. -/
def Value.inserted (v : Value) : Except Value (List Char) :=
  if v.isError then .error v else .ok v.spliced

namespace Value

theorem inserted_of_isError {v : Value} (h : v.isError = true) : v.inserted = .error v := by
  rw [inserted, if_pos h]

theorem inserted_of_not_isError {v : Value} (h : v.isError = false) :
    v.inserted = .ok v.spliced := by
  rw [inserted, if_neg (by rw [h]; exact Bool.false_ne_true)]

theorem eq_of_inserted_error {v w : Value} (h : v.inserted = .error w) :
    v = w ∧ w.isError = true := by
  unfold inserted at h
  split at h
  · rename_i herror
    rw [← Except.error.inj h]
    exact ⟨rfl, herror⟩
  · cases h

end Value

namespace Scope

variable {scope : Scope} {f g : List Char → Option Value} {pieces : List Piece}

/-- What a piece of an arithmetic expression comes to: a text or an error, or
    nothing for a call that is nested too deep. -/
def insertion (scope : Scope) (f : List Char → Option Value) :
    Piece → Option (Except Value (List Char))
  | .plain c => some (.ok [c])
  | .cell name => some (scope.cells.valueAt name).inserted
  | .call text => (f text).map Value.inserted

/-- A piece comes to the same over other cells and in another way, if the cell or the
    call that it is does. -/
theorem insertion_of_some {a b : Scope} {p : Piece} {r : Except Value (List Char)}
    (hcell : ∀ name, p = .cell name → a.cells.valueAt name = b.cells.valueAt name)
    (hcall : ∀ text, p = .call text → ∀ v, f text = some v → g text = some v)
    (h : a.insertion f p = some r) : b.insertion g p = some r := by
  cases p with
  | plain c => exact h
  | cell name =>
      rw [insertion, ← hcell name rfl]
      exact h
  | call text =>
      rcases Option.map_eq_some_iff.mp h with ⟨v, hv, rfl⟩
      rw [insertion, hcall text rfl v hv, Option.map_some]

/-- Only a call can fail to come to something. -/
theorem exists_insertion {p : Piece} (hcall : ∀ text, p = .call text → ∃ v, f text = some v) :
    ∃ result, scope.insertion f p = some result := by
  cases p with
  | plain c => exact ⟨_, rfl⟩
  | cell name => exact ⟨_, rfl⟩
  | call text =>
      rcases hcall text rfl with ⟨v, hv⟩
      exact ⟨v.inserted, by rw [insertion, hv, Option.map_some]⟩

/-- Splicing treats the first piece, and goes on unless that is an error. -/
theorem splice_cons (p : Piece) (rest : List Piece) :
    scope.splice f (p :: rest) =
      match scope.insertion f p with
      | none => none
      | some (.error v) => some (.error v)
      | some (.ok cs) => (scope.splice f rest).map (Except.map (cs ++ ·)) := by
  cases p with
  | plain c => rfl
  | cell name =>
      rw [splice, insertion, Value.inserted]
      by_cases herror : (scope.cells.valueAt name).isError = true
      · simp only [herror, if_true]
      · simp only [herror, Bool.false_eq_true, if_false]
  | call text =>
      rw [splice, insertion]
      cases f text with
      | none => rfl
      | some v =>
          rw [Option.bind_eq_bind, Option.bind_some, Option.map_some, Value.inserted]
          by_cases herror : v.isError = true
          · simp only [herror, if_true]
          · simp only [herror, Bool.false_eq_true, if_false]

theorem splice_cons_of_error {p : Piece} {v : Value} (h : scope.insertion f p = some (.error v)) :
    scope.splice f (p :: pieces) = some (.error v) := by
  rw [splice_cons, h]

theorem splice_cons_of_ok {p : Piece} {cs : List Char} (h : scope.insertion f p = some (.ok cs)) :
    scope.splice f (p :: pieces) = (scope.splice f pieces).map (Except.map (cs ++ ·)) := by
  rw [splice_cons, h]

/-- What the first piece came to, where splicing comes to something. -/
theorem cases_of_splice_cons {p : Piece} {result : Except Value (List Char)}
    (h : scope.splice f (p :: pieces) = some result) :
    (∃ v, scope.insertion f p = some (.error v) ∧ result = .error v) ∨
      ∃ cs rest, scope.insertion f p = some (.ok cs) ∧ scope.splice f pieces = some rest ∧
        result = rest.map (cs ++ ·) := by
  rw [splice_cons] at h
  split at h
  · cases h
  · rename_i v hv
    exact Or.inl ⟨v, hv, (Option.some.inj h).symm⟩
  · rename_i cs hcs
    rcases Option.map_eq_some_iff.mp h with ⟨rest, hrest, hmap⟩
    exact Or.inr ⟨cs, rest, hcs, hrest, hmap.symm⟩

/-- Splicing stops at the error of a piece. -/
theorem exists_of_splice_error {v : Value} (h : scope.splice f pieces = some (.error v)) :
    ∃ p ∈ pieces, scope.insertion f p = some (.error v) := by
  induction pieces with
  | nil => cases h
  | cons p pieces ih =>
      -- Either this piece is the error, or it came from the pieces after it.
      rcases cases_of_splice_cons h with ⟨w, hw, heq⟩ | ⟨cs, rest, _, hrest, heq⟩
      · rw [Except.error.inj heq]
        exact ⟨p, List.mem_cons_self, hw⟩
      · cases rest with
        | ok cs' => cases heq
        | error w =>
            rw [← Except.error.inj heq] at hrest
            rcases ih hrest with ⟨p', hp', hv⟩
            exact ⟨p', List.mem_cons_of_mem _ hp', hv⟩

/-- Splicing that does not stop has met no error. -/
theorem exists_of_splice_ok {out : List Char} (h : scope.splice f pieces = some (.ok out)) :
    ∀ p ∈ pieces, ∃ cs, scope.insertion f p = some (.ok cs) := by
  induction pieces generalizing out with
  | nil =>
      intro p hp
      cases hp
  | cons p pieces ih =>
      rcases cases_of_splice_cons h with ⟨w, _, heq⟩ | ⟨cs, rest, hcs, hrest, heq⟩
      · cases heq
      · cases rest with
        | error w => cases heq
        | ok cs' =>
            intro p' hp'
            rcases List.mem_cons.mp hp' with rfl | hp'
            · exact ⟨cs, hcs⟩
            · exact ih hrest p' hp'

/-- Splicing comes to something, if every piece does. -/
theorem exists_splice (h : ∀ p ∈ pieces, ∃ result, scope.insertion f p = some result) :
    ∃ result, scope.splice f pieces = some result := by
  induction pieces with
  | nil => exact ⟨_, rfl⟩
  | cons p pieces ih =>
      rcases h p List.mem_cons_self with ⟨result, hresult⟩
      rcases ih fun p' hp' => h p' (List.mem_cons_of_mem _ hp') with ⟨rest, hrest⟩
      cases result with
      | error v => exact ⟨_, splice_cons_of_error hresult⟩
      | ok cs => exact ⟨_, by rw [splice_cons_of_ok hresult, hrest]; rfl⟩

/-- If every piece that comes to something comes to the same in another way, and perhaps
    over other cells, so does splicing. -/
theorem splice_mono {a b : Scope} {result : Except Value (List Char)}
    (h : a.splice f pieces = some result)
    (hfg : ∀ p ∈ pieces, ∀ {r}, a.insertion f p = some r → b.insertion g p = some r) :
    b.splice g pieces = some result := by
  induction pieces generalizing result with
  | nil => exact h
  | cons p pieces ih =>
      rcases cases_of_splice_cons h with ⟨v, hv, rfl⟩ | ⟨cs, rest, hcs, hrest, rfl⟩
      · exact splice_cons_of_error (hfg p List.mem_cons_self hv)
      · rw [splice_cons_of_ok (hfg p List.mem_cons_self hcs),
          ih hrest fun p' hp' => hfg p' (List.mem_cons_of_mem _ hp')]
        rfl

end Scope

end Spreadsheet
