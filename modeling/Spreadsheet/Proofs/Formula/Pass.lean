import Spreadsheet.Proofs.Formula.Piece

/-!
# Passes over Arithmetic

How the pieces of arithmetic are found, by places in the text.

`Piece.scan` walks through a text character by character and steps over what it has
found. The same walk can be taken in passes. A pass starts at some place and looks for
the next place where a name or a call starts. If that place is in a string literal, the
pass goes on to the end of the literal. Otherwise it goes on to the end of what starts
there, and ends the walk if that is a call which is never closed, or if nothing starts
any more.

A pass that goes on has moved forward, and not past the end of the text (`lt_of_next?`).
So the walk ends, and what its passes find are the pieces of the text (`walk_eq_scan`).

## Main definitions

* `StringLiteral.spans`: Where the literals of a text start and end.
* `Piece.search?`: The next place where a name or a call starts.
* `Piece.pass`: What is found from a place on, and from where to go on.
* `Piece.walk`: All passes from a place on.

## Theorems

* `StringLiteral.getElem?_mark`: The marked characters are those in a span.
* `Piece.lt_of_next?`: A pass moves forward, and not past the end.
* `Piece.scanFrom_pass`: What one pass finds.
* `Piece.walk_eq_scan`: The passes find the pieces of the text.
-/

namespace Spreadsheet

open Mention StringLiteral

namespace StringLiteral

/-- Where the literals of a text start and end, from place `pos` on, if the first
    `inside` characters belong to a literal that has begun. -/
def spansFrom (pos : Nat) : Nat → List Char → List (Nat × Nat)
  | _, [] => []
  | inside + 1, _ :: rest => spansFrom (pos + 1) inside rest
  | 0, c :: rest =>
    match if c = '"' then restLength? rest else none with
    | some length => (pos, pos + 1 + length) :: spansFrom (pos + 1) length rest
    | none => spansFrom (pos + 1) 0 rest

/-- Where the literals of a text start and end. -/
def spans (cs : List Char) : List (Nat × Nat) := spansFrom 0 0 cs

/-- Whether a place is in a span. -/
def isIn (i : Nat) (span : Nat × Nat) : Bool := span.1 ≤ i ∧ i < span.2

/-- The end of the literal that a place is in, if it is in one. -/
def spanEnd? (cs : List Char) (i : Nat) : Option Nat := ((spans cs).find? (isIn i)).map Prod.snd

theorem isIn_iff {i : Nat} {span : Nat × Nat} : isIn i span = true ↔ span.1 ≤ i ∧ i < span.2 :=
  decide_eq_true_iff

theorem restLength?_le {cs : List Char} {n : Nat} (h : restLength? cs = some n) :
    n ≤ cs.length := by
  induction cs using restLength?.induct generalizing n with
  | case1 => cases h
  | case2 rest =>
      rw [restLength?, Option.some.injEq] at h
      rw [← h, List.length_cons]
      omega
  | case3 => cases h
  | case4 rest => cases h
  | case5 c rest hc ih =>
      rw [restLength?, if_neg hc, Option.map_eq_some_iff] at h
      rcases h with ⟨m, hm, rfl⟩
      exact Nat.succ_le_succ (Nat.succ_le_succ (ih hm))
  | case6 c rest hquote hlast hescape ih =>
      rw [restLength?] at h
      · rcases Option.map_eq_some_iff.mp h with ⟨m, hm, rfl⟩
        exact Nat.succ_le_succ (ih hm)
      · exact hquote
      · exact hlast
      · exact hescape

/-- A literal starts where it is found or later, and ends in the text. -/
theorem of_mem_spansFrom {pos inside : Nat} {cs : List Char} {span : Nat × Nat}
    (h : span ∈ spansFrom pos inside cs) : pos ≤ span.1 ∧ span.2 ≤ pos + cs.length := by
  induction cs generalizing pos inside with
  | nil => cases inside <;> cases h
  | cons c cs ih =>
      rw [List.length_cons]
      have hrest : ∀ {inside}, span ∈ spansFrom (pos + 1) inside cs →
          pos ≤ span.1 ∧ span.2 ≤ pos + (cs.length + 1) := fun h => by
        have := ih h
        omega
      cases inside with
      | succ inside => exact hrest h
      | zero =>
          rw [spansFrom] at h
          split at h
          · rename_i length hlength
            have hle := restLength?_le (Option.ite_none_right_eq_some.mp hlength).2
            -- The literal that starts here ends behind its last quote.
            rcases List.mem_cons.mp h with rfl | h
            · exact ⟨Nat.le_refl _, by omega⟩
            · exact hrest h
          · exact hrest h

/-- In front of the place where the search for literals starts, there are none. -/
theorem any_spansFrom_of_lt {pos i : Nat} (h : i < pos) (inside : Nat) (cs : List Char) :
    (spansFrom pos inside cs).any (isIn i) = false := by
  refine List.any_eq_false.mpr fun span hspan hin => ?_
  have hstart := (of_mem_spansFrom hspan).1
  have hle := (isIn_iff.mp hin).1
  omega

theorem getElem?_markFrom (pos inside : Nat) (cs : List Char) (i : Nat) :
    (markFrom inside cs)[i]? = cs[i]?.map fun c =>
      (c, decide (i < inside) || (spansFrom pos inside cs).any (isIn (pos + i))) := by
  induction cs generalizing pos inside i with
  | nil => cases inside <;> rfl
  | cons c cs ih =>
      -- Behind the first character, the places count from one further on.
      have htail : ∀ (inside i : Nat) (literal : Bool),
          ((c, literal) :: markFrom inside cs)[i + 1]? = cs[i]?.map fun c =>
            (c, decide (i < inside) ||
              (spansFrom (pos + 1) inside cs).any (isIn (pos + (i + 1)))) := by
        intro inside i literal
        rw [List.getElem?_cons_succ, ih (pos + 1), Nat.add_assoc, Nat.add_comm 1 i]
      cases inside with
      | succ inside =>
          rw [markFrom, spansFrom]
          cases i with
          | zero => rfl
          | succ i =>
              rw [htail, List.getElem?_cons_succ]
              simp only [Nat.add_lt_add_iff_right]
      | zero =>
          cases hlength : if c = '"' then restLength? cs else none with
          | some length =>
              simp only [markFrom, spansFrom, hlength]
              cases i with
              | zero =>
                  have hin : isIn (pos + 0) (pos, pos + 1 + length) = true :=
                    isIn_iff.mpr ⟨Nat.le_refl _, by omega⟩
                  rw [List.any_cons, hin, Bool.true_or, Bool.or_true]
                  rfl
              | succ i =>
                  have hin : isIn (pos + (i + 1)) (pos, pos + 1 + length) = decide (i < length) :=
                    decide_eq_decide.mpr (by omega)
                  rw [htail, List.getElem?_cons_succ, List.any_cons, hin]
                  rfl
          | none =>
              simp only [markFrom, spansFrom, hlength]
              cases i with
              | zero =>
                  rw [any_spansFrom_of_lt (show pos + 0 < pos + 1 from Nat.lt_succ_self pos)]
                  rfl
              | succ i =>
                  rw [htail, List.getElem?_cons_succ]
                  rfl

/-- The marked characters are those in a span. -/
theorem getElem?_mark (cs : List Char) (i : Nat) :
    (mark cs)[i]? = cs[i]?.map fun c => (c, (spans cs).any (isIn i)) := by
  rw [mark, getElem?_markFrom 0, Nat.zero_add]
  rfl

/-- A place from which a literal is left lies in front of its end, which is in the text or
    right behind it. -/
theorem of_spanEnd? {cs : List Char} {i stop : Nat} (h : spanEnd? cs i = some stop) :
    i < stop ∧ stop ≤ cs.length ∧ ∀ j, i ≤ j → j < stop → (spans cs).any (isIn j) = true := by
  rcases Option.map_eq_some_iff.mp h with ⟨span, hfind, rfl⟩
  have hin := isIn_iff.mp (List.find?_some hfind)
  have hmem := List.mem_of_find?_eq_some hfind
  have hstop := (of_mem_spansFrom hmem).2
  refine ⟨hin.2, by omega, fun j hij hj => ?_⟩
  exact List.any_eq_true.mpr ⟨span, hmem, isIn_iff.mpr ⟨hin.1.trans hij, hj⟩⟩

theorem any_of_spanEnd?_none {cs : List Char} {i : Nat} (h : spanEnd? cs i = none) :
    (spans cs).any (isIn i) = false := by
  have hfind := Option.map_eq_none_iff.mp h
  refine List.any_eq_false.mpr fun span hspan hin => ?_
  exact List.find?_eq_none.mp hfind span hspan hin

end StringLiteral

namespace Piece

/-- The next place where a name or a call starts, and what starts there. -/
def search? : List Char → Option (Nat × Start)
  | [] => none
  | c :: rest =>
    match start? (c :: rest) with
    | some start => some (0, start)
    | none => (search? rest).map fun (skip, start) => (skip + 1, start)

/-- What is done in one pass. -/
structure Pass where
  /-- The pieces that are found. -/
  pieces : List Piece
  /-- The place from which to go on, unless the walk is over. -/
  next? : Option Nat

/-- The pass that starts at a place in a text. -/
def pass (cs : List Char) (pos : Nat) : Pass :=
  let rest := cs.drop pos
  match search? rest with
  | none => ⟨rest.map plain, none⟩
  | some (skip, start) =>
    match spanEnd? cs (pos + skip) with
    -- What starts in a literal is text, and the literal is left as a whole.
    | some stop => ⟨(rest.take (stop - pos)).map plain, some stop⟩
    | none =>
      let before := (rest.take skip).map plain
      match start with
      | .cell name => ⟨before ++ [cell (String.ofList name)], some (pos + skip + name.length)⟩
      | .call length =>
        ⟨before ++ [call ((rest.drop skip).take length)], some (pos + skip + length)⟩
      | .unclosed => ⟨rest.map plain, none⟩

section

variable {cs : List Char}

theorem isLetter_of_start? {c : Char} {rest : List Char} {start : Start}
    (h : start? (c :: rest) = some start) : Column.isLetter c = true := by
  by_contra hc
  rw [Bool.not_eq_true] at hc
  rw [start?] at h
  cases hcall : Call.start? (c :: rest) with
  | none =>
      rw [hcall, name?_of_not_isLetter rest hc] at h
      cases h
  | some p =>
      rcases Call.start?_eq_some hcall with ⟨heq, hne, hname⟩
      rcases List.exists_cons_of_ne_nil hne with ⟨d, name, hd⟩
      rw [hd, List.cons_append] at heq
      have hletter := hname d (by rw [hd]; exact List.mem_cons_self)
      rw [← (List.cons.inj heq).1, hc] at hletter
      cases hletter

/-- What is found by a search starts at the place that is found, and nothing before. -/
theorem of_search?_some {skip : Nat} {start : Start} (h : search? cs = some (skip, start)) :
    start? (cs.drop skip) = some start ∧ ∀ j < skip, start? (cs.drop j) = none := by
  induction cs generalizing skip with
  | nil => cases h
  | cons c rest ih =>
      rw [search?] at h
      split at h
      · rename_i start' hstart
        rw [Option.some.injEq, Prod.mk.injEq] at h
        rw [← h.1, ← h.2]
        exact ⟨hstart, fun j hj => absurd hj (Nat.not_lt_zero j)⟩
      · rename_i hstart
        rcases Option.map_eq_some_iff.mp h with ⟨⟨skip', start'⟩, hsearch, heq⟩
        rw [Prod.mk.injEq] at heq
        rcases heq with ⟨rfl, rfl⟩
        have hfound := ih hsearch
        -- Nothing starts at the first character, and the rest is searched from there.
        refine ⟨hfound.1, fun j hj => ?_⟩
        cases j with
        | zero => exact hstart
        | succ j => exact hfound.2 j (Nat.lt_of_succ_lt_succ hj)

theorem of_search?_none (h : search? cs = none) (j : Nat) : start? (cs.drop j) = none := by
  induction cs generalizing j with
  | nil => rw [List.drop_nil]; rfl
  | cons c rest ih =>
      rw [search?] at h
      split at h
      · cases h
      · rename_i hstart
        cases j with
        | zero => exact hstart
        | succ j => exact ih (Option.map_eq_none_iff.mp h) j

/-- A pass that goes on has moved forward, and not past the end of the text. -/
theorem lt_of_next? {pos pos' : Nat} (h : (pass cs pos).next? = some pos') :
    pos < pos' ∧ pos' ≤ cs.length := by
  rw [pass] at h
  simp only at h
  split at h
  · cases h
  · rename_i skip start hsearch
    have hstart := (of_search?_some hsearch).1
    rw [List.drop_drop] at hstart
    have hlength : (cs.drop (pos + skip)).length = cs.length - (pos + skip) := List.length_drop
    split at h
    · rename_i stop hstop
      have hspan := of_spanEnd? hstop
      rw [Option.some.injEq] at h
      omega
    · split at h
      · have hname := length_of_start?_cell hstart
        rw [Option.some.injEq] at h
        omega
      · have hcall := length_of_start?_call hstart
        rw [Option.some.injEq] at h
        omega
      · cases h

/-- All passes from a place on. -/
def walk (cs : List Char) (pos : Nat) : List Piece :=
  match _hnext : (pass cs pos).next? with
  | none => (pass cs pos).pieces
  | some pos' => (pass cs pos).pieces ++ walk cs pos'
termination_by cs.length - pos
decreasing_by
  have hlt := lt_of_next? _hnext
  omega

end

section

variable {marks : List (Char × Bool)}

/-- The characters of literals, and those with which nothing starts, stand for
    themselves. -/
theorem scanFrom_plain {n : Nat} (h : ∀ j < n, ∀ mark, marks[j]? = some mark →
      mark.2 = true ∨ start? ((marks.map Prod.fst).drop j) = none) :
    scanFrom 0 marks
      = ((marks.map Prod.fst).take n).map plain ++ scanFrom 0 (marks.drop n) := by
  induction n generalizing marks with
  | zero => rfl
  | succ n ih =>
      cases marks with
      | nil => rfl
      | cons mark marks =>
          rcases mark with ⟨c, literal⟩
          have hrest := ih fun j hj mark hmark => h (j + 1) (Nat.succ_lt_succ hj) mark hmark
          rw [List.map_cons, List.take_succ_cons, List.map_cons, List.cons_append,
            List.drop_succ_cons, ← hrest]
          -- In a literal nothing starts, and outside of one by assumption.
          cases literal with
          | true => rfl
          | false =>
              have hnone : start? (c :: marks.map Prod.fst) = none :=
                (h 0 (Nat.succ_pos n) _ rfl).resolve_left Bool.false_ne_true
              rw [scanFrom, hnone, ite_self]

/-- What starts outside of a literal is one piece, and the walk goes on behind it. From a
    call on that is never closed, all is plain. -/
theorem scanFrom_of_start? {start : Start}
    (hplain : ∀ mark, marks[0]? = some mark → mark.2 = false) :
    start? (marks.map Prod.fst) = some start →
      scanFrom 0 marks = match start with
        | .cell name => cell (String.ofList name) :: scanFrom 0 (marks.drop name.length)
        | .call n => call ((marks.map Prod.fst).take n) :: scanFrom 0 (marks.drop n)
        | .unclosed => (marks.map Prod.fst).map plain := by
  intro h
  cases marks with
  | nil => cases h
  | cons mark marks =>
      rcases mark with ⟨c, literal⟩
      rw [show literal = false from hplain _ rfl, scanFrom, if_pos (isLetter_of_start? h)]
      rw [List.map_cons] at h
      simp only [h]
      -- The first character is gone already when the rest is skipped.
      cases start with
      | cell name =>
          simp only
          rw [scanFrom_eq, List.drop_cons (length_of_start?_cell h).1]
      | call n =>
          simp only
          rw [scanFrom_eq, List.drop_cons (length_of_start?_call h).1]
          rfl
      | unclosed => rfl

end

section

variable (cs : List Char)

theorem map_fst_drop_mark (i : Nat) : ((mark cs).drop i).map Prod.fst = cs.drop i := by
  rw [List.map_drop, mark, map_fst_markFrom]

/-- A marked character shows whether its place is in a literal. -/
theorem snd_of_getElem?_drop_mark {i j : Nat} {m : Char × Bool}
    (h : ((mark cs).drop i)[j]? = some m) : m.2 = (spans cs).any (isIn (i + j)) := by
  rw [List.getElem?_drop, getElem?_mark] at h
  rcases Option.map_eq_some_iff.mp h with ⟨c, _, rfl⟩
  rfl

/-- What one pass finds, followed by what is found from the place where it goes on. -/
theorem scanFrom_pass (pos : Nat) :
    scanFrom 0 ((mark cs).drop pos) = (pass cs pos).pieces ++
      match (pass cs pos).next? with
      | none => []
      | some pos' => scanFrom 0 ((mark cs).drop pos') := by
  rw [pass]
  simp only
  cases hsearch : search? (cs.drop pos) with
  | none =>
      have hplain : scanFrom 0 ((mark cs).drop pos) = _ :=
        scanFrom_plain fun j (_ : j < cs.length) _ _ =>
          Or.inr (by rw [map_fst_drop_mark]; exact of_search?_none hsearch j)
      have hall : (cs.drop pos).take cs.length = cs.drop pos :=
        List.take_of_length_le (List.length_drop.trans_le (Nat.sub_le _ _))
      have hnil : ((mark cs).drop pos).drop cs.length = [] :=
        List.drop_eq_nil_of_le (by rw [List.length_drop, length_mark]; exact Nat.sub_le _ _)
      rw [hplain, map_fst_drop_mark, hall, hnil]
      rfl
  | some found =>
      rcases found with ⟨skip, start⟩
      have hfound := of_search?_some hsearch
      simp only
      cases hspan : spanEnd? cs (pos + skip) with
      | some stop =>
          have hstop := of_spanEnd? hspan
          have hplain : scanFrom 0 ((mark cs).drop pos) = _ :=
            scanFrom_plain fun j (hj : j < stop - pos) m hm => by
              -- Nothing starts in front of the place that was found, and from there on all
              -- is in the literal.
              by_cases hskip : j < skip
              · exact Or.inr (by rw [map_fst_drop_mark]; exact hfound.2 j hskip)
              · rw [snd_of_getElem?_drop_mark cs hm]
                exact Or.inl (hstop.2.2 (pos + j) (by omega) (by omega))
          rw [hplain, map_fst_drop_mark, List.drop_drop, show pos + (stop - pos) = stop by omega]
      | none =>
          have hbefore : scanFrom 0 ((mark cs).drop pos) = _ :=
            scanFrom_plain fun j (hj : j < skip) _ _ =>
              Or.inr (by rw [map_fst_drop_mark]; exact hfound.2 j hj)
          have hplain : ∀ m, ((mark cs).drop (pos + skip))[0]? = some m → m.2 = false :=
            fun m hm => (snd_of_getElem?_drop_mark cs hm).trans (any_of_spanEnd?_none hspan)
          have hstart : start? (((mark cs).drop (pos + skip)).map Prod.fst) = some start := by
            rw [map_fst_drop_mark, ← List.drop_drop]
            exact hfound.1
          rw [hbefore, map_fst_drop_mark, List.drop_drop, scanFrom_of_start? hplain hstart]
          cases start with
          | cell name =>
              simp only
              rw [List.drop_drop, List.append_assoc, List.singleton_append]
          | call length =>
              simp only
              rw [map_fst_drop_mark, List.drop_drop, List.drop_drop, List.append_assoc,
                List.singleton_append]
          | unclosed =>
              simp only
              rw [map_fst_drop_mark, ← List.drop_drop, ← List.map_append, List.take_append_drop,
                List.append_nil]

/-- The passes from a place on find the pieces of the rest of the text. -/
theorem walk_eq_scanFrom (pos : Nat) : walk cs pos = scanFrom 0 ((mark cs).drop pos) := by
  induction pos using walk.induct cs with
  | case1 pos hnext => rw [walk, scanFrom_pass, hnext, List.append_nil]
  | case2 pos pos' hnext ih =>
      rw [walk, scanFrom_pass, hnext]
      simp only [ih]

/-- The passes over a text find its pieces. -/
theorem walk_eq_scan : walk cs 0 = scan cs := walk_eq_scanFrom cs 0

end

/-- The second name starts in a literal, which is left as a whole. -/
example : (pass "A1+\"B2\"+C3".toList 0).next? = some 2 ∧
    (pass "A1+\"B2\"+C3".toList 2).next? = some 7 := by decide

end Piece

end Spreadsheet
