import Spreadsheet.Formula.Form
import Spreadsheet.Proofs.Formula.Nesting

/-!
# Pieces of Regular Formulas

What arithmetic reads, and that the mentions of its text cover it.

Two walks go through the text of an arithmetic expression. One cuts it into
pieces and steps over calls and names, the other looks for mentions. They are at
the same places again and again: at a name, where both read the same letters and
digits; at a range, whose two ends are pieces of their own; and behind a call,
where the text can be cut. `Within.advances` is the step from one such place
to the next, and asks only what starts there; `Within.pieces` is the induction
on the length of what is left.

## Main definitions

* `Piece.IsFoundIn`: A piece that can be found in a text.
* `Piece.IsWithin`: A piece that the mentions in a list account for.
* `Within.Advances`: The pieces at the front of a text are accounted for.

## Theorems

* `Piece.start?_cases`: What starts at a place.
* `Piece.scan_plain`, `Piece.scan_literal`, `Piece.scan_cell`,
  `Piece.scan_call`, `Piece.scan_unclosed`: The pieces of a text from the front.
* `Piece.isFoundIn_of_mem_scan`: Where the pieces of a text come from.
* `Within.advances`: The step from one place to the next.
* `Within.pieces`: The mentions of a text account for its pieces.
-/

namespace Spreadsheet

open Mention StringLiteral

namespace Piece

/-- What starts at a place: a call, if a name and a parenthesis stand there, and
    otherwise the name of a cell, if one does. -/
theorem start?_cases {cs : List Char} {s : Start} (h : start? cs = some s) :
    (∃ name args rest, cs = name ++ '(' :: (args ++ ')' :: rest) ∧ name ≠ [] ∧
        (∀ c ∈ name, Column.isLetter c = true) ∧
        (Nesting.run { depth := 1 } args).quoted = false ∧
        s = .call (name ++ '(' :: (args ++ [')'])).length) ∨
      s = .unclosed ∨ ∃ name, name? cs = some name ∧ s = .cell name := by
  rw [start?] at h
  cases hstart : Call.start? cs with
  | none =>
      rw [hstart] at h
      simp only [Option.map_eq_some_iff] at h
      rcases h with ⟨name, hname, rfl⟩
      exact Or.inr (Or.inr ⟨name, hname, rfl⟩)
  | some p =>
      rcases p with ⟨name, rest⟩
      rw [hstart] at h
      simp only at h
      rcases Call.start?_eq_some hstart with ⟨rfl, hne, hname⟩
      -- A call is one only if its parenthesis is found.
      cases hclose : Nesting.matching? rest with
      | none =>
          rw [hclose, Option.some.injEq] at h
          exact Or.inr (Or.inl h.symm)
      | some n =>
          rw [hclose, Option.some.injEq] at h
          rcases Nesting.closing?_eq_some (by decide) hclose with ⟨a, b, rfl, hlen, hquoted, _⟩
          refine Or.inl ⟨name, a, b, rfl, hne, hname, hquoted, ?_⟩
          rw [← h, ← hlen]
          simp only [List.length_append, List.length_cons, List.length_nil]
          congr 1
          omega

/-- What starts at a place takes up at least one character, and ends in the text. -/
theorem length_of_start?_cell {cs name : List Char} (h : start? cs = some (.cell name)) :
    0 < name.length ∧ name.length ≤ cs.length := by
  rcases start?_cases h with ⟨_, _, _, _, _, _, _, heq⟩ | heq | ⟨name', hname, heq⟩
  · cases heq
  · cases heq
  · rw [Start.cell.inj heq]
    rcases isName_of_name? hname with ⟨hshape, rest, rfl, _⟩
    refine ⟨List.length_pos_iff.mpr hshape.ne_nil, ?_⟩
    rw [List.length_append]
    exact Nat.le_add_right _ _

theorem length_of_start?_call {cs : List Char} {n : Nat} (h : start? cs = some (.call n)) :
    0 < n ∧ n ≤ cs.length := by
  rcases start?_cases h with ⟨name, args, rest, rfl, _, _, _, heq⟩ | heq | ⟨_, _, heq⟩
  · rw [Start.call.inj heq]
    simp only [List.length_append, List.length_cons, List.length_nil]
    omega
  · cases heq
  · cases heq

theorem name?_of_start? {cs : List Char} (h : start? cs = none) : name? cs = none := by
  rw [start?] at h
  cases hstart : Call.start? cs with
  | none =>
      rw [hstart] at h
      simpa only [Option.map_eq_none_iff] using h
  | some p =>
      rw [hstart] at h
      simp only at h
      split at h <;> cases h

/-- A name of a cell starts no call, since a digit stands where a parenthesis
    would have to. -/
theorem start?_of_name? {cs name : List Char} (h : name? cs = some name) :
    start? cs = some (.cell name) := by
  rcases isName_of_name? h with ⟨⟨letters, digits, rfl, _, hd0, hl, hd⟩, rest, rfl, _⟩
  cases hstart : Call.start? (letters ++ digits ++ rest) with
  | none => rw [start?, hstart, h]; rfl
  | some p =>
      exfalso
      rcases Call.start?_eq_some hstart with ⟨heq, _, hname⟩
      cases digits with
      | nil => exact hd0 rfl
      | cons d digits =>
          have hdigit := hd d List.mem_cons_self
          have hstop : Text.StopsAt Column.isLetter (d :: digits ++ rest) :=
            Text.StopsAt.cons _ (Text.isLetter_of_isDigit hdigit)
          have hstop' : Text.StopsAt Column.isLetter ('(' :: p.2) :=
            Text.StopsAt.cons _ (by decide)
          -- Both run on as far as the letters go, so the digit would be the parenthesis.
          have hdrop := (Text.span_of_stop hl hstop).2
          rw [← List.append_assoc, heq, (Text.span_of_stop hname hstop').2] at hdrop
          rw [← (List.cons.inj hdrop).1] at hdigit
          exact absurd hdigit (by decide)

theorem scanFrom_eq (skip : Nat) (marks : List (Char × Bool)) :
    scanFrom skip marks = scanFrom 0 (marks.drop skip) := by
  induction marks generalizing skip with
  | nil => rw [List.drop_nil]; cases skip <;> rfl
  | cons mark marks ih =>
      cases skip with
      | zero => rfl
      | succ skip => rw [scanFrom, ih, List.drop_succ_cons]

theorem length_mark (cs : List Char) : (mark cs).length = cs.length := by
  have := congrArg List.length (map_fst_markFrom 0 cs)
  rwa [List.length_map] at this

/-- Skipping a paired text leads to the pieces of what follows it. -/
theorem scanFrom_append {a : List Char} (b : List Char) (h : Paired a) :
    scanFrom a.length (mark (a ++ b)) = scan b := by
  rw [scanFrom_eq, mark_append b h, ← length_mark a, List.drop_left]
  rfl

/-- The pieces of a text outside a literal, by what starts there. -/
theorem scan_cons {c : Char} (rest : List Char) (hc : c ≠ '"') :
    scan (c :: rest) =
      match if Column.isLetter c then start? (c :: rest) else none with
      | none => plain c :: scan rest
      | some (.cell name) => cell (String.ofList name) :: scanFrom (name.length - 1) (mark rest)
      | some (.call length) =>
        call ((c :: rest).take length) :: scanFrom (length - 1) (mark rest)
      | some .unclosed => (c :: rest).map plain := by
  rw [scan, mark_plain rest hc, scanFrom, show (mark rest).map Prod.fst = rest from
    map_fst_markFrom 0 rest]
  rfl

theorem scan_plain {c : Char} {rest : List Char} (hc : c ≠ '"')
    (h : (if Column.isLetter c then start? (c :: rest) else none) = none) :
    scan (c :: rest) = plain c :: scan rest := by
  rw [scan_cons rest hc, h]

theorem scan_of_not_isLetter {c : Char} (rest : List Char) (hc : c ≠ '"')
    (h : Column.isLetter c = false) : scan (c :: rest) = plain c :: scan rest :=
  scan_plain hc (by rw [h]; rfl)

theorem scanFrom_marked (a : List Char) (marks : List (Char × Bool)) :
    scanFrom 0 (a.map (fun c => (c, true)) ++ marks) = a.map plain ++ scanFrom 0 marks := by
  induction a with
  | nil => rfl
  | cons c a ih =>
      rw [List.map_cons, List.cons_append, scanFrom, ih]
      rfl

/-- The characters of a literal stand for themselves. -/
theorem scan_literal {body : List Char} (rest : List Char) (quote : '"' ∉ body)
    (escape : '\\' ∉ body) :
    scan ('"' :: (body ++ '"' :: rest)) = ('"' :: (body ++ ['"'])).map plain ++ scan rest := by
  rw [scan, mark_literal rest quote escape, scanFrom_marked]
  rfl

theorem letter_ne_quote {c : Char} (h : Column.isLetter c = true) : c ≠ '"' := by
  intro hc
  rw [hc] at h
  exact absurd h (by decide)

/-- A name is one piece, and the pieces of what follows it come after. -/
theorem scan_cell {name rest : List Char} (h : name? (name ++ rest) = some name) :
    scan (name ++ rest) = cell (String.ofList name) :: scan rest := by
  have hshape := (isName_of_name? h).1
  have hstart := start?_of_name? h
  rcases hshape.exists_cons with ⟨c, cs, rfl, hc⟩
  have hpaired : Paired cs := paired_of_not_mem
    (fun hq => absurd (hshape.isPart _ (List.mem_cons_of_mem _ hq)) (by decide))
  rw [List.cons_append] at hstart ⊢
  rw [scan_cons _ (letter_ne_quote hc), if_pos hc, hstart]
  simp only
  rw [List.length_cons, Nat.add_sub_cancel, scanFrom_append rest hpaired]

/-- A call that is closed is one piece, if its quotes are paired. -/
theorem scan_call {name args rest : List Char} (hne : name ≠ [])
    (hname : ∀ c ∈ name, Column.isLetter c = true) (hargs : Paired args)
    (h : start? (name ++ '(' :: (args ++ ')' :: rest))
      = some (.call (name ++ '(' :: (args ++ [')'])).length)) :
    scan (name ++ '(' :: (args ++ ')' :: rest))
      = call (name ++ '(' :: (args ++ [')'])) :: scan rest := by
  cases name with
  | nil => exact absurd rfl hne
  | cons c name =>
      have hc := hname c List.mem_cons_self
      have hpaired : Paired (name ++ '(' :: (args ++ [')'])) := by
        refine Paired.append (paired_of_not_mem (fun hq => ?_)) (Paired.plain (by decide)
          (hargs.append (Paired.plain (by decide) Paired.nil)))
        exact absurd (hname _ (List.mem_cons_of_mem _ hq)) (by decide)
      -- The call is skipped as a whole, with the quotes in it.
      have heq : name ++ '(' :: (args ++ ')' :: rest)
          = (name ++ '(' :: (args ++ [')'])) ++ rest := by
        simp only [List.append_assoc, List.cons_append, List.nil_append]
      rw [List.cons_append] at h ⊢
      rw [scan_cons _ (letter_ne_quote hc), if_pos hc, h]
      simp only
      rw [List.cons_append, List.length_cons, Nat.add_sub_cancel, List.take_succ_cons, heq,
        scanFrom_append rest hpaired, List.take_left]

theorem scan_unclosed {c : Char} {rest : List Char} (hc : Column.isLetter c = true)
    (h : start? (c :: rest) = some .unclosed) : scan (c :: rest) = (c :: rest).map plain := by
  rw [scan_cons rest (letter_ne_quote hc), if_pos hc, h]

/-- A piece that can be found in a text: a character, or what starts at some place. -/
inductive IsFoundIn (cs : List Char) : Piece → Prop
  /-- A character stands for itself. -/
  | plain (c : Char) : IsFoundIn cs (plain c)
  /-- A name of a cell. -/
  | cell {rest name : List Char} (suffix : rest <:+ cs) (start : start? rest = some (.cell name)) :
      IsFoundIn cs (cell (String.ofList name))
  /-- A call that is closed. -/
  | call {rest : List Char} {n : Nat} (suffix : rest <:+ cs)
      (start : start? rest = some (.call n)) : IsFoundIn cs (call (rest.take n))

theorem IsFoundIn.cons {cs : List Char} {p : Piece} (h : IsFoundIn cs p) (c : Char) :
    IsFoundIn (c :: cs) p := by
  cases h with
  | plain d => exact .plain d
  | cell suffix start => exact .cell (suffix.trans (List.suffix_cons c cs)) start
  | call suffix start => exact .call (suffix.trans (List.suffix_cons c cs)) start

theorem isFoundIn_of_mem_scanFrom {skip : Nat} {marks : List (Char × Bool)} {p : Piece}
    (h : p ∈ scanFrom skip marks) : IsFoundIn (marks.map Prod.fst) p := by
  induction marks generalizing skip with
  | nil => cases skip <;> cases h
  | cons mark marks ih =>
      rcases mark with ⟨c, literal⟩
      rw [List.map_cons]
      cases skip with
      | succ skip => exact (ih h).cons c
      | zero =>
          cases literal with
          | true =>
              rcases List.mem_cons.mp h with rfl | h
              · exact .plain c
              · exact (ih h).cons c
          | false =>
              rw [scanFrom] at h
              split at h
              · rcases List.mem_cons.mp h with rfl | h
                · exact .plain c
                · exact (ih h).cons c
              · rename_i name hstart
                rcases List.mem_cons.mp h with rfl | h
                · exact .cell (List.suffix_refl _) (Option.ite_none_right_eq_some.mp hstart).2
                · exact (ih h).cons c
              · rename_i n hstart
                rcases List.mem_cons.mp h with rfl | h
                · exact .call (List.suffix_refl _) (Option.ite_none_right_eq_some.mp hstart).2
                · exact (ih h).cons c
              · rcases List.mem_map.mp h with ⟨d, _, rfl⟩
                exact .plain d

/-- Every piece is a character, or what starts at some place of the text. -/
theorem isFoundIn_of_mem_scan {cs : List Char} {p : Piece} (h : p ∈ scan cs) :
    IsFoundIn cs p := by
  have hfound := isFoundIn_of_mem_scanFrom h
  rwa [mark, map_fst_markFrom] at hfound

/-- Cells among the pieces are named by names. -/
theorem isName_of_mem_scan {cs : List Char} {name : String} (h : cell name ∈ scan cs) :
    IsName name.toList := by
  cases isFoundIn_of_mem_scan h with
  | cell _ hstart =>
      rcases start?_cases hstart with ⟨_, _, _, _, _, _, _, heq⟩ | heq | ⟨_, hname, heq⟩
      · cases heq
      · cases heq
      · rw [String.toList_ofList, Start.cell.inj heq]
        exact (isName_of_name? hname).1

/-- A call among the pieces is a whole call by itself. -/
theorem whole?_of_mem_scan {cs text : List Char} (h : call text ∈ scan cs) :
    ∃ name args, Call.whole? text = some (name, args) := by
  cases isFoundIn_of_mem_scan h with
  | @call rest n _ hstart =>
      rw [start?] at hstart
      split at hstart
      · rename_i name after hcall
        split at hstart
        · rename_i m hclose
          have hn : name.length + 1 + m + 1 = n := Start.call.inj (Option.some.inj hstart)
          rcases Call.start?_eq_some hcall with ⟨rfl, hne, hname⟩
          have htake := Nesting.closing?_take hclose
          -- The piece is cut behind the parenthesis that closes it.
          have htext : (name ++ '(' :: after).take n = name ++ '(' :: after.take (m + 1) := by
            rw [← hn, show name.length + 1 + m + 1 = name.length + (m + 2) by omega,
              List.take_length_add_append, List.take_succ_cons]
          have hlen : (after.take (m + 1)).length = m + 1 := by
            rcases Nesting.closing?_eq_some (by decide) hclose with ⟨a, b, rfl, hlen, _, _⟩
            rw [List.length_take, List.length_append, List.length_cons]
            omega
          refine ⟨name, (after.take (m + 1)).take m, ?_⟩
          rw [htext, Call.whole?, Call.start?_of_name _ hne hname]
          simp only [Nesting.matching?, htake, hlen, if_true]
        · cases hstart
      · rw [Option.map_eq_some_iff] at hstart
        rcases hstart with ⟨_, _, hcell⟩
        cases hcell

/-- A piece that the mentions in a list account for: they name the cell, or hold
    all mentions of the call. -/
def IsWithin (ms : List Mention) : Piece → Prop
  | plain _ => True
  | cell name => ∃ m ∈ ms, m.Names name.toList
  | call text => Within ms text

theorem isWithin_map_plain (ms : List Mention) (cs : List Char) :
    ∀ p ∈ cs.map plain, IsWithin ms p := by
  intro p hp
  rcases List.mem_map.mp hp with ⟨c, _, rfl⟩
  exact trivial

end Piece

namespace Within

variable {ms : List Mention}

theorem mention {m : Mention} {rest : List Char} (h : Within ms (m.chars ++ rest))
    (hm : atStart? (m.chars ++ rest) = some m) : m ∈ ms ∧ Within ms rest := by
  rcases h.tidy.mentionsIn_of_some hm with ⟨hscan, htidy⟩
  refine ⟨h.mem m ?_, htidy, fun m' hm' => h.mem m' ?_⟩
  · rw [hscan]
    exact List.mem_cons_self
  · rw [hscan]
    exact List.mem_cons_of_mem _ hm'

theorem tail {c : Char} {rest : List Char} (h : Within ms (c :: rest)) (hc : c ≠ '"')
    (hm : atStart? (c :: rest) = none) : Within ms rest := by
  refine ⟨h.tidy.tail hc, fun m hmem => h.mem m ?_⟩
  rw [h.tidy.mentionsIn_of_none hc hm]
  exact hmem

theorem literal {body rest : List Char} (h : Within ms ('"' :: (body ++ '"' :: rest)))
    (quote : '"' ∉ body) (escape : '\\' ∉ body) : Within ms rest := by
  refine ⟨h.tidy.of_literal quote, fun m hmem => h.mem m ?_⟩
  rw [mentionsIn_literal rest quote escape]
  exact hmem

/-- The pieces at the front of a text are accounted for, and so is what they
    leave. -/
def Advances (ms : List Mention) (cs : List Char) : Prop :=
  ∃ front rest, Piece.scan cs = front ++ Piece.scan rest ∧ (∀ p ∈ front, p.IsWithin ms) ∧
    Within ms rest ∧ rest.length < cs.length

theorem advances_plain {c : Char} {rest : List Char} (h : Within ms rest)
    (hscan : Piece.scan (c :: rest) = Piece.plain c :: Piece.scan rest) :
    Advances ms (c :: rest) := by
  refine ⟨[.plain c], rest, hscan, fun p hp => ?_, h, Nat.lt_succ_self _⟩
  rw [List.mem_singleton.mp hp]
  exact trivial

theorem advances_literal {body rest : List Char} (h : Within ms ('"' :: (body ++ '"' :: rest)))
    (quote : '"' ∉ body) (escape : '\\' ∉ body) : Advances ms ('"' :: (body ++ '"' :: rest)) := by
  refine ⟨_, rest, Piece.scan_literal rest quote escape, Piece.isWithin_map_plain ms _,
    h.literal quote escape, ?_⟩
  simp only [List.length_cons, List.length_append]
  omega

/-- A name is accounted for by the mention that starts with it. If that is a range,
    the colon and the other end are pieces of their own. -/
theorem advances_name {name rest : List Char} (h : Within ms (name ++ rest))
    (hname : name? (name ++ rest) = some name) : Advances ms (name ++ rest) := by
  have hpos := List.length_pos_iff.mpr (isName_of_name? hname).1.ne_nil
  rcases atStart?_of_name? hname with hcell | ⟨last, rest', rfl, hlast, hrange⟩
  · rcases h.mention (m := .cell name) hcell with ⟨hmem, hrest⟩
    refine ⟨[.cell (String.ofList name)], rest, Piece.scan_cell hname, fun p hp => ?_, hrest, ?_⟩
    · rw [List.mem_singleton.mp hp]
      exact ⟨_, hmem, String.toList_ofList⟩
    · rw [List.length_append]
      omega
  · -- The walk over the pieces reads the two ends, the scan for mentions both at once.
    have heq : name ++ ':' :: (last ++ rest') = (Mention.range name last).chars ++ rest' := by
      rw [Mention.chars, List.append_assoc, List.cons_append]
    have hscan := Piece.scan_cell hname
    rw [Piece.scan_of_not_isLetter _ (by decide) (by decide), Piece.scan_cell hlast] at hscan
    rw [heq] at h hrange
    rcases h.mention hrange with ⟨hmem, hrest⟩
    refine ⟨[.cell (String.ofList name), .plain ':', .cell (String.ofList last)], rest', hscan,
      fun p hp => ?_, hrest, ?_⟩
    · simp only [List.mem_cons, List.not_mem_nil, or_false] at hp
      rcases hp with rfl | rfl | rfl
      · exact ⟨_, hmem, Or.inl String.toList_ofList⟩
      · exact trivial
      · exact ⟨_, hmem, Or.inr String.toList_ofList⟩
    · simp only [List.length_append, List.length_cons]
      omega

theorem advances_call {name args rest : List Char}
    (h : Within ms (name ++ '(' :: (args ++ ')' :: rest))) (hne : name ≠ [])
    (hname : ∀ c ∈ name, Column.isLetter c = true)
    (hargs : (Nesting.run { depth := 1 } args).quoted = false)
    (hstart : Piece.start? (name ++ '(' :: (args ++ ')' :: rest))
      = some (.call (name ++ '(' :: (args ++ [')'])).length)) :
    Advances ms (name ++ '(' :: (args ++ ')' :: rest)) := by
  rcases h.call hname hargs with ⟨hcall, hinner, hrest⟩
  refine ⟨[.call (name ++ '(' :: (args ++ [')']))], rest,
    Piece.scan_call hne hname hinner.tidy.paired hstart, fun p hp => ?_, hrest, ?_⟩
  · rw [List.mem_singleton.mp hp]
    exact hcall
  · simp only [List.length_cons, List.length_append]
    omega

/-- Whatever a text starts with, the walk over its pieces advances. -/
theorem advances {cs : List Char} (h : Within ms cs) (hne : cs ≠ []) : Advances ms cs := by
  have hpaired := h.tidy.paired
  cases hpaired with
  | nil => exact absurd rfl hne
  | literal quote escape _ => exact advances_literal h quote escape
  | @plain c rest quote _ =>
      by_cases hc : Column.isLetter c = true
      · cases hstart : Piece.start? (c :: rest) with
        | none =>
            exact advances_plain (h.tail quote (atStart?_of_none (Piece.name?_of_start? hstart)))
              (Piece.scan_plain quote (by rw [if_pos hc, hstart]))
        | some s =>
            rcases Piece.start?_cases hstart with
              ⟨name, args, rest', heq, hname0, hname, hargs, rfl⟩ | rfl | ⟨name, hname, rfl⟩
            · rw [heq] at h hstart ⊢
              exact advances_call h hname0 hname hargs hstart
            · -- After a call that is never closed nothing is left to account for.
              refine ⟨(c :: rest).map .plain, [], ?_, Piece.isWithin_map_plain ms _, ?_,
                Nat.succ_pos _⟩
              · rw [Piece.scan_unclosed hc hstart]
                exact (List.append_nil _).symm
              · exact ⟨Tidy.nil, fun m hm => by cases hm⟩
            · rcases isName_of_name? hname with ⟨_, rest', heq, _⟩
              rw [heq] at h hname ⊢
              exact advances_name h hname
      · rw [Bool.not_eq_true] at hc
        exact advances_plain (h.tail quote (atStart?_of_none (name?_of_not_isLetter rest hc)))
          (Piece.scan_of_not_isLetter rest quote hc)

/-- The mentions of a text account for its pieces. -/
theorem pieces {cs : List Char} (h : Within ms cs) : ∀ p ∈ Piece.scan cs, p.IsWithin ms := by
  induction hn : cs.length using Nat.strong_induction_on generalizing cs with
  | _ n ih =>
      intro p hp
      by_cases hne : cs = []
      · rw [hne] at hp
        cases hp
      · rcases h.advances hne with ⟨front, rest, hscan, hfront, hrest, hlt⟩
        rw [hscan] at hp
        rcases List.mem_append.mp hp with hp | hp
        · exact hfront p hp
        · exact ih rest.length (by omega) hrest rfl p hp

end Within

end Spreadsheet
