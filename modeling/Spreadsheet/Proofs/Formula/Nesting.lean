import Spreadsheet.Formula.Nesting
import Spreadsheet.Proofs.Formula.Regular

/-!
# Calls in Regular Formulas

Where a call is taken apart, and that nothing is lost there.

The walk over parentheses keeps its own count of quotes: it knows whether a
quoted text is open at the place it has reached. In a text without backslashes
this is the parity of the quotes passed (`run_quoted`), so wherever the walk
finds a closing parenthesis or a comma that counts, an even number of quotes lies
behind it. These are places where a tidy text may be cut, and so the arguments of
a call are within whatever the call is within.

## Main definitions

* `Nesting.run`: The walk past several characters.

## Theorems

* `Nesting.run_quoted`: The walk counts the quotes.
* `Nesting.closing?_eq_some`: What lies before the parenthesis that is found.
* `Call.start?_eq_some`, `Call.whole?_eq_some`: What a call looks like.
* `Within.call`: A call and what follows it, within a list.
* `Within.arguments`: The arguments of a call are within.
-/

namespace Spreadsheet

open Mention StringLiteral

namespace Nesting

/-- The walk past several characters. -/
def run (s : Nesting) (cs : List Char) : Nesting := cs.foldl step s

theorem run_cons (s : Nesting) (c : Char) (cs : List Char) :
    s.run (c :: cs) = (s.step c).run cs := rfl

/-- Past a character that is no backslash, nothing is escaped, and a quote changes
    whether a quoted text is open. -/
theorem step_quoted {s : Nesting} {c : Char} (hs : s.escaped = false) (hc : c ≠ '\\') :
    (s.step c).escaped = false ∧ (s.step c).quoted = (s.quoted ^^ c == '"') := by
  by_cases hq : c = '"'
  · have hstep : s.step c = ⟨false, !s.quoted, s.depth⟩ := by
      rw [step, if_pos]
      exact ⟨hq, by rw [hs]; rfl⟩
    rw [hstep, hq]
    exact ⟨rfl, by cases s.quoted <;> rfl⟩
  · have hbeq : (c == '"') = false := beq_eq_false_iff_ne.mpr hq
    rw [hbeq, Bool.xor_false, step, if_neg (fun h => hq h.1), decide_eq_false hc]
    cases hquoted : s.quoted with
    | true => exact ⟨rfl, rfl⟩
    | false =>
        simp only [Bool.false_eq_true, if_false]
        split
        · exact ⟨rfl, rfl⟩
        · split
          · exact ⟨rfl, rfl⟩
          · exact ⟨rfl, rfl⟩

/-- The walk past a text without backslashes counts its quotes. -/
theorem run_quoted {s : Nesting} {cs : List Char} (hs : s.escaped = false) (hcs : '\\' ∉ cs) :
    (s.run cs).escaped = false ∧ (s.run cs).quoted = (s.quoted ^^ isOpen cs) := by
  induction cs generalizing s with
  | nil =>
      refine ⟨hs, ?_⟩
      rw [show isOpen [] = false from rfl, Bool.xor_false]
      rfl
  | cons c cs ih =>
      rw [List.mem_cons, not_or] at hcs
      rcases step_quoted hs (fun hc => hcs.1 hc.symm) with ⟨hesc, hquoted⟩
      rw [run_cons]
      refine ⟨(ih hesc hcs.2).1, ?_⟩
      rw [(ih hesc hcs.2).2, hquoted, isOpen_cons, Bool.xor_assoc, Bool.xor_comm (c == '"')]

/-- Past a character that is not escaped, quoted or a parenthesis, the walk is where
    it was. -/
theorem step_plain {s : Nesting} {c : Char} (hquoted : s.quoted = false) (hquote : c ≠ '"')
    (opening : c ≠ '(') (closing : c ≠ ')') :
    (s.step c).quoted = false ∧ (s.step c).depth = s.depth := by
  unfold step
  rw [if_neg (fun h => hquote h.1), hquoted, if_neg Bool.false_ne_true, if_neg opening,
    if_neg closing]
  exact ⟨rfl, rfl⟩

theorem step_opening {s : Nesting} (hquoted : s.quoted = false) :
    s.step '(' = ⟨false, false, s.depth + 1⟩ := by
  unfold step
  rw [if_neg (fun h => absurd h.1 (by decide)), hquoted, if_neg Bool.false_ne_true, if_pos rfl]

theorem step_closing {s : Nesting} (hquoted : s.quoted = false) :
    s.step ')' = ⟨false, false, s.depth - 1⟩ := by
  unfold step
  rw [if_neg (fun h => absurd h.1 (by decide)), hquoted, if_neg Bool.false_ne_true,
    if_neg (by decide), if_pos rfl]

theorem closing?_cons {s : Nesting} {c : Char} (rest : List Char) (h : (s.step c).depth ≠ 0) :
    s.closing? (c :: rest) = ((s.step c).closing? rest).map (· + 1) := by
  rw [closing?]
  exact if_neg h

/-- Only a closing parenthesis outside a quoted text brings the depth to zero. -/
theorem of_step_depth_eq_zero {s : Nesting} {c : Char} (hs : 0 < s.depth)
    (h : (s.step c).depth = 0) : c = ')' ∧ s.quoted = false ∧ s.depth = 1 := by
  -- Of the characters that count, only a closing parenthesis takes the depth down.
  rw [step] at h
  split at h
  · simp only at h
    omega
  · split at h
    · simp only at h
      omega
    · rename_i hquoted
      rw [Bool.not_eq_true] at hquoted
      split at h
      · simp only at h
        omega
      · split at h
        · rename_i hc
          simp only at h
          exact ⟨hc, hquoted, by omega⟩
        · simp only at h
          omega

theorem step_depth_nonneg {s : Nesting} {c : Char} (hs : 0 < s.depth) :
    0 ≤ (s.step c).depth := by
  rw [step]
  split
  · simp only
    omega
  · split
    · simp only
      omega
    · split
      · simp only
        omega
      · split
        · simp only
          omega
        · simp only
          omega

/-- The parenthesis that is found stands outside all quoted texts, at the last
    level that is open. -/
theorem closing?_eq_some {s : Nesting} {cs : List Char} {n : Nat} (hs : 0 < s.depth)
    (h : closing? s cs = some n) :
    ∃ a b, cs = a ++ ')' :: b ∧ a.length = n ∧ (s.run a).quoted = false ∧
      (s.run a).depth = 1 := by
  induction cs generalizing s n with
  | nil => cases h
  | cons c cs ih =>
      rw [closing?] at h
      by_cases hzero : (s.step c).depth = 0
      · rw [if_pos hzero, Option.some.injEq] at h
        -- The character closes the last level, so it is a parenthesis outside of quotes.
        rcases of_step_depth_eq_zero hs hzero with ⟨rfl, hquoted, hdepth⟩
        exact ⟨[], cs, rfl, h, hquoted, hdepth⟩
      · rw [if_neg hzero, Option.map_eq_some_iff] at h
        rcases h with ⟨k, hk, rfl⟩
        have hpos : 0 < (s.step c).depth := by
          have := step_depth_nonneg (c := c) hs
          omega
        rcases ih hpos hk with ⟨a, b, rfl, hlen, hquoted, hdepth⟩
        exact ⟨c :: a, b, rfl, by rw [List.length_cons, hlen], hquoted, hdepth⟩

/-- What stands behind the parenthesis that is found does not matter. -/
theorem closing?_take {s : Nesting} {cs : List Char} {n : Nat} (h : closing? s cs = some n) :
    closing? s (cs.take (n + 1)) = some n := by
  induction cs generalizing s n with
  | nil => cases h
  | cons c cs ih =>
      rw [closing?] at h
      rw [List.take_succ_cons, closing?]
      by_cases hzero : (s.step c).depth = 0
      · rw [if_pos hzero] at h ⊢
        exact h
      · rw [if_neg hzero, Option.map_eq_some_iff] at h
        rcases h with ⟨k, hk, rfl⟩
        rw [if_neg hzero, ih hk]
        rfl

end Nesting

namespace Call

/-- What starts like a call is a name and a parenthesis. -/
theorem start?_eq_some {cs name rest : List Char} (h : start? cs = some (name, rest)) :
    cs = name ++ '(' :: rest ∧ name ≠ [] ∧ ∀ c ∈ name, Column.isLetter c = true := by
  rcases Text.exists_stop Column.isLetter cs with ⟨letters, after, rfl, hl, hafter⟩
  rw [start?] at h
  simp only [(Text.span_of_stop hl hafter).1, (Text.span_of_stop hl hafter).2] at h
  split at h
  · rename_i rest'
    by_cases hempty : letters.isEmpty = true
    · rw [if_pos hempty] at h
      cases h
    · rw [if_neg hempty, Option.some.injEq, Prod.mk.injEq] at h
      rw [List.isEmpty_iff] at hempty
      rw [← h.1, ← h.2]
      exact ⟨rfl, hempty, hl⟩
  · cases h

/-- A name in front of a parenthesis starts like a call. -/
theorem start?_of_name {name : List Char} (rest : List Char) (hne : name ≠ [])
    (hname : ∀ c ∈ name, Column.isLetter c = true) :
    start? (name ++ '(' :: rest) = some (name, rest) := by
  have hstop : Text.StopsAt Column.isLetter ('(' :: rest) := Text.StopsAt.cons rest (by decide)
  rw [start?]
  simp only [(Text.span_of_stop hname hstop).1, (Text.span_of_stop hname hstop).2]
  rw [if_neg]
  rw [List.isEmpty_iff]
  exact hne

/-- A text that is one call ends with the parenthesis that closes it. -/
theorem whole?_eq_some {cs name args : List Char} (h : whole? cs = some (name, args)) :
    cs = name ++ '(' :: (args ++ [')']) ∧ name ≠ [] ∧ (∀ c ∈ name, Column.isLetter c = true) ∧
      (Nesting.run { depth := 1 } args).quoted = false := by
  rw [whole?] at h
  cases hstart : start? cs with
  | none =>
      rw [hstart] at h
      cases h
  | some p =>
      rcases p with ⟨name', rest⟩
      rw [hstart] at h
      simp only at h
      rcases start?_eq_some hstart with ⟨rfl, hne, hname⟩
      cases hclose : Nesting.matching? rest with
      | none =>
          rw [hclose] at h
          cases h
      | some n =>
          rw [hclose] at h
          simp only at h
          by_cases hlast : n + 1 = rest.length
          · -- Nothing is left behind the parenthesis that was found.
            rw [if_pos hlast, Option.some.injEq, Prod.mk.injEq] at h
            rcases Nesting.closing?_eq_some (by decide) hclose with ⟨a, b, rfl, hlen, hquoted, _⟩
            have hb : b = [] := by
              rw [List.length_append, List.length_cons] at hlast
              exact List.eq_nil_of_length_eq_zero (by omega)
            rw [← hlen, List.take_left] at h
            rw [← h.1, ← h.2, hb]
            exact ⟨rfl, hne, hname, hquoted⟩
          · rw [if_neg hlast] at h
            cases h

end Call

namespace Within

variable {ms : List Mention}

theorem count_name {name : List Char} (h : ∀ c ∈ name, Column.isLetter c = true) :
    name.count '"' = 0 :=
  List.count_eq_zero.mpr (fun hq => absurd (h _ hq) (by decide))

/-- A call within a list: so are the call itself, its arguments and what follows. -/
theorem call {name args rest : List Char} (h : Within ms (name ++ '(' :: (args ++ ')' :: rest)))
    (hname : ∀ c ∈ name, Column.isLetter c = true)
    (hargs : (Nesting.run { depth := 1 } args).quoted = false) :
    Within ms (name ++ '(' :: (args ++ [')'])) ∧ Within ms args ∧ Within ms rest := by
  have hescape : '\\' ∉ args := fun hm =>
    h.tidy.escape (List.mem_append_right _ (List.mem_cons_of_mem _ (List.mem_append_left _ hm)))
  have heven : args.count '"' % 2 = 0 := by
    have := (Nesting.run_quoted (s := { depth := 1 }) rfl hescape).2
    rw [hargs, Bool.false_xor] at this
    exact isOpen_eq_false_iff.mp this.symm
  have hinner := (h.split (by rw [count_name hname]) (by decide) (by decide)).2
  have hsplit := hinner.split heven (by decide) (by decide)
  -- The text of the call is the whole text up to a cut behind the parenthesis.
  have hcut : (name ++ '(' :: args).count '"' % 2 = 0 := by
    rw [List.count_append, count_name hname, List.count_cons_of_ne (by decide)]
    omega
  have heq : name ++ '(' :: (args ++ ')' :: rest) = (name ++ '(' :: args) ++ ')' :: rest := by
    rw [List.append_assoc, List.cons_append]
  have heq' : name ++ '(' :: (args ++ [')']) = (name ++ '(' :: args) ++ [')'] := by
    rw [List.append_assoc, List.cons_append]
  rw [heq] at h
  have hclosed : (name ++ '(' :: args ++ [')']).count '"' % 2 = 0 := by
    rw [List.count_append, List.count_cons_of_ne (by decide), List.count_nil]
    omega
  have htidy : Tidy (name ++ '(' :: args ++ [')']) := by
    refine Tidy.left (b := rest) ?_ hclosed
    rw [List.append_assoc, List.singleton_append]
    exact h.tidy
  refine ⟨⟨by rw [heq']; exact htidy, fun m hm => ?_⟩, hsplit.1, hsplit.2⟩
  rw [heq', htidy.mentionsIn_split hcut (by decide) (by decide)] at hm
  refine (h.split hcut (by decide) (by decide)).1.mem m ?_
  rcases List.mem_append.mp hm with hm | hm
  · exact hm
  · cases hm

theorem argumentsFrom {s : Nesting} {current rest : List Char}
    (h : Within ms (current.reverse ++ rest)) (hesc : s.escaped = false)
    (hquoted : s.quoted = isOpen current) :
    ∀ arg ∈ Call.argumentsFrom s current rest, Within ms arg := by
  induction rest generalizing s current with
  | nil =>
      intro arg harg
      rw [List.append_nil] at h
      rw [Call.argumentsFrom] at harg
      split at harg
      · cases harg
      · rw [List.mem_singleton] at harg
        rw [harg]
        exact h.trim
  | cons c rest ih =>
      intro arg harg
      have hc : c ≠ '\\' := fun hc => h.tidy.escape (by rw [hc]; simp only [List.mem_append,
        List.mem_cons, true_or, or_true])
      rcases Nesting.step_quoted hesc hc with ⟨hesc', hquoted'⟩
      rw [Call.argumentsFrom] at harg
      by_cases hcomma : c = ',' ∧ !s.quoted ∧ s.depth = 0
      · -- A comma that counts stands outside all quoted texts, where the text may be cut.
        rw [if_pos hcomma, List.mem_cons] at harg
        rcases hcomma with ⟨rfl, hopen, _⟩
        rw [Bool.not_eq_true'] at hopen
        have heven : current.reverse.count '"' % 2 = 0 := by
          rw [List.count_reverse]
          rw [hopen] at hquoted
          exact isOpen_eq_false_iff.mp hquoted.symm
        rcases h.split heven (by decide) (by decide) with ⟨hleft, hright⟩
        rcases harg with rfl | harg
        · exact hleft.trim
        · refine ih (show Within ms ([].reverse ++ rest) from hright) hesc' ?_ arg harg
          rw [hquoted', hopen]
          rfl
      · rw [if_neg hcomma] at harg
        refine ih ?_ hesc' ?_ arg harg
        · rw [List.reverse_cons, List.append_assoc, List.singleton_append]
          exact h
        · rw [hquoted', hquoted, isOpen_cons]

/-- The arguments of a call are within whatever their text is within. -/
theorem arguments {cs : List Char} (h : Within ms cs) : ∀ arg ∈ Call.arguments cs, Within ms arg :=
  argumentsFrom (show Within ms ([].reverse ++ cs) from h) rfl rfl

end Within

end Spreadsheet
