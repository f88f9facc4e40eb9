import Spreadsheet.Proofs.Formula.Form

/-!
# Lengths of Parts

What is evaluated on the way to the value of a formula is shorter than the formula.

The parts of an expression are cut out of its text: the arguments of a call lie
between its parentheses, and a call among the pieces of arithmetic is some of its
characters. It is not all of them, since a text that is one call was not read as
arithmetic. So a bound on the length of a formula is one on all that is evaluated
for it, at any depth, and on the number of arguments of every call.

## Theorems

* `Call.length_arguments_le`: How many arguments there can be.
* `Piece.length_lt_of_mem_scan`: A call among the pieces is not the whole text.
* `Form.length_lt_of_mem_parts`: Every part is shorter than the whole.
-/

namespace Spreadsheet

namespace Call

/-- Each comma begins one more argument. -/
theorem length_argumentsFrom_le (s : Nesting) (current rest : List Char) :
    (argumentsFrom s current rest).length ≤ rest.length + 1 := by
  induction rest generalizing s current with
  | nil =>
      rw [argumentsFrom]
      split
      · exact Nat.zero_le _
      · exact Nat.le_refl _
  | cons c rest ih =>
      rw [argumentsFrom]
      split
      · exact Nat.succ_le_succ (ih _ _)
      · exact (ih _ _).trans (Nat.le_succ _)

theorem length_arguments_le (cs : List Char) : (arguments cs).length ≤ cs.length + 1 :=
  length_argumentsFrom_le _ _ cs

theorem length_trim_reverse_le (cs : List Char) : (Text.trim cs.reverse).length ≤ cs.length :=
  (Text.length_trim_le _).trans_eq List.length_reverse

theorem length_le_of_mem_argumentsFrom {s : Nesting} {current rest arg : List Char}
    (h : arg ∈ argumentsFrom s current rest) : arg.length ≤ current.length + rest.length := by
  induction rest generalizing s current with
  | nil =>
      rw [argumentsFrom] at h
      split at h
      · cases h
      · rw [List.mem_singleton.mp h]
        exact length_trim_reverse_le current
  | cons c rest ih =>
      rw [argumentsFrom] at h
      rw [List.length_cons]
      split at h
      · rcases List.mem_cons.mp h with rfl | h
        · exact (length_trim_reverse_le current).trans (Nat.le_add_right _ _)
        · have hrest := ih h
          rw [List.length_nil] at hrest
          omega
      · have hrest := ih h
        rw [List.length_cons] at hrest
        omega

/-- No argument is longer than the text between the parentheses. -/
theorem length_le_of_mem_arguments {cs arg : List Char} (h : arg ∈ arguments cs) :
    arg.length ≤ cs.length :=
  (length_le_of_mem_argumentsFrom h).trans_eq (Nat.zero_add _)

/-- What lies between the parentheses of a call is shorter than the call. -/
theorem length_lt_of_whole? {cs name args : List Char} (h : whole? cs = some (name, args)) :
    args.length < cs.length := by
  rw [(whole?_eq_some h).1, List.length_append, List.length_cons, List.length_append]
  omega

end Call

namespace Piece

/-- A text is a call if the call at its start takes up all of it. -/
theorem exists_whole?_of_start? {cs : List Char} (h : start? cs = some (.call cs.length)) :
    ∃ name args, Call.whole? cs = some (name, args) := by
  rw [start?] at h
  split at h
  · rename_i name rest hcall
    split at h
    · rename_i n hclose
      have hlength : name.length + 1 + n + 1 = cs.length := Start.call.inj (Option.some.inj h)
      rw [(Call.start?_eq_some hcall).1, List.length_append, List.length_cons] at hlength
      refine ⟨name, rest.take n, ?_⟩
      rw [Call.whole?, hcall]
      simp only [hclose]
      rw [if_pos (by omega)]
    · cases h
  · rcases Option.map_eq_some_iff.mp h with ⟨_, _, hcell⟩
    cases hcell

/-- A call among the pieces of a text that is no call is shorter than the text. It can
    start with the text, but then it ends before. -/
theorem length_lt_of_mem_scan {cs text : List Char} (hwhole : Call.whole? cs = none)
    (h : call text ∈ scan cs) : text.length < cs.length := by
  cases isFoundIn_of_mem_scan h with
  | @call rest n hsuffix hstart =>
      have hlength := length_of_start?_call hstart
      have hle := hsuffix.length_le
      rw [List.length_take, Nat.min_eq_left hlength.2]
      refine lt_of_le_of_ne (hlength.2.trans hle) fun heq => ?_
      have hrest : rest = cs := hsuffix.eq_of_length (by omega)
      rw [hrest, heq] at hstart
      rcases exists_whole?_of_start? hstart with ⟨name, args, hsome⟩
      rw [hwhole] at hsome
      cases hsome

end Piece

namespace Form

/-- Every part is shorter than the whole. -/
theorem length_lt_of_mem_parts {cs part : List Char} (h : part ∈ (ofTrimmed cs).parts) :
    part.length < cs.length := by
  rcases cases_of_mem_parts h with ⟨name, args, hwhole, harg⟩ | ⟨hwhole, hpiece⟩
  · exact (Call.length_le_of_mem_arguments harg).trans_lt (Call.length_lt_of_whole? hwhole)
  · exact Piece.length_lt_of_mem_scan hwhole hpiece

end Form

end Spreadsheet
