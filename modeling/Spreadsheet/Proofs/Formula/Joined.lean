import Spreadsheet.Proofs.Formula.Form

/-!
# Joined Arguments

The arguments of a call, put together with commas and taken apart again.

A text can be one argument of a call if a reader who goes through it alone comes to its
end outside all quoted texts and parentheses, and meets no comma on the way that is not
inside one of them. What a backslash does to the quote behind it belongs to this, and
so do backslashes outside of quoted texts.

The reader of a call goes through the same characters at another depth, and with more
behind them. As long as it is inside an argument (`Inside`) it cannot go below the depth
at which the argument began, so it passes over the whole argument: the one that looks
for the closing parenthesis does not find it there (`Inside.closing?_append`), and the
one that looks for commas keeps what it passes (`Inside.argumentsFrom_append`). A comma
behind the argument leaves no trace, whatever the argument ended with, so the next one
is read as if it were the first.

## Main definitions

* `Call.isArgument`: A text that can be one argument of a call.
* `Call.join`: Arguments with commas between them.
* `Call.text`: The text of a call.
* `Nesting.Inside`: The walk has reached a place inside an argument.

## Theorems

* `Nesting.Inside.step`: The walk stays inside an argument, and meets no comma.
* `Call.arguments_join`: Joined arguments are taken apart again.
* `Call.whole?_text`: A call with joined arguments is a whole call.
-/

namespace Spreadsheet

namespace Call

/-- Whether the rest of a text can be the rest of one argument. The place that was reached
    is known by whether a backslash stands in front of it, whether a quoted text is open,
    and how many parentheses are. -/
def isArgumentFrom : Bool → Bool → Nat → List Char → Bool
  | _, quoted, depth, [] => !quoted && depth == 0
  | backslash, quoted, depth, c :: cs =>
    if c = '"' ∧ !backslash then isArgumentFrom false (!quoted) depth cs
    else if quoted then isArgumentFrom (c = '\\') true depth cs
    else if c = '(' then isArgumentFrom false false (depth + 1) cs
    else if c = ')' then depth ≠ 0 && isArgumentFrom false false (depth - 1) cs
    else if c = ',' then depth ≠ 0 && isArgumentFrom false false depth cs
    else isArgumentFrom (c = '\\') false depth cs

/-- Whether a text can be one argument of a call: its quotes are closed, its parentheses
    match, and every comma stands inside some of them. -/
def isArgument (cs : List Char) : Bool := isArgumentFrom false false 0 cs

/-- Arguments with commas between them. -/
def join (args : List (List Char)) : List Char := List.intercalate [','] args

/-- The text of a call. -/
def text (name : List Char) (args : List (List Char)) : List Char :=
  name ++ '(' :: (join args ++ [')'])

theorem join_cons_cons (a b : List Char) (args : List (List Char)) :
    join (a :: b :: args) = a ++ ',' :: join (b :: args) := by
  unfold join
  rw [List.intercalate_cons_cons, List.append_assoc, List.singleton_append]

end Call

namespace Nesting

/-- Past a comma outside a quoted text, the walk is where it began, but for the depth. -/
theorem step_comma {s : Nesting} (hquoted : s.quoted = false) :
    s.step ',' = ⟨false, false, s.depth⟩ := by
  unfold step
  rw [if_neg (fun h => absurd h.1 (by decide)), hquoted, if_neg Bool.false_ne_true,
    if_neg (by decide), if_neg (by decide)]
  rfl

/-- The walk has reached a place inside an argument, which began at the depth `base` and
    goes on with `cs`. -/
def Inside (base : Int) (s : Nesting) (cs : List Char) : Prop :=
  ∃ depth : Nat, s.depth = base + depth ∧
    Call.isArgumentFrom s.escaped s.quoted depth cs = true

namespace Inside

variable {base : Int} {s : Nesting} {cs : List Char}

/-- An argument is read at any depth. -/
theorem of_isArgument (h : Call.isArgument cs = true) (base : Int) :
    Inside base ⟨false, false, base⟩ cs :=
  ⟨0, (Int.add_zero base).symm, h⟩

theorem le_depth (h : Inside base s cs) : base ≤ s.depth := by
  rcases h with ⟨depth, hdepth, _⟩
  omega

/-- At the end of an argument, everything that was opened inside it is closed. -/
theorem nil (h : Inside base s []) : s.quoted = false ∧ s.depth = base := by
  rcases h with ⟨depth, hdepth, hrest⟩
  rw [Call.isArgumentFrom, Bool.and_eq_true, Bool.not_eq_true', beq_iff_eq] at hrest
  exact ⟨hrest.1, by omega⟩

/-- The walk stays inside the argument, and a comma stands deeper in it or in a quoted
    text. -/
theorem step {c : Char} (h : Inside base s (c :: cs)) :
    Inside base (s.step c) cs ∧ (c = ',' → s.quoted = false → base < s.depth) := by
  rcases h with ⟨depth, hdepth, hrest⟩
  rw [Call.isArgumentFrom] at hrest
  unfold Inside Nesting.step
  by_cases hquote : c = '"' ∧ !s.escaped
  · rw [if_pos hquote] at hrest ⊢
    exact ⟨⟨depth, hdepth, hrest⟩, fun hc => absurd (hquote.1.symm.trans hc) (by decide)⟩
  rw [if_neg hquote] at hrest ⊢
  by_cases hquoted : s.quoted = true
  · rw [if_pos hquoted] at hrest ⊢
    exact ⟨⟨depth, hdepth, hrest⟩, fun _ hclosed => by rw [hquoted] at hclosed; cases hclosed⟩
  rw [if_neg hquoted] at hrest ⊢
  -- Outside of quoted texts, a parenthesis changes the depth within the argument too.
  by_cases hopen : c = '('
  · rw [if_pos hopen] at hrest ⊢
    exact ⟨⟨depth + 1, by simp only; omega, hrest⟩,
      fun hc => absurd (hopen.symm.trans hc) (by decide)⟩
  rw [if_neg hopen] at hrest ⊢
  by_cases hclose : c = ')'
  · rw [if_pos hclose, Bool.and_eq_true, decide_eq_true_eq] at hrest
    rw [if_pos hclose]
    exact ⟨⟨depth - 1, by simp only; omega, hrest.2⟩,
      fun hc => absurd (hclose.symm.trans hc) (by decide)⟩
  rw [if_neg hclose] at hrest ⊢
  by_cases hcomma : c = ','
  · rw [if_pos hcomma, Bool.and_eq_true, decide_eq_true_eq] at hrest
    rw [show decide (c = '\\') = false by rw [hcomma]; rfl]
    exact ⟨⟨depth, hdepth, hrest.2⟩, fun _ _ => by omega⟩
  · rw [if_neg hcomma] at hrest
    exact ⟨⟨depth, hdepth, hrest⟩, fun hc => absurd hc hcomma⟩

/-- Past the front of an argument the walk is inside the rest of it. -/
theorem run_append {front tail : List Char} (h : Inside base s (front ++ tail)) :
    Inside base (s.run front) tail := by
  induction front generalizing s with
  | nil => exact h
  | cons c front ih => exact ih h.step.1

/-- A whole argument, with nothing left behind it. -/
theorem whole {a : List Char} (h : Call.isArgument a = true) (base : Int) :
    Inside base ⟨false, false, base⟩ (a ++ []) := by
  rw [List.append_nil]
  exact of_isArgument h base

/-- Behind an argument, everything that was opened inside it is closed. -/
theorem run_of_isArgument {a : List Char} (h : Call.isArgument a = true) (base : Int) :
    (run ⟨false, false, base⟩ a).quoted = false ∧ (run ⟨false, false, base⟩ a).depth = base :=
  (whole h base).run_append.nil

/-- Behind the comma that follows an argument, the walk is where the argument began. -/
theorem step_comma_of_isArgument {a : List Char} (h : Call.isArgument a = true) (base : Int) :
    (run ⟨false, false, base⟩ a).step ',' = ⟨false, false, base⟩ := by
  rcases run_of_isArgument h base with ⟨hquoted, hdepth⟩
  rw [step_comma hquoted, hdepth]

/-- No parenthesis inside an argument closes the call. -/
theorem closing?_append {front tail : List Char} (h : Inside base s (front ++ tail))
    (hbase : 0 < base) (rest : List Char) :
    s.closing? (front ++ rest) = ((s.run front).closing? rest).map (· + front.length) := by
  induction front generalizing s with
  | nil => exact Option.map_id'.symm
  | cons c front ih =>
      -- The depth stays above zero, so the search goes on behind every character.
      have hstep := h.step.1
      have hdepth := hstep.le_depth
      rw [List.cons_append, closing?_cons _ (by omega), ih hstep, Option.map_map, run_cons]
      rfl

/-- No comma inside an argument ends it. -/
theorem argumentsFrom_append {front tail : List Char} (h : Inside 0 s (front ++ tail))
    (current rest : List Char) :
    Call.argumentsFrom s current (front ++ rest)
      = Call.argumentsFrom (s.run front) (front.reverse ++ current) rest := by
  induction front generalizing s current with
  | nil => rfl
  | cons c front ih =>
      have hcomma : ¬ (c = ',' ∧ !s.quoted ∧ s.depth = 0) := by
        rintro ⟨hc, hquoted, hdepth⟩
        have := h.step.2 hc (by simpa using hquoted)
        omega
      rw [List.cons_append, Call.argumentsFrom, if_neg hcomma, ih h.step.1, run_cons,
        List.reverse_cons, List.append_assoc, List.singleton_append]

end Inside

end Nesting

namespace Call

variable {args : List (List Char)}

/-- Behind the comma that follows an argument, the search for the parenthesis begins
    again. -/
theorem closing?_join_cons {a : List Char} (ha : isArgument a = true) (b : List Char)
    (args : List (List Char)) (rest : List Char) :
    Nesting.closing? { depth := 1 } (join (a :: b :: args) ++ rest)
      = (Nesting.closing? { depth := 1 } (join (b :: args) ++ rest)).map (· + (a.length + 1)) := by
  have hcomma := Nesting.Inside.step_comma_of_isArgument ha 1
  rw [join_cons_cons, List.append_assoc, List.cons_append,
    (Nesting.Inside.whole ha 1).closing?_append (by decide),
    Nesting.closing?_cons _ (by rw [hcomma]; decide), hcomma, Option.map_map]
  congr 1
  funext n
  simp only [Function.comp_apply]
  omega

/-- Behind the comma that follows an argument, the search for arguments begins again. -/
theorem arguments_join_cons {a : List Char} (ha : isArgument a = true) (htrim : Text.trim a = a)
    (b : List Char) (args : List (List Char)) :
    arguments (join (a :: b :: args)) = a :: arguments (join (b :: args)) := by
  rcases Nesting.Inside.run_of_isArgument ha 0 with ⟨hquoted, hdepth⟩
  unfold arguments
  rw [join_cons_cons, (Nesting.Inside.whole ha 0).argumentsFrom_append, List.append_nil,
    argumentsFrom, if_pos ⟨rfl, by rw [hquoted]; rfl, hdepth⟩, List.reverse_reverse, htrim,
    Nesting.Inside.step_comma_of_isArgument ha 0]

/-- What is passed to the end is one argument, unless it is blank. -/
theorem arguments_of_append {a tail : List Char} (ha : isArgument (a ++ tail) = true)
    (htrim : Text.trim a = a) (hne : a ≠ []) : arguments a = [a] := by
  have happend := (Nesting.Inside.of_isArgument ha 0).argumentsFrom_append [] []
  rw [List.append_nil, List.append_nil] at happend
  rw [arguments, happend, argumentsFrom, List.reverse_reverse, htrim,
    if_neg (by rwa [List.isEmpty_iff])]

/-- The parenthesis behind joined arguments is the one that closes the call. -/
theorem closing?_join (hargs : ∀ a ∈ args, isArgument a = true) (rest : List Char) :
    Nesting.closing? { depth := 1 } (join args ++ ')' :: rest) = some (join args).length := by
  induction args with
  | nil => rfl
  | cons a args ih =>
      have ha := hargs a List.mem_cons_self
      cases args with
      | nil =>
          rcases Nesting.Inside.run_of_isArgument ha 1 with ⟨hquoted, hdepth⟩
          rw [join, List.intercalate_singleton,
            (Nesting.Inside.whole ha 1).closing?_append (by decide),
            Nesting.closing?, Nesting.step_closing hquoted, hdepth]
          simp only [Int.sub_self, if_true, Option.map_some, Nat.zero_add]
      | cons b args =>
          rw [closing?_join_cons ha, ih fun a ha => hargs a (List.mem_cons_of_mem _ ha),
            join_cons_cons, Option.map_some, List.length_append, List.length_cons]
          congr 1
          omega

/-- Joined arguments are taken apart again. Only a last argument that is empty would be
    lost. -/
theorem arguments_join (hargs : ∀ a ∈ args, isArgument a = true)
    (htrim : ∀ a ∈ args, Text.trim a = a) (hlast : args.getLast? ≠ some []) :
    arguments (join args) = args := by
  induction args with
  | nil => rfl
  | cons a args ih =>
      have ha := hargs a List.mem_cons_self
      have hatrim := htrim a List.mem_cons_self
      cases args with
      | nil =>
          rw [← List.append_nil a] at ha
          rw [join, List.intercalate_singleton]
          exact arguments_of_append ha hatrim fun hnil => hlast (by rw [hnil]; rfl)
      | cons b args =>
          rw [arguments_join_cons ha hatrim, ih (fun a ha => hargs a (List.mem_cons_of_mem _ ha))
            (fun a ha => htrim a (List.mem_cons_of_mem _ ha)) hlast]

/-- A call with joined arguments is a whole call. -/
theorem whole?_text {name : List Char} (hne : name ≠ [])
    (hname : ∀ c ∈ name, Column.isLetter c = true) (hargs : ∀ a ∈ args, isArgument a = true) :
    whole? (text name args) = some (name, join args) := by
  unfold whole? text Nesting.matching?
  rw [start?_of_name _ hne hname]
  simp only [closing?_join hargs []]
  rw [List.length_append, List.length_singleton, if_pos rfl, List.take_left]

end Call

end Spreadsheet
