import Spreadsheet.Formula.Mention
import Spreadsheet.Proofs.Text.Run

/-!
# Mentions in Parts of a Text

Where a text can be cut without cutting a mention.

Mentions are found by reading as far as letters and digits go, so whether one
starts at a place depends only on the run of letters, digits and colons there.
A cut with some other character on one of its sides therefore cuts no mention,
and the mentions of the text are those of the two parts, in order. Brackets,
commas and blanks are such characters, and these are where an expression is cut
into its parts.

`scanFrom` counts characters to skip. `scan_of_some` and `scan_of_none` restate
it without the count, as a walk from one mention to the next, which is the form
every later argument uses.

## Main definitions

* `isPart`: The characters that a mention is made of.
* `Apart`: No mention can reach across a cut.
* `IsName`: The shape of the name of a cell.
* `Names`: A mention names a cell, alone or as an end of a range.

## Theorems

* `isName_of_name?`, `name?_of_isName`: What is read as a name is what has the
  shape of one, up to where the digits end.
* `name?_append`, `atStart?_append`: What starts at a place is decided before
  the cut.
* `atStart?_takeWhile`: Only the run of mention characters matters.
* `atStart?_cases`: What a mention at the start of a text looks like.
* `scan_of_some`, `scan_of_none`: The walk without a count.
* `scan_append`: The mentions on the two sides of a cut.
-/

namespace Spreadsheet

namespace Mention

/-- Whether a character can stand in a mention. -/
def isPart (c : Char) : Bool := Column.isLetter c || Text.isDigit c || c == ':'

theorem isPart_of_isLetter {c : Char} (h : Column.isLetter c = true) : isPart c = true := by
  rw [isPart, h, Bool.true_or, Bool.true_or]

theorem isPart_of_isDigit {c : Char} (h : Text.isDigit c = true) : isPart c = true := by
  rw [isPart, h, Bool.or_true, Bool.true_or]

theorem isPart_of_isBlank {c : Char} (h : Text.isBlank c = true) : isPart c = false := by
  rw [isPart, Text.isLetter_of_isBlank h, Text.isDigit_of_isBlank h, Bool.false_or, Bool.false_or,
    beq_eq_false_iff_ne]
  intro hc
  rw [hc] at h
  exact absurd h (by decide)

/-- Letters, digits and colons have no blanks around them. -/
theorem trim_of_isPart {cs : List Char} (h : ∀ c ∈ cs, isPart c = true) : Text.trim cs = cs := by
  refine Text.trim_eq_self fun c hc => ?_
  cases hblank : Text.isBlank c with
  | false => rfl
  | true => exact absurd (h c hc) (by rw [isPart_of_isBlank hblank]; decide)

/-- No mention can reach across the cut between two texts: the character on one
    side of it stands in no mention. -/
def Apart (a b : List Char) : Prop :=
  Text.StopsAt isPart b ∨ ∃ c ∈ a.getLast?, isPart c = false

namespace Apart

theorem cons_right (a : List Char) {c : Char} (b : List Char) (h : isPart c = false) :
    Apart a (c :: b) :=
  Or.inl (Text.StopsAt.cons b h)

/-- A cut stays where it is when mention characters are taken off in front. -/
theorem of_append {x a b : List Char} (h : Apart (x ++ a) b) (hx : ∀ c ∈ x, isPart c = true) :
    Apart a b := by
  rcases h with h | ⟨c, hc, hpart⟩
  · exact Or.inl h
  · refine Or.inr ⟨c, ?_, hpart⟩
    rw [List.getLast?_append] at hc
    cases ha : a.getLast? with
    | some d => rwa [ha, Option.some_or] at hc
    | none =>
        -- The last character would be one of those taken off.
        rw [ha, Option.none_or] at hc
        rw [hx c (List.mem_of_getLast? hc)] at hpart
        exact absurd hpart.symm Bool.false_ne_true

/-- A cut stays where it is when a character is taken off in front, unless it was
    the only one. -/
theorem of_cons {c : Char} {a b : List Char} (h : Apart (c :: a) b) : a = [] ∨ Apart a b := by
  rcases h with h | ⟨d, hd, hpart⟩
  · exact Or.inr (Or.inl h)
  · cases a with
    | nil => exact Or.inl rfl
    | cons e a => exact Or.inr (Or.inr ⟨d, by rwa [List.getLast?_cons_cons] at hd, hpart⟩)

end Apart

/-- A run of mention characters that starts before a cut ends before it. -/
theorem span_append {p : Char → Bool} (hp : ∀ c, p c = true → isPart c = true)
    {a b : List Char} (h : Apart a b) :
    (a ++ b).takeWhile p = a.takeWhile p ∧ (a ++ b).dropWhile p = a.dropWhile p ++ b := by
  rcases Text.exists_stop p a with ⟨run, rest, rfl, hrun, hrest⟩
  have hstop : Text.StopsAt p (rest ++ b) := by
    cases rest with
    | cons c rest => exact Text.StopsAt.append (List.cons_ne_nil c rest) hrest b
    | nil =>
        -- The run goes up to the cut, so it is the other side that ends it.
        have hb : Apart [] b := Apart.of_append h (fun c hc => hp c (hrun c hc))
        rcases hb with hb | ⟨c, hc, _⟩
        · intro c hc
          by_contra hpc
          rw [Bool.not_eq_false] at hpc
          have := hb c hc
          rw [hp c hpc] at this
          exact absurd this.symm Bool.false_ne_true
        · cases hc
  rw [List.append_assoc, (Text.span_of_stop hrun hstop).1, (Text.span_of_stop hrun hstop).2,
    (Text.span_of_stop hrun hrest).1, (Text.span_of_stop hrun hrest).2]
  exact ⟨rfl, rfl⟩

/-- The name at the start of a text is decided before a cut. -/
theorem name?_append {a b : List Char} (h : Apart a b) : name? (a ++ b) = name? a := by
  have hl := span_append (fun _ => isPart_of_isLetter) h
  -- The letters are mention characters, so the cut is still there behind them.
  have hdrop : Apart (a.dropWhile Column.isLetter) b := by
    refine Apart.of_append (x := a.takeWhile Column.isLetter) ?_ (fun c hc => ?_)
    · rw [List.takeWhile_append_dropWhile]
      exact h
    · exact isPart_of_isLetter (List.mem_takeWhile_imp hc)
  -- So are the digits, and the name is read on one side of the cut.
  have hd := span_append (fun _ => isPart_of_isDigit) hdrop
  simp only [name?, hl.1, hl.2, hd.1]

/-- The shape of the name of a cell: letters and then digits, some of both. -/
def IsName (name : List Char) : Prop :=
  ∃ letters digits, name = letters ++ digits ∧ letters ≠ [] ∧ digits ≠ [] ∧
    (∀ c ∈ letters, Column.isLetter c = true) ∧ ∀ c ∈ digits, Text.isDigit c = true

namespace IsName

theorem isPart {name : List Char} (h : IsName name) : ∀ c ∈ name, isPart c = true := by
  rcases h with ⟨letters, digits, rfl, _, _, hl, hd⟩
  intro c hc
  rcases List.mem_append.mp hc with hc | hc
  · exact isPart_of_isLetter (hl c hc)
  · exact isPart_of_isDigit (hd c hc)

theorem not_mem_colon {name : List Char} (h : IsName name) : ':' ∉ name := by
  rcases h with ⟨letters, digits, rfl, _, _, hl, hd⟩
  intro hc
  rcases List.mem_append.mp hc with hc | hc
  · exact absurd (hl _ hc) (by decide)
  · exact absurd (hd _ hc) (by decide)

/-- A name starts with a letter. -/
theorem exists_cons {name : List Char} (h : IsName name) :
    ∃ c rest, name = c :: rest ∧ Column.isLetter c = true := by
  rcases h with ⟨letters, digits, rfl, hne, _, hl, _⟩
  cases letters with
  | nil => exact absurd rfl hne
  | cons c letters => exact ⟨c, letters ++ digits, rfl, hl c List.mem_cons_self⟩

theorem ne_nil {name : List Char} (h : IsName name) : name ≠ [] := by
  rcases h.exists_cons with ⟨c, rest, rfl, _⟩
  exact List.cons_ne_nil c rest

end IsName

/-- What is read as a name has the shape of one, and no digit follows it. -/
theorem isName_of_name? {cs name : List Char} (h : name? cs = some name) :
    IsName name ∧ ∃ rest, cs = name ++ rest ∧ Text.StopsAt Text.isDigit rest := by
  rcases Text.exists_stop Column.isLetter cs with ⟨letters, rest, rfl, hl, hrest⟩
  rcases Text.exists_stop Text.isDigit rest with ⟨digits, rest, rfl, hd, hstop⟩
  simp only [name?, (Text.span_of_stop hl hrest).1, (Text.span_of_stop hl hrest).2,
    (Text.span_of_stop hd hstop).1] at h
  split at h
  · exact absurd h (by simp only [reduceCtorEq, not_false_eq_true])
  · rename_i hne
    rw [Bool.or_eq_true, not_or, List.isEmpty_iff, List.isEmpty_iff] at hne
    rw [Option.some.injEq] at h
    exact ⟨⟨letters, digits, h.symm, hne.1, hne.2, hl, hd⟩, rest, by rw [← h, List.append_assoc],
      hstop⟩

/-- A name is read in full where no digit follows it. -/
theorem name?_of_isName {name rest : List Char} (h : IsName name)
    (hrest : Text.StopsAt Text.isDigit rest) : name? (name ++ rest) = some name := by
  rcases h with ⟨letters, digits, rfl, hl0, hd0, hl, hd⟩
  have hstop : Text.StopsAt Column.isLetter (digits ++ rest) := by
    cases digits with
    | nil => exact absurd rfl hd0
    | cons c digits =>
        exact Text.StopsAt.cons _ (Text.isLetter_of_isDigit (hd c List.mem_cons_self))
  rw [List.append_assoc]
  simp only [name?, (Text.span_of_stop hl hstop).1, (Text.span_of_stop hl hstop).2,
    (Text.span_of_stop hd hrest).1]
  rw [if_neg]
  rw [Bool.or_eq_true, not_or, List.isEmpty_iff, List.isEmpty_iff]
  exact ⟨hl0, hd0⟩

/-- No name starts with a character that is no letter. -/
theorem name?_of_not_isLetter {c : Char} (cs : List Char) (h : Column.isLetter c = false) :
    name? (c :: cs) = none := by
  have hc : ¬ Column.isLetter c = true := by rw [h]; exact Bool.false_ne_true
  simp only [name?, List.takeWhile_cons_of_neg hc, List.isEmpty_nil, Bool.true_or, if_true]

/-- Letters in front of a parenthesis are no name. -/
theorem name?_of_parenthesis {letters : List Char}
    (h : ∀ c ∈ letters, Column.isLetter c = true) (rest : List Char) :
    name? (letters ++ '(' :: rest) = none := by
  have hstop : Text.StopsAt Column.isLetter ('(' :: rest) := Text.StopsAt.cons rest (by decide)
  simp only [name?, (Text.span_of_stop h hstop).2]
  rw [List.takeWhile_cons_of_neg (by decide)]
  simp only [List.isEmpty_nil, Bool.or_true, if_true]

theorem atStart?_of_none {cs : List Char} (h : name? cs = none) : atStart? cs = none := by
  rw [atStart?, h]

/-- What a mention at the start of a text looks like: a name, and in front of a
    colon and another name a range. -/
theorem atStart?_cases {cs : List Char} {m : Mention} (h : atStart? cs = some m) :
    ∃ name rest, name? cs = some name ∧ cs = name ++ rest ∧
      (m = cell name ∧ (∀ rest', rest = ':' :: rest' → name? rest' = none) ∨
        ∃ last rest', rest = ':' :: rest' ∧ name? rest' = some last ∧ m = range name last) := by
  cases hname : name? cs with
  | none =>
      rw [atStart?_of_none hname] at h
      cases h
  | some name =>
      rcases isName_of_name? hname with ⟨_, rest, rfl, _⟩
      refine ⟨name, rest, rfl, rfl, ?_⟩
      rw [atStart?, hname] at h
      simp only [List.drop_left] at h
      -- A colon makes a range only in front of another name.
      split at h
      · rename_i rest' _
        cases hlast : name? rest' with
        | none =>
            rw [hlast, Option.some.injEq] at h
            refine Or.inl ⟨h.symm, fun rest'' h' => ?_⟩
            rw [← (List.cons.inj h').2]
            exact hlast
        | some last =>
            rw [hlast, Option.some.injEq] at h
            exact Or.inr ⟨last, rest', rfl, hlast, h.symm⟩
      · rename_i hcolon
        rw [Option.some.injEq] at h
        exact Or.inl ⟨h.symm, fun rest' h' => absurd h' (hcolon rest')⟩

/-- A name that no colon and second name follow is a mention of its own. -/
theorem atStart?_of_cell {name rest : List Char} (h : name? (name ++ rest) = some name)
    (hrest : ∀ rest', rest = ':' :: rest' → name? rest' = none) :
    atStart? (name ++ rest) = some (cell name) := by
  rw [atStart?, h]
  simp only [List.drop_left]
  split
  · rename_i rest'
    rw [hrest rest' rfl]
  · rfl

/-- Two names with a colon between them are a range. -/
theorem atStart?_of_range {first last rest : List Char}
    (hfirst : name? (first ++ ':' :: rest) = some first) (hlast : name? rest = some last) :
    atStart? (first ++ ':' :: rest) = some (range first last) := by
  rw [atStart?, hfirst]
  simp only [List.drop_left, hlast]

/-- Where a name stands, a mention starts: the name alone, or a range. -/
theorem atStart?_of_name? {name rest : List Char} (h : name? (name ++ rest) = some name) :
    atStart? (name ++ rest) = some (cell name) ∨
      ∃ last rest', rest = ':' :: (last ++ rest') ∧ name? (last ++ rest') = some last ∧
        atStart? (name ++ rest) = some (range name last) := by
  by_cases hcolon : ∃ rest' last, rest = ':' :: rest' ∧ name? rest' = some last
  · rcases hcolon with ⟨rest', last, rfl, hlast⟩
    have hrange := atStart?_of_range h hlast
    rcases isName_of_name? hlast with ⟨_, rest'', rfl, _⟩
    exact Or.inr ⟨last, rest'', rfl, hlast, hrange⟩
  · refine Or.inl (atStart?_of_cell h (fun rest' hrest => ?_))
    cases hlast : name? rest' with
    | none => rfl
    | some last => exact absurd ⟨rest', last, hrest, hlast⟩ hcolon

/-- The mention at the start of a text is decided before a cut. -/
theorem atStart?_append {a b : List Char} (h : Apart a b) : atStart? (a ++ b) = atStart? a := by
  cases hname : name? a with
  | none => rw [atStart?_of_none hname, atStart?_of_none (by rw [name?_append h, hname])]
  | some name =>
      rcases isName_of_name? hname with ⟨hshape, rest, rfl, _⟩
      have hrest : Apart rest b := Apart.of_append h hshape.isPart
      have hname' : name? (name ++ (rest ++ b)) = some name := by
        rw [← List.append_assoc, name?_append h, hname]
      rw [List.append_assoc]
      by_cases hcolon : ∃ rest', rest = ':' :: rest'
      · rcases hcolon with ⟨rest', rfl⟩
        -- A colon is a mention character as well, so the second name is decided before the cut.
        have hrest' : Apart rest' b :=
          Apart.of_append (x := [':']) hrest (fun c hc => by rw [List.mem_singleton.mp hc]; rfl)
        cases hlast : name? rest' with
        | none =>
            rw [List.cons_append] at hname' ⊢
            rw [atStart?_of_cell hname, atStart?_of_cell hname']
            · intro rest'' h'
              rw [← (List.cons.inj h').2, name?_append hrest', hlast]
            · intro rest'' h'
              rw [← (List.cons.inj h').2, hlast]
        | some last =>
            rw [List.cons_append] at hname' ⊢
            rw [atStart?_of_range hname hlast, atStart?_of_range hname']
            rw [name?_append hrest', hlast]
      · rw [not_exists] at hcolon
        rw [atStart?_of_cell hname (fun rest' h' => absurd h' (hcolon rest')),
          atStart?_of_cell hname']
        intro rest' h'
        cases rest with
        | cons c rest => exact absurd (by rw [(List.cons.inj h').1]) (hcolon rest)
        | nil =>
            -- A colon behind the cut is a mention character, and nothing ends the name.
            rcases hrest with hb | ⟨c, hc, _⟩
            · have := hb ':' (by rw [List.nil_append] at h'; rw [h']; rfl)
              exact absurd this (by decide)
            · cases hc

/-- Only the run of mention characters at the start of a text decides which
    mention starts there. -/
theorem atStart?_takeWhile (cs : List Char) : atStart? cs = atStart? (cs.takeWhile isPart) := by
  rcases Text.exists_stop isPart cs with ⟨run, rest, rfl, hrun, hrest⟩
  rw [(Text.span_of_stop hrun hrest).1, atStart?_append (Or.inl hrest)]

/-- A mention at the start of a text is a part of it, made of mention
    characters. -/
theorem exists_of_atStart? {cs : List Char} {m : Mention} (h : atStart? cs = some m) :
    (∃ rest, cs = m.chars ++ rest) ∧ (∀ c ∈ m.chars, isPart c = true) ∧
      ∃ c rest, m.chars = c :: rest ∧ Column.isLetter c = true := by
  rcases atStart?_cases h with ⟨name, rest, hname, rfl, ⟨rfl, _⟩ | ⟨last, rest', rfl, hlast, rfl⟩⟩
  · have hshape := (isName_of_name? hname).1
    exact ⟨⟨rest, rfl⟩, hshape.isPart, hshape.exists_cons⟩
  · have hshape := (isName_of_name? hname).1
    rcases isName_of_name? hlast with ⟨hshape', rest'', rfl, _⟩
    refine ⟨⟨rest'', by simp only [chars, List.append_assoc, List.cons_append]⟩, ?_, ?_⟩
    · intro c hc
      rcases List.mem_append.mp hc with hc | hc
      · exact hshape.isPart c hc
      · rcases List.mem_cons.mp hc with rfl | hc
        · rfl
        · exact hshape'.isPart c hc
    · rcases hshape.exists_cons with ⟨c, name', rfl, hc⟩
      exact ⟨c, name' ++ ':' :: last, rfl, hc⟩

theorem scanFrom_eq (skip : Nat) (cs : List Char) : scanFrom skip cs = scan (cs.drop skip) := by
  induction cs generalizing skip with
  | nil => rw [List.drop_nil]; cases skip <;> rfl
  | cons c cs ih =>
      cases skip with
      | zero => rfl
      | succ skip => rw [scanFrom, ih, List.drop_succ_cons]

/-- The walk takes the mention that starts where it stands, and goes on behind
    it. -/
theorem scan_of_some {m : Mention} {rest : List Char}
    (h : atStart? (m.chars ++ rest) = some m) : scan (m.chars ++ rest) = m :: scan rest := by
  rcases (exists_of_atStart? h).2.2 with ⟨c, cs, hcs, _⟩
  rw [hcs, List.cons_append] at h ⊢
  rw [scan, scanFrom, h]
  simp only
  rw [scanFrom_eq, hcs, List.length_cons, Nat.add_sub_cancel, List.drop_left]

/-- Where no mention starts, the walk goes on with the next character. -/
theorem scan_of_none {c : Char} {rest : List Char} (h : atStart? (c :: rest) = none) :
    scan (c :: rest) = scan rest := by
  rw [scan, scanFrom, h]
  rfl

theorem scan_of_not_isLetter {c : Char} (rest : List Char) (h : Column.isLetter c = false) :
    scan (c :: rest) = scan rest :=
  scan_of_none (atStart?_of_none (name?_of_not_isLetter rest h))

/-- The mentions of a text that is cut are those of the two parts. -/
theorem scan_append {a b : List Char} (h : Apart a b) : scan (a ++ b) = scan a ++ scan b := by
  induction hn : a.length using Nat.strong_induction_on generalizing a with
  | _ n ih =>
      -- The scan goes on behind a mention, or else behind one character.
      cases hm : atStart? a with
      | some m =>
          rcases exists_of_atStart? hm with ⟨⟨rest, rfl⟩, hpart, c, cs, hcs, _⟩
          have hrest : rest.length < n := by
            rw [← hn, List.length_append, hcs, List.length_cons]
            omega
          have hm' := atStart?_append h
          rw [hm, List.append_assoc] at hm'
          rw [List.append_assoc, scan_of_some hm', scan_of_some hm,
            ih rest.length hrest (h.of_append hpart) rfl, List.cons_append]
      | none =>
          cases a with
          | nil => rfl
          | cons c a =>
              have hm' := atStart?_append h
              rw [hm, List.cons_append] at hm'
              rw [List.cons_append, scan_of_none hm', scan_of_none hm]
              rw [List.length_cons] at hn
              rcases h.of_cons with rfl | h
              · rfl
              · exact ih a.length (by omega) h rfl

/-- What comes before the first letter mentions nothing. -/
theorem scan_append_left {a : List Char} (b : List Char)
    (h : ∀ c ∈ a, Column.isLetter c = false) : scan (a ++ b) = scan b := by
  induction a with
  | nil => rfl
  | cons c a ih =>
      rw [List.cons_append, scan_of_not_isLetter _ (h c List.mem_cons_self)]
      exact ih fun d hd => h d (List.mem_cons_of_mem _ hd)

/-- A text without letters mentions nothing. -/
theorem scan_eq_nil {cs : List Char} (h : ∀ c ∈ cs, Column.isLetter c = false) : scan cs = [] := by
  have hscan := scan_append_left [] h
  rwa [List.append_nil] at hscan

/-- Blanks at the ends of a text change nothing of what it mentions. -/
theorem scan_trim (cs : List Char) : scan (Text.trim cs) = scan cs := by
  rcases Text.exists_blanks cs with ⟨front, back, hcs, hfront, hback⟩
  have hapart : Apart (Text.trim cs) back := by
    cases back with
    | nil => exact Or.inl (Text.StopsAt.nil _)
    | cons c back => exact .cons_right _ _ (isPart_of_isBlank (hback c List.mem_cons_self))
  rw [congrArg scan hcs, scan_append_left _ fun c hc => Text.isLetter_of_isBlank (hfront c hc),
    scan_append hapart, scan_eq_nil fun c hc => Text.isLetter_of_isBlank (hback c hc),
    List.append_nil]

/-- Whether a mention names a cell: by itself, or as an end of a range. -/
def Names (m : Mention) (name : List Char) : Prop :=
  match m with
  | cell n => name = n
  | range first last => name = first ∨ name = last

theorem isName_of_atStart? {cs name : List Char} {m : Mention} (h : atStart? cs = some m)
    (hname : m.Names name) : IsName name := by
  rcases atStart?_cases h with ⟨first, _, hfirst, _, ⟨rfl, _⟩ | ⟨last, _, _, hlast, rfl⟩⟩
  · rw [show name = first from hname]
    exact (isName_of_name? hfirst).1
  · rcases hname with rfl | rfl
    · exact (isName_of_name? hfirst).1
    · exact (isName_of_name? hlast).1

/-- What the mentions of a text name are names. -/
theorem isName_of_mem_scan {cs name : List Char} {m : Mention} (h : m ∈ scan cs)
    (hname : m.Names name) : IsName name := by
  -- While a mention is skipped nothing is found, so the induction is over all skips.
  have hfrom : ∀ skip, m ∈ scanFrom skip cs → IsName name := by
    clear h
    induction cs with
    | nil =>
        intro skip hm
        cases skip <;> cases hm
    | cons c cs ih =>
        intro skip hm
        cases skip with
        | succ skip => exact ih skip hm
        | zero =>
            rw [scanFrom] at hm
            cases hstart : atStart? (c :: cs) with
            | none =>
                rw [hstart] at hm
                exact ih 0 hm
            | some m' =>
                rw [hstart] at hm
                rcases List.mem_cons.mp hm with rfl | hm
                · exact isName_of_atStart? hstart hname
                · exact ih _ hm
  exact hfrom 0 h

end Mention

end Spreadsheet
