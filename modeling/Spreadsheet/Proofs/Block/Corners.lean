import Spreadsheet.Proofs.Address.Name
import Spreadsheet.Proofs.Block.Listing

/-!
# Blocks between Two Corners

What two names with a colon between them come to.

A block can be looked at in three ways. It can be asked whether it holds an address,
which is two comparisons in each direction; it has a number of rows and of columns;
and it can be listed. Different readers use different ways, the dependency graph the
first and the evaluation of a call one of the others, so it matters that they agree for
every pair of corners. The corners may be any two names that are read as cells, of
whatever length and in any of the four positions.

That the listing is in order is known of its addresses. It carries over to the names
because each name of the list is read as the address that it was written for, and then
no name can be there twice.

## Theorems

* `Address.ofChars?_trim`: A name denotes the same without the blanks around it.
* `Block.ofChars_corners`: Two names with a colon between them name the block that they
  span.
* `Block.length_ids`: A block has as many names as rows and columns multiplied.
* `Block.pairwise_ids`: The names of a block come row by row.
* `Block.ids_spanning`: Two corners name one block in either order, and its names are
  those that it holds, each once and row by row.
-/

namespace Spreadsheet

namespace Text

/-- Blanks behind a text without blanks are dropped. -/
theorem trim_append_blanks {cs blanks : List Char} (hne : cs ≠ [])
    (hcs : ∀ c ∈ cs, isBlank c = false) (hblanks : ∀ c ∈ blanks, isBlank c = true) :
    trim (cs ++ blanks) = cs := by
  rcases List.exists_cons_of_ne_nil hne with ⟨c, rest, rfl⟩
  have hc : ¬ isBlank c = true := by
    rw [hcs c List.mem_cons_self]
    exact Bool.false_ne_true
  have hleft : trimLeft (c :: rest ++ blanks) = c :: rest ++ blanks :=
    List.dropWhile_cons_of_neg hc
  have hself : trimRight (c :: rest) = c :: rest := by
    have htrim := trim_eq_self hcs
    rwa [trim, trimLeft, List.dropWhile_cons_of_neg hc] at htrim
  rw [trim, hleft, trimRight, List.reverse_append,
    List.dropWhile_append_of_pos fun d hd => hblanks d (List.mem_reverse.mp hd)]
  exact hself

end Text

namespace Address

/-- A name denotes the same without the blanks around it. -/
theorem ofChars?_trim {cs : List Char} {a : Address} (h : ofChars? cs = some a) :
    ofChars? (Text.trim cs) = some a := by
  rcases isSpelling_of_ofChars? h with ⟨letters, digits, tail, hspelling, htail, rfl⟩
  have hletters : ∀ c ∈ letters, Column.isLetter c = true :=
    fun c hc => decide_eq_true (hspelling.isLetter c hc)
  have hdigits : ∀ c ∈ digits, Text.isAsciiDigit c = true :=
    fun c hc => decide_eq_true (hspelling.isDigit c hc)
  have hrow : rowNumber digits ≠ 0 := by
    have hpos := hspelling.row_pos
    rw [Nat.ofDigitChars_eq_foldl] at hpos
    exact Nat.pos_iff_ne_zero.mp hpos
  -- There can be a line break behind the name, and nothing else that is blank.
  have htrim : Text.trim (letters ++ (digits ++ tail)) = letters ++ digits := by
    rw [← List.append_assoc]
    refine Text.trim_append_blanks (List.append_ne_nil_of_left_ne_nil hspelling.letters_ne_nil _)
      (fun c hc => ?_) fun c hc => ?_
    · rcases List.mem_append.mp hc with hc | hc
      · exact Text.isBlank_of_isLetter (hletters c hc)
      · exact Text.isBlank_of_isDigit (Text.isDigit_of_isAsciiDigit c (hdigits c hc))
    · rcases htail with rfl | rfl
      · cases hc
      · rw [List.mem_singleton.mp hc]
        decide
  have hread := ofChars?_append hspelling.letters_ne_nil hspelling.digits_ne_nil hletters hdigits
    htail hrow
  have hread' := ofChars?_append hspelling.letters_ne_nil hspelling.digits_ne_nil hletters hdigits
    (Or.inl rfl) hrow
  rw [List.append_nil] at hread'
  rw [htrim, hread', ← hread, h]

/-- There is no colon in a name. -/
theorem colon_not_mem_of_ofChars? {cs : List Char} {a : Address} (h : ofChars? cs = some a) :
    ':' ∉ cs := by
  rcases isSpelling_of_ofChars? h with ⟨letters, digits, tail, hspelling, htail, rfl⟩
  intro hmem
  rcases List.mem_append.mp hmem with hmem | hmem
  · exact absurd (hspelling.isLetter _ hmem) (by decide)
  · rcases List.mem_append.mp hmem with hmem | hmem
    · exact absurd (hspelling.isDigit _ hmem) (by decide)
    · rcases htail with rfl | rfl
      · cases hmem
      · exact absurd (List.mem_singleton.mp hmem) (by decide)

end Address

namespace Block

/-- Two names with a colon between them name the block that they span. -/
theorem ofChars_corners {first second : List Char} {a b : Address}
    (ha : Address.ofChars? first = some a) (hb : Address.ofChars? second = some b) :
    ofChars (first ++ ':' :: second) = .ok (spanning a b) := by
  have hfirst : ∀ c ∈ first, (c != ':') = true := fun c hc =>
    bne_iff_ne.mpr fun heq => Address.colon_not_mem_of_ofChars? ha (heq ▸ hc)
  have hsecond : second.contains ':' = false := by
    rw [List.contains_eq_mem, decide_eq_false_iff_not]
    exact Address.colon_not_mem_of_ofChars? hb
  have hspan := Text.span_of_stop hfirst
    (Text.StopsAt.cons second (by decide : (':' != ':') = false))
  -- What is read on either side is the name without the blanks around it.
  have hread : ∀ {cs : List Char} {a : Address}, Address.ofChars? cs = some a →
      Address.ofId (String.ofList (Text.trim cs)) = .ok a := by
    intro cs a h
    rw [Address.ofId, Address.ofId?, String.toList_ofList, Address.ofChars?_trim h]
  rw [ofChars]
  simp only [hspan.1, hspan.2, hsecond, hread ha, hread hb]
  rfl

theorem spanning_comm (a b : Address) : spanning a b = spanning b a := by
  simp only [spanning, Int.min_comm, Int.max_comm]

theorem onGrid_spanning {first second : String} {a b : Address}
    (ha : Address.ofId? first = some a) (hb : Address.ofId? second = some b) :
    (spanning a b).OnGrid :=
  onGrid_of_ofChars (ofChars_corners ha hb)

theorem length_ids (block : Block) : block.ids.length = block.rows * block.cols := by
  rw [ids, List.length_map, addresses, List.length_flatMap]
  simp only [List.length_map, List.length_range, List.map_const', List.sum_replicate_nat]

/-- On the grid, the names of a block come row by row, and each row from left to
    right. -/
theorem pairwise_ids {block : Block} (hgrid : block.OnGrid) :
    block.ids.Pairwise fun id id' => ∃ a b, Address.ofId? id = some a ∧
      Address.ofId? id' = some b ∧ (a.row < b.row ∨ a.row = b.row ∧ a.col < b.col) := by
  rw [← map_fst_named, List.pairwise_map]
  have haddresses : block.named.Pairwise fun p q =>
      p.2.row < q.2.row ∨ p.2.row = q.2.row ∧ p.2.col < q.2.col :=
    List.pairwise_map.mpr block.pairwise_addresses
  refine haddresses.imp_of_mem fun hp hq hlt => ?_
  exact ⟨_, _, ((mem_named hgrid).mp hp).2.1, ((mem_named hgrid).mp hq).2.1, hlt⟩

/-- No name comes twice, since none comes before itself. -/
theorem nodup_ids {block : Block} (hgrid : block.OnGrid) : block.ids.Nodup := by
  refine (pairwise_ids hgrid).imp fun hlt heq => ?_
  rcases hlt with ⟨a, b, ha, hb, hlt⟩
  rw [heq, hb, Option.some.injEq] at ha
  rw [ha] at hlt
  omega

/-- Two corners name one block in either order. Its names are the canonical names of the
    addresses that it holds, each once, row by row and each row from left to right, and
    there are as many as rows and columns multiplied. -/
theorem ids_spanning {first second : String} {a b : Address} (ha : Address.ofId? first = some a)
    (hb : Address.ofId? second = some b) :
    let block := spanning a b
    ofText (first ++ ":" ++ second) = .ok block ∧ ofText (second ++ ":" ++ first) = .ok block ∧
      block.ids.Nodup ∧
      (∀ id, id ∈ block.ids ↔
        Address.IsCanonical id ∧ ∃ c, Address.ofId? id = some c ∧ c ∈ block) ∧
      (block.ids.Pairwise fun id id' => ∃ c d, Address.ofId? id = some c ∧
        Address.ofId? id' = some d ∧ (c.row < d.row ∨ c.row = d.row ∧ c.col < d.col)) ∧
      block.ids.length = block.rows * block.cols := by
  intro block
  have hgrid : block.OnGrid := onGrid_spanning ha hb
  have htext : ∀ {s t : String}, (s ++ ":" ++ t).toList = s.toList ++ ':' :: t.toList := by
    intro s t
    rw [String.toList_append, String.toList_append, List.append_assoc]
    rfl
  -- The block is one for both orders, and all else is a matter of the block.
  refine ⟨?_, ?_, nodup_ids hgrid, fun id => mem_ids hgrid, pairwise_ids hgrid, length_ids block⟩
  · rw [ofText, htext]
    exact ofChars_corners ha hb
  · rw [ofText, htext, ofChars_corners hb ha, spanning_comm]

/-- The upper right corner and the lower left one, on either side of the column after
    `Z`. -/
theorem ids_spanning_carry :
    Address.ofId? "AB1" = some ⟨0, 27⟩ ∧ Address.ofId? "Z02" = some ⟨1, 25⟩ ∧
      (spanning ⟨0, 27⟩ ⟨1, 25⟩).ids = ["Z1", "AA1", "AB1", "Z2", "AA2", "AB2"] ∧
      ofText "AB1:Z02" = ofText "Z02:AB1" ∧
      (spanning ⟨0, 27⟩ ⟨1, 25⟩).ids.length = 2 * 3 := by
  have ha : Address.ofId? "AB1" = some ⟨0, 27⟩ := by decide +kernel
  have hb : Address.ofId? "Z02" = some ⟨1, 25⟩ := by decide +kernel
  rcases ids_spanning ha hb with ⟨htext, htext', _, _, _, hlength⟩
  exact ⟨ha, hb, by decide +kernel, htext.trans htext'.symm, hlength⟩

end Block

end Spreadsheet
