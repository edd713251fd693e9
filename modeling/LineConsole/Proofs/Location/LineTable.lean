import LineConsole.Location.LineTable
import Mathlib.Data.List.TakeWhile
import Mathlib.Data.Prod.Lex
import Mathlib.Order.Monotone.Basic

/-! # Offsets and their locations

A location counts the line feeds in front of an offset and the characters since the line began. Each
offset has one such location, which walking through the text and searching its line table both come
to; it comes later for a later offset, also past the end of the text.
-/

namespace LineConsole

/-- A line begins at `start`, at the beginning of the text or behind a line feed, and goes on up to
`offset`. -/
structure LineFrom (cs : List Char) (start offset : Nat) : Prop where
  le : start ≤ offset
  begins : ∀ feed, start = feed + 1 → cs[feed]? = some '\n'
  goesOn : ∀ i, start ≤ i → i < offset → cs[i]? ≠ some '\n'

namespace LineFrom

variable {cs : List Char} {start start' offset : Nat}

theorem not_lt (line : LineFrom cs start offset) (line' : LineFrom cs start' offset) :
    ¬ start < start' := by
  intro earlier
  obtain ⟨feed, rfl⟩ : ∃ feed, start' = feed + 1 := ⟨start' - 1, by omega⟩
  have le := line'.le
  exact line.goesOn feed (by omega) (by omega) (line'.begins feed rfl)

theorem unique (line : LineFrom cs start offset) (line' : LineFrom cs start' offset) :
    start = start' :=
  Nat.le_antisymm (Nat.not_lt.mp (line'.not_lt line)) (Nat.not_lt.mp (line.not_lt line'))

theorem succ_of_feed (here : cs[offset]? = some '\n') : LineFrom cs (offset + 1) (offset + 1) where
  le := Nat.le_refl _
  begins feed same := by rwa [← Nat.succ.inj same]
  goesOn i above below := by omega

theorem succ_of_other (line : LineFrom cs start offset) (here : cs[offset]? ≠ some '\n') :
    LineFrom cs start (offset + 1) where
  le := Nat.le_succ_of_le line.le
  begins := line.begins
  goesOn i above below := by
    rcases Nat.lt_succ_iff_lt_or_eq.mp below with earlier | rfl
    · exact line.goesOn i above earlier
    · exact here

end LineFrom

namespace Location

/-- The line feeds in front of an offset, and the characters since its line began. -/
structure LiesAt (cs : List Char) (offset : Nat) (l : Location) : Prop where
  line : l.line = (cs.take offset).count '\n'
  column : ∃ start, LineFrom cs start offset ∧ start + l.column = offset

theorem LiesAt.unique {cs : List Char} {offset : Nat} {l l' : Location} (lies : LiesAt cs offset l)
    (lies' : LiesAt cs offset l') : l = l' := by
  obtain ⟨start, line, same⟩ := lies.column
  obtain ⟨start', line', same'⟩ := lies'.column
  obtain rfl := line.unique line'
  rw [Location.mk.injEq]
  exact ⟨lies.line.trans lies'.line.symm, by omega⟩

/-! ## Walking -/

theorem ofOffset_zero (cs : List Char) : ofOffset cs 0 = ⟨0, 0⟩ := by
  simp [ofOffset, advance, start]

theorem ofOffset_succ (cs : List Char) (offset : Nat) :
    ofOffset cs (offset + 1) =
      if cs[offset]? = some '\n' then ⟨(ofOffset cs offset).line + 1, 0⟩
      else ⟨(ofOffset cs offset).line, (ofOffset cs offset).column + 1⟩ := by
  cases there : cs[offset]? with
  | none =>
    have behind : cs.length ≤ offset := List.getElem?_eq_none_iff.mp there
    rw [if_neg nofun]
    simp only [ofOffset, List.take_add_one, there, Option.toList_none, List.append_nil]
    rw [Nat.succ_sub behind, Nat.add_succ]
  | some c =>
    have within : offset < cs.length := (List.getElem?_eq_some_iff.mp there).1
    have all : offset - cs.length = 0 := by omega
    have all' : offset + 1 - cs.length = 0 := by omega
    simp only [ofOffset, List.take_add_one, there, Option.toList_some, advance_append, all, all',
      Option.some.injEq]
    simp only [advance, List.foldl_cons, List.foldl_nil, after, Nat.add_zero]

/-- By induction on the offset: a line feed begins a line, and any other character goes on with it. -/
theorem liesAt_ofOffset (cs : List Char) (offset : Nat) : LiesAt cs offset (ofOffset cs offset) := by
  induction offset with
  | zero =>
    rw [ofOffset_zero]
    exact ⟨rfl, 0, ⟨Nat.le_refl _, nofun, nofun⟩, rfl⟩
  | succ offset ih =>
    obtain ⟨start, line, same⟩ := ih.column
    rw [ofOffset_succ]
    split
    · rename_i feed
      refine ⟨?_, _, .succ_of_feed feed, rfl⟩
      rw [List.take_add_one, feed, List.count_append, ← ih.line]
      rfl
    · rename_i other
      refine ⟨?_, _, line.succ_of_other other, by simp only; omega⟩
      have none : cs[offset]?.toList.count '\n' = 0 := by
        rw [List.count_eq_zero, Option.mem_toList]
        exact other
      rw [List.take_add_one, List.count_append, none, ← ih.line]
      rfl

/-- A later offset has a later location. -/
theorem strictMono_ofOffset (cs : List Char) :
    StrictMono fun offset => toLex ((ofOffset cs offset).line, (ofOffset cs offset).column) := by
  refine strictMono_nat_of_lt_succ fun offset => ?_
  rw [Prod.Lex.toLex_lt_toLex, ofOffset_succ]
  split
  · exact .inl (Nat.lt_succ_self _)
  · exact .inr ⟨rfl, Nat.lt_succ_self _⟩

end Location

/-! ## Searching -/

namespace LineTable

open Location

variable {cs : List Char} {offset : Nat}

theorem lineStart_le (t : LineTable) (offset : Nat) : t.lineStart offset ≤ offset := by
  rw [lineStart]
  split
  · exact Nat.zero_le _
  · rename_i feed last
    have there : feed ∈ t.before offset := List.mem_of_getLast? last
    have earlier : decide (feed < offset) = true := List.mem_takeWhile_imp (p := (· < offset)) there
    exact of_decide_eq_true earlier

/-- The search stops where the text in front of the offset does. -/
theorem before_ofText (cs : List Char) (offset : Nat) :
    (ofText cs).before offset = feedsFrom 0 (cs.take offset) := by
  have whole : (ofText cs).feeds =
      feedsFrom 0 (cs.take offset) ++ feedsFrom (cs.take offset).length (cs.drop offset) := by
    rw [← Nat.zero_add (cs.take offset).length, ← feedsFrom_append, List.take_append_drop]
    rfl
  have front : ∀ i ∈ feedsFrom 0 (cs.take offset), decide (i < offset) = true := by
    intro i there
    have within := (List.getElem?_eq_some_iff.mp (mem_feedsFrom.mp there).2).1
    rw [List.length_take] at within
    exact decide_eq_true (by omega)
  have back : ∀ i ∈ feedsFrom (cs.take offset).length (cs.drop offset), ¬ i < offset := by
    intro i there
    obtain ⟨behind, there⟩ := mem_feedsFrom.mp there
    have within := (List.getElem?_eq_some_iff.mp there).1
    rw [List.length_take] at behind within
    rw [List.length_drop] at within
    omega
  rw [before, whole, List.takeWhile_append_of_pos front]
  cases feeds : feedsFrom (cs.take offset).length (cs.drop offset) with
  | nil => rw [List.takeWhile_nil, List.append_nil]
  | cons feed feeds' =>
    have first := back feed (feeds ▸ List.mem_cons_self)
    rw [List.takeWhile_cons_of_neg (p := (· < offset)) (mt of_decide_eq_true first), List.append_nil]

theorem length_feedsFrom (first : Nat) (cs : List Char) :
    (feedsFrom first cs).length = cs.count '\n' := by
  have counted := List.countP_map (p := (· == '\n')) (f := Prod.fst) (l := cs.zipIdx first)
  rw [List.zipIdx_map_fst] at counted
  rw [feedsFrom, List.length_map, ← List.countP_eq_length_filter, List.count, counted]
  rfl

theorem lineFrom_lineStart (cs : List Char) (offset : Nat) :
    LineFrom cs ((ofText cs).lineStart offset) offset := by
  have mem {i : Nat} : i ∈ (ofText cs).before offset ↔ i < offset ∧ cs[i]? = some '\n' := by
    rw [before_ofText, mem_feedsFrom, Nat.sub_zero, List.getElem?_take]
    simp
  refine ⟨lineStart_le _ offset, fun feed same => ?_, fun i behind within feed => ?_⟩
  · rw [lineStart] at same
    split at same
    · cases same
    · rename_i last
      obtain rfl := Nat.succ.inj same
      exact (mem.mp (List.mem_of_getLast? last)).2
  · have there := mem.mpr ⟨within, feed⟩
    have increasing := before_ofText cs offset ▸ increasing_feedsFrom 0 (cs.take offset)
    rw [lineStart] at behind
    split at behind
    · rename_i none
      rw [List.getLast?_eq_none_iff.mp none] at there
      cases there
    · rename_i last lastFeed
      obtain ⟨front, same⟩ := List.getLast?_eq_some_iff.mp lastFeed
      rw [same] at there increasing
      rcases List.mem_append.mp there with earlier | same
      · have := (List.pairwise_append.mp increasing).2.2 i earlier last List.mem_cons_self
        omega
      · obtain rfl := List.mem_singleton.mp same
        omega

theorem liesAt_locate (cs : List Char) (offset : Nat) : LiesAt cs offset ((ofText cs).locate offset) where
  line := by rw [locate, before_ofText, length_feedsFrom]
  column := ⟨_, lineFrom_lineStart cs offset, Nat.add_sub_cancel' (lineStart_le _ offset)⟩

/-- Searching and walking come to the same. -/
theorem locate_ofText (cs : List Char) (offset : Nat) :
    (ofText cs).locate offset = ofOffset cs offset :=
  (liesAt_locate cs offset).unique (liesAt_ofOffset cs offset)

end LineTable

end LineConsole
