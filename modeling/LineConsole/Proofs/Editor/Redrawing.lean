import LineConsole.Proofs.Action
import LineConsole.Proofs.Editor.Appearance

/-! # Drawing on a screen in memory

On a screen in memory drawing never fails, and what it leaves is known cell by cell: redrawing from
an offset writes the line's cells from there on, then the blanks, and leaves the screen's cursor
where the editor's is. If an editor's line was shown and begins like another, the other is shown
once it is redrawn from where they differ with blanks for what the first was longer.
-/

namespace LineConsole

open MemoryScreen (Wrote withCells blank)

/-- Positions in a line are counted on from its anchor, over the ends of the rows. -/
theorem MemoryScreen.number_cellOf {t : MemoryScreen} (wide : 0 < t.width) (e : Editor)
    (offset : Nat) : t.number (e.cellOf t.width offset) = t.number e.anchor + offset := by
  have least : max t.width 1 = t.width := Nat.max_eq_left wide
  have divided := Nat.div_add_mod' (e.anchor.col + offset) t.width
  simp only [number, Editor.cellOf, least, Nat.add_mul]
  omega

theorem MemoryScreen.cellOf_col_lt {t : MemoryScreen} (wide : 0 < t.width) (e : Editor)
    (offset : Nat) : (e.cellOf t.width offset).col < t.width := by
  have least : max t.width 1 = t.width := Nat.max_eq_left wide
  simp only [Editor.cellOf, least]
  exact Nat.mod_lt _ wide

namespace Session

/-- The cell in which the line begins. -/
def origin (s : Session MemoryScreen) : Nat := s.screen.number s.editor.anchor

/-- The screen shows the line from its anchor on and nothing behind it, and its cursor is where the
editor's is. -/
def Shows (s : Session MemoryScreen) : Prop :=
  (∀ k, s.origin ≤ k → s.screen.cellAt k = (s.editor.cells[k - s.origin]?).getD blank) ∧
    s.screen.next = s.origin + s.editor.cursor

section Calls

variable {s : Session MemoryScreen} {ok : Unit → Session MemoryScreen → Prop}
variable {failed : IoFault → Session MemoryScreen → Prop}

theorem ensures_moveToOffset {offset : Nat} (wide : 0 < s.screen.width)
    (moved : ∀ screen, screen.width = s.screen.width → screen.cellAt = s.screen.cellAt →
      screen.next = s.origin + offset → ok () { s with screen }) :
    Ensures (moveToOffset offset) ok failed s := by
  refine moved _ rfl rfl ?_
  rw [MemoryScreen.next_of_lt (MemoryScreen.cellOf_col_lt wide s.editor offset)]
  exact MemoryScreen.number_cellOf wide s.editor offset

theorem ensures_printAll {pieces : List Piece} (wide : 0 < s.screen.width)
    (visible : ∀ piece ∈ pieces, '\n' ∉ piece.text.toList)
    (wrote : ∀ screen, Wrote (pieces.flatMap Piece.cells) s.screen screen →
      ok () { s with screen }) : Ensures (printAll pieces) ok failed s := by
  induction pieces generalizing s with
  | nil => exact wrote _ (.refl _)
  | cons piece rest ih =>
    simp only [printAll, ensures_bind]
    have first : Wrote piece.cells s.screen (s.screen.print piece.text piece.style) :=
      MemoryScreen.wrote_print wide (visible piece List.mem_cons_self)
    refine ih (s := { s with screen := s.screen.print piece.text piece.style })
      (first.width ▸ wide) (fun p there => visible p (List.mem_cons_of_mem _ there)) ?_
    intro screen others
    exact wrote screen (first.trans others)

/-- Nothing that is drawn for a line breaks it. -/
private theorem visible_pieces {e : Editor} (visible : '\n' ∉ e.buffer) (start : Nat) :
    ∀ piece ∈ e.pieces start, '\n' ∉ piece.text.toList := by
  intro piece there feed
  have drawn : (⟨'\n', piece.style⟩ : Cell) ∈ e.cells.drop start := by
    rw [← Editor.cells_pieces]
    exact List.mem_flatMap.mpr ⟨piece, there, List.mem_map.mpr ⟨'\n', feed, rfl⟩⟩
  obtain ⟨i, inside, same⟩ := List.mem_mapIdx.mp (List.mem_of_mem_drop drawn)
  have char : e.buffer[i] = '\n' := congrArg Cell.char same
  exact visible (char ▸ List.getElem_mem inside)

theorem ensures_redrawFrom {start stale : Nat} (wide : 0 < s.screen.width)
    (visible : '\n' ∉ s.editor.buffer)
    (drawn : ∀ screen, screen.width = s.screen.width →
      screen.cellAt = withCells (s.editor.cells.drop start ++ List.replicate stale blank)
        (s.origin + start) s.screen.cellAt →
      screen.next = s.origin + s.editor.cursor → ok () { s with screen }) :
    Ensures (redrawFrom start stale) ok failed s := by
  simp only [redrawFrom, ensures_bind]
  apply ensures_moveToOffset wide
  intro t width cells next
  apply ensures_printAll (width ▸ wide) (visible_pieces visible start)
  intro u wrote
  rw [Editor.cells_pieces] at wrote
  -- With the blanks or without: they go behind the line, and then the cursor is put back.
  have ending (v : MemoryScreen) (blanks : Wrote (List.replicate stale blank) u v) :
      Ensures (moveToOffset s.editor.cursor) ok failed { s with screen := v } := by
    have all := wrote.trans blanks
    have same : v.width = s.screen.width := all.width.trans width
    apply ensures_moveToOffset (same ▸ wide)
    intro screen width' cells' next'
    refine drawn screen (width'.trans same) ?_ (next'.trans ?_)
    · rw [cells', all.cellAt, next, cells]
    · rw [origin, origin, MemoryScreen.number, MemoryScreen.number, same]
  simp only [ensures_get, ensures_ite, ensures_bind]
  split
  · have spaces : '\n' ∉ (String.ofList (List.replicate stale ' ')).toList := by
      rw [String.toList_ofList]
      exact fun feed => absurd (List.eq_of_mem_replicate feed) (by decide)
    have blanks : Wrote _ u (u.print (String.ofList (List.replicate stale ' ')) .plain) :=
      MemoryScreen.wrote_print (wrote.width.trans width ▸ wide) spaces
    rw [String.toList_ofList, MemoryScreen.inked, List.map_replicate] at blanks
    exact ending _ blanks
  · rename_i none
    obtain rfl : stale = 0 := Nat.eq_zero_of_not_pos none
    exact ending _ (.refl u)

/-- Cells with blanks behind them take the place of others that began with the same ones. -/
private theorem withCells_shown {old new : List Cell} {start stale first : Nat} {view : Nat → Cell}
    (shown : ∀ k, first ≤ k → view k = (old[k - first]?).getD blank) (inside : start ≤ new.length)
    (same : new.take start = old.take start) (covered : old.length ≤ new.length + stale) (k : Nat)
    (behind : first ≤ k) :
    withCells (new.drop start ++ List.replicate stale blank) (first + start) view k =
      (new[k - first]?).getD blank := by
  obtain ⟨i, rfl⟩ := Nat.exists_eq_add_of_le behind
  rw [withCells, shown _ behind, Nat.add_sub_cancel_left]
  by_cases before : i < start
  · rw [if_neg (by omega), ← List.getElem?_take_of_lt before, ← same,
      List.getElem?_take_of_lt before]
  · obtain ⟨j, rfl⟩ := Nat.exists_eq_add_of_le (Nat.le_of_not_lt before)
    rw [if_pos (by omega), show first + (start + j) - (first + start) = j by omega,
      List.getElem?_append, List.length_drop]
    by_cases there : start + j < new.length
    · rw [if_pos (by omega), List.getElem?_drop, List.getElem?_eq_getElem there]
      rfl
    · rw [if_neg (by omega), List.getElem?_eq_none (Nat.le_of_not_lt there),
        List.getElem?_replicate]
      split
      · rfl
      · rw [List.getElem?_eq_none (by omega)]
        rfl

/-- An editor whose line begins like the one that is shown is shown when it is redrawn. -/
theorem ensures_redrawFrom_of_shows {start stale : Nat} {e : Editor} (wide : 0 < s.screen.width)
    (shows : s.Shows) (anchor : e.anchor = s.editor.anchor) (visible : '\n' ∉ e.buffer)
    (inside : start ≤ e.buffer.length) (same : e.buffer.take start = s.editor.buffer.take start)
    (covered : s.editor.buffer.length ≤ e.buffer.length + stale)
    (shown : ∀ screen, screen.width = s.screen.width → Shows ⟨e, screen, s.history⟩ →
      ok () ⟨e, screen, s.history⟩) :
    Ensures (redrawFrom start stale) ok failed ⟨e, s.screen, s.history⟩ := by
  refine ensures_redrawFrom (s := ⟨e, s.screen, s.history⟩) wide visible
    fun screen width cells next => ?_
  have origin : origin ⟨e, screen, s.history⟩ = s.origin := by
    simp only [Session.origin, MemoryScreen.number, anchor, width]
  have before : Session.origin ⟨e, s.screen, s.history⟩ = s.origin := by
    simp only [Session.origin, anchor]
  refine shown screen width ⟨fun k behind => ?_, ?_⟩
  · rw [origin] at behind ⊢
    rw [cells, before]
    refine withCells_shown shows.1 ?_ (Editor.take_cells same) ?_ k behind
    · rwa [Editor.length_cells]
    · rwa [Editor.length_cells, Editor.length_cells]
  · rw [next, before, origin]

/-- Behind the line of a session that is shown, a new row is fresh. -/
theorem ensures_leave {e : Editor} (wide : 0 < s.screen.width) (shows : s.Shows)
    (anchor : e.anchor = s.editor.anchor)
    (left : ∀ screen, screen.width = s.screen.width → screen.Fresh →
      ok () ⟨e, screen, s.history⟩) :
    Ensures (moveToOffset s.editor.buffer.length)
      (fun _ s' => Ensures (onScreen Screen.newline) ok failed s') failed
      ⟨e, s.screen, s.history⟩ := by
  refine ensures_moveToOffset wide fun screen width cells next => ?_
  refine left _ width (MemoryScreen.fresh_newline (width ▸ wide) fun k behind => ?_)
  have origin : origin ⟨e, s.screen, s.history⟩ = s.origin := by
    simp only [Session.origin, anchor]
  rw [next, origin] at behind
  rw [cells, shows.1 k (by omega), List.getElem?_eq_none]
  · rfl
  · rw [Editor.length_cells]
    omega

/-- On fresh cells, the prompt is followed by an empty line that is shown. -/
theorem ensures_showPrompt (wide : 0 < s.screen.width) (fresh : s.screen.Fresh)
    (shown : ∀ anchor screen, screen.width = s.screen.width →
      Shows ⟨{ s.editor with buffer := [], cursor := 0, anchor }, screen, s.history⟩ →
      ok () ⟨{ s.editor with anchor, promptShown := true }, screen, s.history⟩) :
    Ensures showPrompt ok failed s := by
  refine shown _ _ MemoryScreen.width_print ⟨?_, rfl⟩
  exact MemoryScreen.fresh_print wide fresh

end Calls

end Session

end LineConsole
