import LineConsole.Proofs.Screen.Memory

/-! # What is written leaves alone what stands before it

The cells of a screen are read row by row from the top. What is printed goes to the cells from the
cursor on, so that nothing before the cursor changes, provided that no cell is missing there: a row
that is too short is filled up with blanks.
-/

namespace LineConsole

/-- The first position is read before the second. -/
def Position.Before (p q : Position) : Prop := p.row < q.row ∨ p.row = q.row ∧ p.col < q.col

namespace Position

variable {p q r : Position}

instance : Decidable (p.Before q) :=
  inferInstanceAs (Decidable (p.row < q.row ∨ p.row = q.row ∧ p.col < q.col))

theorem not_before_self (p : Position) : ¬ p.Before p := by
  unfold Before
  omega

theorem Before.of_not_before (before : p.Before q) (onward : ¬ r.Before q) : p.Before r := by
  unfold Before at *
  omega

theorem before_of_not_before (onward : ¬ q.Before p) (before : q.Before r) : p.Before r := by
  unfold Before at *
  omega

theorem Before.trans (first : p.Before q) (second : q.Before r) : p.Before r := by
  unfold Before at *
  omega

theorem not_before_trans (first : ¬ q.Before p) (second : ¬ r.Before q) : ¬ r.Before p :=
  fun back => second (back.of_not_before first)

end Position

namespace MemoryScreen

variable {s t : MemoryScreen} {stop p : Position} {style : Style} {c : Char}

/-- All that is read before a position is the same on the second screen. -/
def SameBefore (stop : Position) (s t : MemoryScreen) : Prop :=
  ∀ p : Position, p.Before stop → t.cell? p = s.cell? p

/-- No cell is missing in front of a position in its row. -/
def FilledTo (stop : Position) (s : MemoryScreen) : Prop :=
  ∀ col < stop.col, (s.cell? ⟨col, stop.row⟩).isSome

theorem FilledTo.of_same (filled : s.FilledTo stop) (same : SameBefore stop s t) :
    t.FilledTo stop := by
  intro col inside
  rw [same ⟨col, stop.row⟩ (.inr ⟨rfl, inside⟩)]
  exact filled col inside

/-- The cursor never stands behind the place where the next character goes. -/
theorem effective_not_before (onward : ¬ s.position.Before stop) : ¬ s.effective.Before stop := by
  unfold effective
  split
  · unfold Position.Before at *
    simp only at *
    omega
  · exact onward

/-! ## What stands before the cursor -/

theorem SameBefore.refl (stop : Position) (s : MemoryScreen) : SameBefore stop s s :=
  fun _ _ => rfl

theorem SameBefore.trans {u : MemoryScreen} (first : SameBefore stop s t)
    (second : SameBefore stop t u) : SameBefore stop s u :=
  fun p before => (second p before).trans (first p before)

/-- A character changes nothing before a position that the cursor is not before. -/
theorem sameBefore_put (filled : s.FilledTo stop) (onward : ¬ s.effective.Before stop) :
    SameBefore stop s (s.put style c) := by
  rintro ⟨col, row⟩ before
  have elsewhere : (⟨col, row⟩ : Position) ≠ s.effective := fun same => onward (same ▸ before)
  by_cases visible : c = '\n'
  · rw [put, if_pos visible, cell?_newline]
  · rw [cell?_put visible, if_neg elsewhere]
    split
    · rename_i level
      obtain ⟨rfl : row = s.effective.row, -⟩ := level
      unfold Position.Before at before onward
      simp only at before
      have there : (s.cell? ⟨col, s.effective.row⟩).isSome := by
        rw [show s.effective.row = stop.row by omega]
        exact filled col (by omega)
      obtain ⟨cell, written⟩ := Option.isSome_iff_exists.mp there
      rw [written, Option.getD_some]
    · rfl

theorem newline_onward (onward : ¬ s.effective.Before stop) :
    ¬ s.newline.effective.Before stop := by
  refine effective_not_before (Position.not_before_trans onward ?_)
  unfold effective newline Position.Before
  split
  · simp only; omega
  · simp only; omega

/-- The cursor goes on in reading order. -/
theorem put_onward (onward : ¬ s.effective.Before stop) :
    ¬ (s.put style c).effective.Before stop := by
  rw [put]
  split
  · exact newline_onward onward
  · refine effective_not_before (Position.not_before_trans onward ?_)
    unfold Position.Before
    simp only
    omega

theorem row_lt_newline : s.position.row < s.newline.effective.row := by
  unfold effective newline
  split
  · simp only; omega
  · simp only; omega

theorem newline_filled : s.newline.FilledTo s.newline.effective := by
  have first : s.newline.effective.col = 0 := by
    unfold effective newline
    split <;> rfl
  intro col inside
  exact absurd (first ▸ inside) (Nat.not_lt_zero col)

/-- Behind a character no cell is missing either. -/
theorem put_filled (filled : s.FilledTo s.effective) :
    (s.put style c).FilledTo (s.put style c).effective := by
  by_cases visible : c = '\n'
  · rw [put, if_pos visible]
    exact newline_filled
  · have position : (s.put style c).position = ⟨s.effective.col + 1, s.effective.row⟩ := by
      rw [put, if_neg visible]
    intro col inside
    unfold effective at inside ⊢
    split at inside
    · exact absurd inside (Nat.not_lt_zero col)
    · rename_i room
      rw [if_neg room, position]
      rw [position] at inside
      rcases Nat.lt_succ_iff_lt_or_eq.mp inside with before | rfl
      · exact filled.of_same (sameBefore_put filled s.effective.not_before_self) col before
      · rw [cell?_put visible]
        exact Option.isSome_of_eq_some (if_pos rfl)

/-- What is printed changes nothing before such a position, and the cursor is not before it then. -/
theorem print_behind (text : String) (style : Style) (filled : s.FilledTo stop)
    (onward : ¬ s.effective.Before stop) :
    SameBefore stop s (s.print text style) ∧ ¬ (s.print text style).effective.Before stop := by
  rw [print]
  generalize text.toList = cs
  induction cs generalizing s with
  | nil => exact ⟨.refl stop s, onward⟩
  | cons c cs ih =>
    have first : SameBefore stop s (s.put style c) := sameBefore_put filled onward
    obtain ⟨same, onward'⟩ := ih (filled.of_same first) (put_onward onward)
    exact ⟨first.trans same, onward'⟩

theorem print_filled (text : String) (style : Style) (filled : s.FilledTo s.effective) :
    (s.print text style).FilledTo (s.print text style).effective := by
  rw [print]
  generalize text.toList = cs
  induction cs generalizing s with
  | nil => exact filled
  | cons c cs ih => exact ih (put_filled filled)

end MemoryScreen

end LineConsole
