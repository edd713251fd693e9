import LineConsole.Screen.Memory

/-! # What a screen in memory shows

The cells of a screen are numbered along its rows from the top, so that a text which goes on in the
next row takes cells with consecutive numbers. A cell in which nothing was written is blank. A
character changes the one cell that it goes to, and the next goes to the cell behind that one; a new
row changes no cell and leads no further up.
-/

namespace LineConsole.MemoryScreen

/-- The number of a position. -/
def number (s : MemoryScreen) (p : Position) : Nat := p.row * s.width + p.col

/-- The position of the cell with this number. -/
def place (s : MemoryScreen) (k : Nat) : Position := ⟨k % s.width, k / s.width⟩

def cellAt (s : MemoryScreen) (k : Nat) : Cell := (s.cell? (s.place k)).getD blank

/-- The cell that the next character goes to. -/
def next (s : MemoryScreen) : Nat := s.number s.effective

/-- This cell is blank and so are all behind it. -/
def BlankFrom (s : MemoryScreen) (k : Nat) : Prop := ∀ j, k ≤ j → s.cellAt j = blank

/-- The cells of a view with others in place of those from `start` on. -/
def withCells (cells : List Cell) (start : Nat) (view : Nat → Cell) (k : Nat) : Cell :=
  if start ≤ k then (cells[k - start]?).getD (view k) else view k

/-- A text in one style. -/
def inked (style : Style) (cs : List Char) : List Cell := cs.map (⟨·, style⟩)

theorem withCells_nil (start : Nat) (view : Nat → Cell) : withCells [] start view = view := by
  funext k
  simp [withCells]

/-- What is written in two pieces may be written at once. -/
theorem withCells_append (first second : List Cell) (start : Nat) (view : Nat → Cell) :
    withCells second (start + first.length) (withCells first start view) =
      withCells (first ++ second) start view := by
  funext k
  simp only [withCells, List.getElem?_append]
  by_cases before : k < start
  · rw [if_neg (by omega), if_neg (by omega), if_neg (by omega)]
  · obtain ⟨i, rfl⟩ := Nat.exists_eq_add_of_le (Nat.le_of_not_lt before)
    simp only [Nat.le_add_right, if_true, Nat.add_sub_cancel_left, Nat.add_le_add_iff_left]
    by_cases inside : i < first.length
    · rw [if_neg (by omega), if_pos inside]
    · rw [if_pos (by omega), if_neg inside, List.getElem?_eq_none (Nat.le_of_not_lt inside),
        Option.getD_none, show start + i - (start + first.length) = i - first.length by omega]

/-! ## Cell by cell -/

/-- Rows that are added have no cells. -/
private theorem getElem?_growTo (rows : List (List Cell)) (row : Nat) (p : Position) :
    ((growTo rows row)[p.row]?).bind (·[p.col]?) = (rows[p.row]?).bind (·[p.col]?) := by
  rw [growTo, List.getElem?_append]
  by_cases inside : p.row < rows.length
  · rw [if_pos inside]
  · rw [if_neg inside, List.getElem?_eq_none (Nat.le_of_not_lt inside), List.getElem?_replicate]
    split <;> rfl

/-- The row that a character goes to, once rows were added for it. -/
private theorem exists_growTo (rows : List (List Cell)) (row : Nat) :
    ∃ cells, (growTo rows row)[row]? = some cells := by
  refine ⟨_, List.getElem?_eq_getElem ?_⟩
  simp only [growTo, List.length_append, List.length_replicate]
  omega

private theorem getElem?_putInRow (row : List Cell) (col : Nat) (cell : Cell) (i : Nat) :
    (putInRow row col cell)[i]? = if i = col then some cell
      else if i < col then some ((row[i]?).getD blank) else row[i]? := by
  rw [putInRow, List.getElem?_set]
  by_cases same : col = i
  · rw [if_pos same, if_pos same.symm, if_pos]
    simp only [List.length_append, List.length_replicate]
    omega
  · rw [if_neg same, if_neg (Ne.symm same), List.getElem?_append]
    by_cases inside : i < row.length
    · rw [if_pos inside, List.getElem?_eq_getElem inside]
      exact (ite_self _).symm
    · rw [if_neg inside, List.getElem?_eq_none (Nat.le_of_not_lt inside), List.getElem?_replicate]
      by_cases before : i < col
      · rw [if_pos before, if_pos (by omega)]
        rfl
      · rw [if_neg before, if_neg (by omega)]

variable {s : MemoryScreen} {style : Style} {c : Char} {p : Position}

/-- A new row changes no cell. -/
theorem cell?_newline : s.newline.cell? p = s.cell? p := getElem?_growTo _ _ p

/-- A character goes to the effective place, and cells that are missing before it in its row become
blank. -/
theorem cell?_put (visible : c ≠ '\n') :
    (s.put style c).cell? p = if p = s.effective then some ⟨c, style⟩
      else if p.row = s.effective.row ∧ p.col < s.effective.col then
        some ((s.cell? p).getD blank)
      else s.cell? p := by
  obtain ⟨col, row⟩ := p
  have before := getElem?_growTo s.rows s.effective.row ⟨col, row⟩
  have place : ((⟨col, row⟩ : Position) = s.effective) =
      (col = s.effective.col ∧ row = s.effective.row) :=
    Position.mk.injEq col row s.effective.col s.effective.row
  rw [put, if_neg visible]
  simp only [place]
  by_cases same : row = s.effective.row
  · obtain rfl := same
    obtain ⟨cells, grown⟩ := exists_growTo s.rows s.effective.row
    have shown : s.cell? ⟨col, s.effective.row⟩ = cells[col]? := by
      rw [cell?, ← before, grown]
      rfl
    rw [shown, cell?, List.getElem?_modify_eq, grown]
    simp only [and_true, true_and]
    exact getElem?_putInRow cells s.effective.col ⟨c, style⟩ col
  · simp only [same, and_false, false_and, if_false]
    rw [cell?, List.getElem?_modify_ne _ _ (Ne.symm same)]
    exact before

theorem effective_col_lt (wide : 0 < s.width) : s.effective.col < s.width := by
  unfold effective
  split
  · exact wide
  · omega

/-- A number stands for one position within the columns. -/
theorem place_eq_iff {p : Position} (inside : p.col < s.width) {k : Nat} :
    s.place k = p ↔ k = s.number p := by
  obtain ⟨col, row⟩ := p
  constructor
  · intro same
    obtain ⟨rfl, rfl⟩ := Position.mk.inj same
    exact (Nat.div_add_mod' k s.width).symm
  · rintro rfl
    have wide : 0 < s.width := Nat.zero_lt_of_lt inside
    rw [place, number, Nat.mul_add_mod_of_lt inside, Nat.mul_comm, Nat.mul_add_div wide,
      Nat.div_eq_of_lt inside, Nat.add_zero]

private theorem withCells_single (cell : Cell) (start : Nat) (view : Nat → Cell) (k : Nat) :
    withCells [cell] start view k = if k = start then cell else view k := by
  rw [withCells]
  by_cases before : k < start
  · rw [if_neg (by omega), if_neg (by omega)]
  · obtain ⟨i, rfl⟩ := Nat.exists_eq_add_of_le (Nat.le_of_not_lt before)
    cases i with
    | zero => simp
    | succ i => simp

/-- From the first screen to the second, cells were written one behind the other. -/
structure Wrote (cells : List Cell) (s t : MemoryScreen) : Prop where
  width : t.width = s.width
  cellAt : t.cellAt = withCells cells s.next s.cellAt
  next : t.next = s.next + cells.length

theorem Wrote.refl (s : MemoryScreen) : Wrote [] s s := ⟨rfl, (withCells_nil _ _).symm, rfl⟩

theorem Wrote.trans {first second : List Cell} {s t u : MemoryScreen} (one : Wrote first s t)
    (two : Wrote second t u) : Wrote (first ++ second) s u := by
  refine ⟨two.width.trans one.width, ?_, ?_⟩
  · rw [two.cellAt, one.cellAt, one.next, withCells_append]
  · rw [two.next, one.next, List.length_append, Nat.add_assoc]

private theorem next_put (wide : 0 < s.width) (visible : c ≠ '\n') :
    (s.put style c).next = s.next + 1 := by
  have inside := effective_col_lt wide
  rw [put, if_neg visible]
  simp only [next, number]
  rw [effective]
  split
  · rename_i full
    have last : s.effective.col + 1 = s.width := by
      change s.width ≤ s.effective.col + 1 at full
      omega
    simp only [Nat.succ_mul]
    omega
  · exact (Nat.add_assoc _ _ _).symm

private theorem cellAt_put (wide : 0 < s.width) (visible : c ≠ '\n') :
    (s.put style c).cellAt = withCells [⟨c, style⟩] s.next s.cellAt := by
  funext k
  have place : (s.put style c).place k = s.place k := by
    rw [put, if_neg visible]
    rfl
  rw [withCells_single, cellAt, cellAt, place, cell?_put visible]
  simp only [next, ← place_eq_iff (effective_col_lt wide)]
  split
  · rfl
  · split <;> rfl

theorem width_put : (s.put style c).width = s.width := by
  rw [put]
  split <;> rfl

/-- A character goes to the next cell. -/
theorem wrote_put (wide : 0 < s.width) (visible : c ≠ '\n') :
    Wrote [⟨c, style⟩] s (s.put style c) :=
  ⟨width_put, cellAt_put wide visible, next_put wide visible⟩

/-- A text without line feeds takes the cells from the next one on. -/
theorem wrote_print {text : String} (wide : 0 < s.width) (visible : '\n' ∉ text.toList) :
    Wrote (inked style text.toList) s (s.print text style) := by
  rw [print]
  generalize text.toList = cs at visible ⊢
  induction cs generalizing s with
  | nil => exact .refl s
  | cons c cs ih =>
    have first : c ≠ '\n' := Ne.symm (List.ne_of_not_mem_cons visible)
    have rest : '\n' ∉ cs := List.not_mem_of_not_mem_cons visible
    exact (wrote_put wide first).trans (ih (by rwa [width_put]) rest)

/-! ## Fresh cells -/

/-- Nothing was written where the next characters go. -/
def Fresh (s : MemoryScreen) : Prop := s.BlankFrom s.next

/-- A position within the columns is where the next character goes. -/
theorem next_of_lt (inside : s.position.col < s.width) : s.next = s.number s.position := by
  rw [next, effective, if_neg (Nat.not_le_of_lt inside)]

private theorem next_le_next_newline (wide : 0 < s.width) : s.next ≤ s.newline.next := by
  have below : s.newline.next = (s.position.row + 1) * s.width := next_of_lt wide
  rw [below, next, effective]
  split
  · exact Nat.le_refl _
  · simp only [number, Nat.succ_mul]
    omega

/-- A new row keeps what is shown. -/
theorem cellAt_newline : s.newline.cellAt = s.cellAt := by
  funext k
  exact congrArg (·.getD blank) cell?_newline

theorem fresh_newline (wide : 0 < s.width) (fresh : s.Fresh) : s.newline.Fresh := by
  intro j behind
  rw [cellAt_newline]
  exact fresh j (Nat.le_trans (next_le_next_newline wide) behind)

private theorem fresh_put (wide : 0 < s.width) (fresh : s.Fresh) : (s.put style c).Fresh := by
  by_cases feed : c = '\n'
  · rw [put, if_pos feed]
    exact fresh_newline wide fresh
  · have wrote : Wrote [⟨c, style⟩] s (s.put style c) := wrote_put wide feed
    intro j behind
    rw [wrote.next, List.length_singleton] at behind
    rw [wrote.cellAt, withCells_single, if_neg (by omega)]
    exact fresh j (by omega)

theorem width_print {text : String} : (s.print text style).width = s.width := by
  rw [print]
  induction text.toList generalizing s with
  | nil => rfl
  | cons c cs ih => exact ih.trans width_put

/-- Whatever is printed, nothing was written behind it. -/
theorem fresh_print {text : String} (wide : 0 < s.width) (fresh : s.Fresh) :
    (s.print text style).Fresh := by
  rw [print]
  induction text.toList generalizing s with
  | nil => exact fresh
  | cons c cs ih => exact ih (by rwa [width_put]) (fresh_put wide fresh)

theorem fresh_ofWidth (width : Nat) : (ofWidth width).Fresh := by
  intro j _
  rw [cellAt, cell?]
  cases ((ofWidth width).place j).row with
  | zero => rfl
  | succ row => rfl

end LineConsole.MemoryScreen
