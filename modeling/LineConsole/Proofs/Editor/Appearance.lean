import LineConsole.Editor
import LineConsole.Proofs.Screen.Memory

/-! # How a line looks

The command's name ends in front of the first space of a line, and all from there on is argument.
What is drawn from an offset on are the cells of the whole line from there on, so the style of a
character does not depend on where drawing began; and it depends on nothing behind the character.
-/

namespace LineConsole

open MemoryScreen (inked)

/-- The cells that a piece of text takes. -/
def Piece.cells (piece : Piece) : List Cell := inked piece.style piece.text.toList

namespace Editor

/-- The style of the character at an index. -/
def styleAt (e : Editor) (i : Nat) : Style :=
  if ' ' ∈ e.buffer.take (i + 1) then .argument else .command

/-- The cells of the line. -/
def cells (e : Editor) : List Cell := e.buffer.mapIdx fun i c => ⟨c, e.styleAt i⟩

theorem length_cells (e : Editor) : e.cells.length = e.buffer.length := List.length_mapIdx

/-- The length of the command's name. -/
private def nameLength (cs : List Char) : Nat := (cs.takeWhile (· != ' ')).length

private theorem nameLength_le (cs : List Char) : nameLength cs ≤ cs.length :=
  (List.takeWhile_sublist _).length_le

private theorem space_mem_take_iff {cs : List Char} {i : Nat} (inside : i < cs.length) :
    ' ' ∈ cs.take (i + 1) ↔ nameLength cs ≤ i := by
  induction cs generalizing i with
  | nil => exact absurd inside (Nat.not_lt_zero i)
  | cons c cs ih =>
    rw [List.take_succ_cons, List.mem_cons]
    by_cases space : ' ' = c
    · simp [nameLength, ← space]
    · have longer : nameLength (c :: cs) = nameLength cs + 1 := by
        simp [nameLength, Ne.symm space]
      rw [longer]
      cases i with
      | zero => simp [space]
      | succ i =>
        have inside' : i < cs.length := Nat.lt_of_succ_lt_succ inside
        rw [ih inside', Nat.succ_le_succ_iff]
        exact or_iff_right space

/-- A character is drawn as part of the command's name if it stands in front of the first space. -/
theorem styleAt_eq_command_iff {e : Editor} {i : Nat} (inside : i < e.buffer.length) :
    e.styleAt i = .command ↔ i < (e.buffer.takeWhile (· != ' ')).length := by
  rw [← Nat.not_le, ← nameLength, ← space_mem_take_iff inside, styleAt]
  split
  · exact iff_of_false Style.noConfusion (not_not_intro ‹_›)
  · exact iff_of_true rfl ‹_›

/-- The cells of the command's name, and then those of the rest. -/
private theorem cells_eq (e : Editor) :
    e.cells = inked .command (e.buffer.take (nameLength e.buffer)) ++
      inked .argument (e.buffer.drop (nameLength e.buffer)) := by
  have stop := nameLength_le e.buffer
  apply List.ext_getElem?
  intro i
  rw [cells, List.getElem?_mapIdx, List.getElem?_append]
  simp only [inked, List.length_map, List.length_take, Nat.min_eq_left stop, List.getElem?_map,
    List.getElem?_take, List.getElem?_drop]
  by_cases inside : i < e.buffer.length
  · by_cases name : i < nameLength e.buffer
    · rw [if_pos name, if_pos name, styleAt, if_neg]
      rw [space_mem_take_iff inside]
      omega
    · rw [if_neg name, styleAt, if_pos, Nat.add_sub_cancel' (Nat.le_of_not_lt name)]
      rw [space_mem_take_iff inside]
      omega
  · have behind : e.buffer.length ≤ nameLength e.buffer + (i - nameLength e.buffer) := by omega
    rw [List.getElem?_eq_none (Nat.le_of_not_lt inside), List.getElem?_eq_none behind, if_neg]
    · rfl
    · omega

/-- A piece without text takes no cell. -/
private theorem cells_filter_isEmpty (pieces : List Piece) :
    (pieces.filter (!·.text.isEmpty)).flatMap Piece.cells = pieces.flatMap Piece.cells := by
  induction pieces with
  | nil => rfl
  | cons piece rest ih =>
    rw [List.flatMap_cons, ← ih, List.filter_cons]
    split
    · rw [List.flatMap_cons]
    · rename_i empty
      have none : piece.text = "" := by simpa using empty
      rw [Piece.cells, none]
      rfl

/-- What is drawn from an offset on are the line's cells from there on. -/
theorem cells_pieces (e : Editor) (start : Nat) :
    (e.pieces start).flatMap Piece.cells = e.cells.drop start := by
  have stop := nameLength_le e.buffer
  have drawn : (e.pieces start).flatMap Piece.cells =
      inked .command ((e.buffer.drop start).take (nameLength e.buffer - start)) ++
        inked .argument ((e.buffer.drop start).drop (nameLength e.buffer - start)) := by
    rw [pieces, cells_filter_isEmpty]
    simp only [List.flatMap_cons, List.flatMap_nil, Piece.cells, String.toList_ofList,
      List.append_nil, nameLength]
  rw [drawn, cells_eq, List.drop_append]
  simp only [inked, ← List.map_drop, List.length_map, List.length_take, Nat.min_eq_left stop,
    List.drop_take, List.drop_drop]
  congr 3
  omega

/-- Lines that begin alike look alike there. -/
theorem take_cells {e e' : Editor} {n : Nat} (same : e'.buffer.take n = e.buffer.take n) :
    e'.cells.take n = e.cells.take n := by
  apply List.ext_getElem?
  intro i
  rw [List.getElem?_take, List.getElem?_take]
  by_cases inside : i < n
  · have char : e'.buffer[i]? = e.buffer[i]? := by
      rw [← List.getElem?_take_of_lt inside, same, List.getElem?_take_of_lt inside]
    have start : e'.buffer.take (i + 1) = e.buffer.take (i + 1) := by
      have shorter : min (i + 1) n = i + 1 := Nat.min_eq_left inside
      rw [← shorter, ← List.take_take, same, List.take_take]
    rw [cells, cells, List.getElem?_mapIdx, List.getElem?_mapIdx, char, styleAt, styleAt, start]
  · rw [if_neg inside, if_neg inside]

end Editor

end LineConsole
