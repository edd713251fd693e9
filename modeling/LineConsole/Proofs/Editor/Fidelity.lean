import LineConsole.Proofs.Editor.Rendering

/-! # What is seen of an editor

A session on a screen in memory goes on by keys, pauses and resumes, by output that others write
while the editor is paused, by lines taken from it and by changes of the history. Whatever the
order, no move fails, and whenever the editor is not paused its line is seen as it is.
-/

namespace LineConsole

namespace Session

/-- What can happen to a session. -/
inductive Move where
  | key (event : KeyEvent)
  | pause
  | resume
  | print (text : String) (style : Style)
  | newline
  /-- A line that was entered is taken. -/
  | take
  /-- From now on the editor walks through this history. -/
  | swap (history : History)

/-- No move brings a line with a line feed into the history. -/
def Move.Visible : Move → Prop
  | .swap history => history.Visible
  | _ => True

instance : DecidablePred Move.Visible
  | .swap history => inferInstanceAs (Decidable history.Visible)
  | .key _ | .pause | .resume | .print _ _ | .newline | .take => isTrue trivial

/-- Makes a move. Output is written only while the editor is paused. -/
def perform : Move → Action (Session MemoryScreen) Unit
  | .key event => handleKey event
  | .pause => pause
  | .resume => resume
  | .print text style => do
    if (← get).editor.paused then onScreen (Screen.print text style)
  | .newline => do
    if (← get).editor.paused then onScreen Screen.newline
  | .take => edit fun e => e.takeLine.2
  | .swap history => modify fun s => { s with history }

def performAll : List Move → Action (Session MemoryScreen) Unit
  | [] => pure ()
  | move :: rest => do
    perform move
    performAll rest

/-- Begins editing and goes through the moves. -/
def play (moves : List Move) : Action (Session MemoryScreen) Unit := do
  start
  performAll moves

/-- What is seen is what the editor holds: each character in its cell behind the anchor, a command's
name apart from its arguments, nothing behind the line, and the cursor. -/
structure Faithful (s : Session MemoryScreen) : Prop where
  cursor_le : s.editor.cursor ≤ s.editor.buffer.length
  line : ∀ i, (inside : i < s.editor.buffer.length) →
    s.screen.cell? (s.screen.place (s.origin + i)) =
      some ⟨s.editor.buffer[i], if ' ' ∈ s.editor.buffer.take (i + 1) then .argument else .command⟩
  behind : ∀ k, s.origin + s.editor.buffer.length ≤ k →
    (s.screen.cell? (s.screen.place k)).getD MemoryScreen.blank = MemoryScreen.blank
  cursor : Screen.cursor s.screen = .ok (s.screen.place (s.origin + s.editor.cursor)) s.screen

private theorem styleAt_ne_plain (e : Editor) (i : Nat) : e.styleAt i ≠ .plain := by
  rw [Editor.styleAt]
  split <;> decide

/-- A cell that shows anything in a style of its own was written. -/
private theorem cell?_of_cellAt {t : MemoryScreen} {k : Nat} {c : Char} {style : Style}
    (shown : t.cellAt k = ⟨c, style⟩) (styled : style ≠ .plain) :
    t.cell? (t.place k) = some ⟨c, style⟩ := by
  rw [MemoryScreen.cellAt] at shown
  cases there : t.cell? (t.place k) with
  | none =>
    rw [there] at shown
    exact absurd (congrArg Cell.style shown).symm styled
  | some cell =>
    rw [there] at shown
    exact congrArg some shown

theorem faithful_of_rendered {width : Nat} {s : Session MemoryScreen}
    (rendered : s.Rendered width) : s.Faithful := by
  obtain ⟨tidy, -, cells, next⟩ := rendered
  refine ⟨tidy.cursor, fun i inside => ?_, fun k behind => ?_, ?_⟩
  · have shown := cells (s.origin + i) (Nat.le_add_right _ _)
    rw [Nat.add_sub_cancel_left, Editor.cells, List.getElem?_mapIdx,
      List.getElem?_eq_getElem inside] at shown
    exact cell?_of_cellAt shown (styleAt_ne_plain s.editor i)
  · have shown := cells k (by omega)
    rwa [List.getElem?_eq_none (by rw [Editor.length_cells]; omega)] at shown
  · have inside := MemoryScreen.effective_col_lt tidy.wide
    have caret : s.screen.place s.screen.next = s.screen.effective :=
      (MemoryScreen.place_eq_iff inside).mpr rfl
    rw [← next, caret]
    rfl

section Moves

variable {width : Nat} {s : Session MemoryScreen} {failed : IoFault → Session MemoryScreen → Prop}

theorem start_sound (tidy : s.Tidy width) (fresh : s.screen.Fresh)
    (going : s.editor.paused = false) (empty : s.editor.buffer = []) (home : s.editor.cursor = 0) :
    Ensures start (fun _ => Sound width) failed s := by
  simp only [start, ensures_bind]
  exact sound_of_rendered (showPrompt_rendered tidy fresh going empty home)

/-- An editor that has not begun, on an empty screen. -/
theorem tidy_new (width : Nat) (prompt : String) (rawInput : Bool) {history : History}
    (visible : history.Visible) :
    Tidy (max width 1) ⟨Editor.new prompt rawInput, .ofWidth width, history⟩ :=
  ⟨Nat.lt_of_lt_of_le Nat.one_pos (Nat.le_max_right _ _), rfl, List.not_mem_nil, Nat.le_refl _,
    visible⟩

private theorem receive_sound (event : KeyEvent) (sound : s.Sound width) :
    Ensures (receive event) (fun _ => Sound width) failed s := by
  simp only [receive, ensures_bind, ensures_get]
  rcases sound with ⟨tidy, editing, shows⟩ | ⟨tidy, held, fresh⟩
  · rw [if_neg (Bool.eq_false_iff.mp editing.1), ensures_bind]
    exact (apply_sound event ⟨tidy, editing, shows⟩).imp_ok fun _ _ sound => sound
  · rw [if_pos held.1]
    exact .inr ⟨tidy.of_eq rfl rfl rfl rfl, held, fresh⟩

theorem Sound.tidy (sound : s.Sound width) : s.Tidy width := sound.elim (·.1) (·.1)

/-- A change of the editor that leaves its line, place and state alone keeps what is seen. -/
theorem Sound.of_editor {e : Editor} (sound : s.Sound width)
    (buffer : e.buffer = s.editor.buffer) (cursor : e.cursor = s.editor.cursor)
    (anchor : e.anchor = s.editor.anchor) (paused : e.paused = s.editor.paused)
    (shown : e.promptShown = s.editor.promptShown) : Sound width { s with editor := e } := by
  have tidy : Tidy width { s with editor := e } := sound.tidy.of_eq rfl buffer cursor rfl
  rcases sound with ⟨-, editing, cells, next⟩ | ⟨-, held, fresh⟩
  · refine .inl ⟨tidy, ⟨paused.trans editing.1, shown.trans editing.2⟩, ?_⟩
    have line : e.cells = s.editor.cells := by
      simp only [Editor.cells, Editor.styleAt, buffer]
    simp only [Shows, origin, anchor, line, cursor]
    exact ⟨cells, next⟩
  · exact .inr ⟨tidy, ⟨paused.trans held.1, shown.trans held.2⟩, fresh⟩

/-- Output on the fresh cells that a held editor left is followed by fresh cells. -/
private theorem Sound.of_output {screen : MemoryScreen} (sound : s.Sound width)
    (paused : s.editor.paused = true) (same : screen.width = s.screen.width)
    (fresh : s.screen.Fresh → screen.Fresh) : Sound width { s with screen } := by
  rcases sound with ⟨-, editing, -⟩ | ⟨tidy, held, before⟩
  · exact absurd (editing.1.symm.trans paused) Bool.false_ne_true
  · exact .inr ⟨tidy.of_eq same rfl rfl rfl, held, fresh before⟩

theorem handleKey_sound (event : KeyEvent) (sound : s.Sound width) :
    Ensures (handleKey event) (fun _ => Sound width) failed s := by
  simp only [handleKey, ensures_bind, ensures_get]
  cases s.editor.decoder with
  | none => exact receive_sound event sound
  | some decoder =>
    have fed : Sound width
        { s with editor := { s.editor with decoder := (decoder.feed event).2 } } :=
      sound.of_editor rfl rfl rfl rfl rfl
    simp only [edit, ensures_bind, ensures_modify]
    split
    · exact receive_sound _ fed
    · exact fed
    · rcases fed with ⟨tidy, editing, shows⟩ | ⟨tidy, held, fresh⟩
      · exact .inl ⟨tidy.of_eq rfl rfl rfl rfl, editing, shows⟩
      · exact .inr ⟨tidy.of_eq rfl rfl rfl rfl, held, fresh⟩

theorem perform_sound (move : Move) (visible : move.Visible)
    (sound : s.Sound width) : Ensures (perform move) (fun _ => Sound width) failed s := by
  cases move with
  | key event => exact handleKey_sound event sound
  | pause => exact pause_sound sound
  | resume => exact resume_sound sound
  | print text style =>
    simp only [perform, ensures_bind, ensures_get, ensures_ite]
    split
    · exact sound.of_output ‹_› MemoryScreen.width_print (MemoryScreen.fresh_print sound.tidy.wide)
    · exact sound
  | newline =>
    simp only [perform, ensures_bind, ensures_get, ensures_ite]
    split
    · exact sound.of_output ‹_› rfl (MemoryScreen.fresh_newline sound.tidy.wide)
    · exact sound
  | take =>
    change Sound width { s with editor := s.editor.takeLine.2 }
    rw [Editor.takeLine_snd]
    exact sound.of_editor rfl rfl rfl rfl rfl
  | swap history =>
    rcases sound with ⟨tidy, editing, shows⟩ | ⟨tidy, held, fresh⟩
    · exact .inl ⟨⟨tidy.positive, tidy.width, tidy.visible, tidy.cursor, visible⟩, editing, shows⟩
    · exact .inr ⟨⟨tidy.positive, tidy.width, tidy.visible, tidy.cursor, visible⟩, held, fresh⟩

theorem performAll_sound (moves : List Move) (visible : ∀ move ∈ moves, move.Visible)
    (sound : s.Sound width) : Ensures (performAll moves) (fun _ => Sound width) failed s := by
  induction moves generalizing s with
  | nil => exact sound
  | cons move rest ih =>
    obtain ⟨first, others⟩ := List.forall_mem_cons.mp visible
    simp only [performAll, ensures_bind]
    exact (perform_sound move first sound).imp_ok fun _ _ => ih others

end Moves

/-- Nothing fails for an editor that begins on an empty screen. -/
theorem play_sound (width : Nat) (prompt : String) (rawInput : Bool) {history : History}
    {moves : List Move} (historyVisible : history.Visible)
    (movesVisible : ∀ move ∈ moves, move.Visible) :
    ∃ s, play moves ⟨Editor.new prompt rawInput, .ofWidth width, history⟩ = .ok () s ∧
      s.Sound (max width 1) := by
  refine (ensures_impossible_iff.mp ?_).elim fun _ played => played
  simp only [play, ensures_bind]
  exact (start_sound (tidy_new width prompt rawInput historyVisible)
    (MemoryScreen.fresh_ofWidth width) rfl rfl rfl).imp_ok
      fun _ _ => performAll_sound moves movesVisible

/-- What is not paused is seen as it is. -/
theorem Sound.faithful {width : Nat} {s : Session MemoryScreen} (sound : s.Sound width)
    (going : s.editor.paused = false) : s.Faithful := by
  rcases sound with rendered | ⟨-, held, -⟩
  · exact faithful_of_rendered rendered
  · exact absurd (going.symm.trans held.1) Bool.false_ne_true

/-- Whatever happens to an editor on a screen in memory of any width, nothing fails, and it is seen
as it is whenever it is not paused. -/
theorem play_faithful (width : Nat) (prompt : String) (rawInput : Bool) (history : History)
    (moves : List Move) (historyVisible : history.Visible)
    (movesVisible : ∀ move ∈ moves, move.Visible) :
    ∃ s, play moves ⟨Editor.new prompt rawInput, .ofWidth width, history⟩ = .ok () s ∧
      s.screen.width = max width 1 ∧ (s.editor.paused = false → s.Faithful) := by
  obtain ⟨s, played, sound⟩ := play_sound width prompt rawInput historyVisible movesVisible
  exact ⟨s, played, sound.tidy.width, sound.faithful⟩

/-- Typed over the end of a row, edited in the middle, held for output and shown anew. -/
def wrapped : List Move :=
  [.key (.ofChar 'a'), .key (.ofChar ' '), .key (.ofChar 'b'), .key (.ofChar 'c'),
    .key (.plain .left), .key (.plain .backspace), .pause, .print "x\ny" .info, .newline, .resume,
    .key (.ofChar 'd')]

theorem play_wrapped_faithful :
    ∃ s, play wrapped ⟨Editor.new "> " false, .ofWidth 4, ⟨["ls"], 1, 3⟩⟩ = .ok () s ∧
      s.editor.buffer = ['a', ' ', 'd', 'c'] ∧ s.Faithful := by
  have ran : ∃ s, play wrapped ⟨Editor.new "> " false, .ofWidth 4, ⟨["ls"], 1, 3⟩⟩ = .ok () s ∧
      s.editor.paused = false ∧ s.editor.buffer = ['a', ' ', 'd', 'c'] := by decide +kernel
  have known : History.Visible ⟨["ls"], 1, 3⟩ := by decide
  have unchanged : ∀ move ∈ wrapped, move.Visible := by decide
  obtain ⟨s, played, going, line⟩ := ran
  obtain ⟨s', played', -, faithful⟩ :=
    play_faithful 4 "> " false ⟨["ls"], 1, 3⟩ wrapped known unchanged
  cases played.symm.trans played'
  exact ⟨s, played, line, faithful going⟩

end Session

end LineConsole
