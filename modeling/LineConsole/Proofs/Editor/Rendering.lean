import LineConsole.Proofs.Editor.Pausing
import LineConsole.Proofs.Editor.Redrawing

/-! # The screen shows the line

On a screen in memory, an editor that edits has its line on the screen: every character in its cell,
nothing behind the line, and the cursor in its place. A held editor has left fresh cells, whatever
is printed meanwhile. Every key redraws enough for this to go on, however the line wraps. The line
must not hold a line feed, which no key can write, so the lines in the history must not either.
-/

namespace LineConsole

/-- No line holds a line feed. -/
def History.Visible (h : History) : Prop := ∀ line ∈ h.entries, '\n' ∉ line.toList

instance (h : History) : Decidable h.Visible :=
  inferInstanceAs (Decidable (∀ line ∈ h.entries, '\n' ∉ line.toList))

namespace Session

/-- What holds of a session on a screen of some width, held or not. -/
structure Tidy (width : Nat) (s : Session MemoryScreen) : Prop where
  positive : 0 < width
  width : s.screen.width = width
  visible : '\n' ∉ s.editor.buffer
  cursor : s.editor.cursor ≤ s.editor.buffer.length
  history : s.history.Visible

theorem Tidy.wide {width : Nat} {s : Session MemoryScreen} (tidy : s.Tidy width) :
    0 < s.screen.width := tidy.width ▸ tidy.positive

/-- Neither where the line begins nor what state the editor is in matters. -/
theorem Tidy.of_eq {width : Nat} {s s' : Session MemoryScreen} (tidy : s.Tidy width)
    (same : s'.screen.width = s.screen.width) (buffer : s'.editor.buffer = s.editor.buffer)
    (cursor : s'.editor.cursor = s.editor.cursor)
    (entries : s'.history.entries = s.history.entries) : s'.Tidy width := by
  refine ⟨tidy.positive, same.trans tidy.width, ?_, ?_, fun line there => ?_⟩
  · rw [buffer]
    exact tidy.visible
  · rw [buffer, cursor]
    exact tidy.cursor
  · exact tidy.history line (entries ▸ there)

theorem Tidy.of_empty {width : Nat} {s s' : Session MemoryScreen} (tidy : s.Tidy width)
    (same : s'.screen.width = s.screen.width) (empty : s'.editor.buffer = [])
    (home : s'.editor.cursor = 0) (history : s'.history = s.history) : s'.Tidy width := by
  refine ⟨tidy.positive, same.trans tidy.width, ?_, ?_, history ▸ tidy.history⟩
  · rw [empty]
    exact List.not_mem_nil
  · rw [home]
    exact Nat.zero_le _

/-- The editor edits, and its line is on the screen. -/
def Rendered (width : Nat) (s : Session MemoryScreen) : Prop :=
  s.Tidy width ∧ s.editor.IsEditing ∧ s.Shows

/-- A session between two moves. -/
def Sound (width : Nat) (s : Session MemoryScreen) : Prop :=
  s.Rendered width ∨ s.Tidy width ∧ s.editor.IsHeld ∧ s.screen.Fresh

section Keys

variable {width : Nat} {s : Session MemoryScreen} {failed : IoFault → Session MemoryScreen → Prop}

/-- A line that was edited behind `start` is rendered again by redrawing it from there. -/
private theorem redrawFrom_rendered {start stale : Nat} {e : Editor}
    (rendered : s.Rendered width) (mode : e.mode = s.editor.mode)
    (anchor : e.anchor = s.editor.anchor) (visible : '\n' ∉ e.buffer)
    (cursor : e.cursor ≤ e.buffer.length) (inside : start ≤ e.buffer.length)
    (same : e.buffer.take start = s.editor.buffer.take start)
    (covered : s.editor.buffer.length ≤ e.buffer.length + stale) :
    Ensures (redrawFrom start stale) (fun _ => Rendered width) failed
      ⟨e, s.screen, s.history⟩ := by
  obtain ⟨tidy, editing, shows⟩ := rendered
  obtain ⟨paused, shown, -, -⟩ := Editor.Mode.mk.inj mode
  apply ensures_redrawFrom_of_shows tidy.wide shows anchor visible inside same covered
  intro screen width' shows'
  exact ⟨⟨tidy.positive, width'.trans tidy.width, visible, cursor, tidy.history⟩,
    ⟨paused.trans editing.1, shown.trans editing.2⟩, shows'⟩

private theorem insert_rendered {c : Char} (rendered : s.Rendered width) (visible : c ≠ '\n') :
    Ensures (insert c) (fun _ => Rendered width) failed s := by
  have tidy := rendered.1
  simp only [insert, edit, ensures_bind, ensures_get, ensures_modify]
  refine redrawFrom_rendered (e := s.editor.insertChar c) rendered rfl rfl ?_ ?_ ?_ ?_ ?_
  · simp only [Editor.insertChar, List.mem_append, List.mem_cons, not_or]
    refine ⟨?_, Ne.symm visible, ?_⟩
    · exact mt List.mem_of_mem_take tidy.visible
    · exact mt List.mem_of_mem_drop tidy.visible
  · rw [Editor.length_insertChar]
    exact Nat.succ_le_succ tidy.cursor
  · rw [Editor.length_insertChar]
    exact Nat.le_succ_of_le tidy.cursor
  · exact List.take_left' (List.length_take_of_le tidy.cursor)
  · rw [Editor.length_insertChar]
    omega

/-- Taking characters out leaves as many cells to blank. -/
private theorem remove_rendered {start stop : Nat} (rendered : s.Rendered width)
    (ordered : start ≤ stop) (inside : stop ≤ s.editor.buffer.length) :
    Ensures (redrawFrom start (stop - start)) (fun _ => Rendered width) failed
      ⟨s.editor.remove start stop, s.screen, s.history⟩ := by
  have tidy := rendered.1
  have length := s.editor.length_remove ordered inside
  refine redrawFrom_rendered rendered rfl rfl ?_ ?_ ?_ ?_ ?_
  · simp only [Editor.remove, List.mem_append, not_or]
    exact ⟨mt List.mem_of_mem_take tidy.visible, mt List.mem_of_mem_drop tidy.visible⟩
  · rw [length]
    change start ≤ _
    omega
  · omega
  · exact List.take_left' (List.length_take_of_le (Nat.le_trans ordered inside))
  · omega

private theorem backspace_rendered (word : Bool) (rendered : s.Rendered width) :
    Ensures (backspace word) (fun _ => Rendered width) failed s := by
  simp only [backspace, edit, ensures_bind, ensures_get, ensures_ite, ensures_modify]
  split
  · exact rendered
  · exact remove_rendered rendered (s.editor.leftOf_le_cursor word) rendered.1.cursor

private theorem delete_rendered (word : Bool) (rendered : s.Rendered width) :
    Ensures (delete word) (fun _ => Rendered width) failed s := by
  simp only [delete, edit, ensures_bind, ensures_get, ensures_ite, ensures_modify]
  split
  · exact rendered
  · rename_i inside
    exact remove_rendered rendered (s.editor.cursor_le_rightOf word (Nat.lt_of_not_le inside))
      (s.editor.rightOf_le_length word)

private theorem moveCursor_rendered {target : Nat} (rendered : s.Rendered width)
    (inside : target ≤ s.editor.buffer.length) :
    Ensures (moveCursor target) (fun _ => Rendered width) failed s := by
  obtain ⟨tidy, editing, shows⟩ := rendered
  simp only [moveCursor, edit, ensures_bind, ensures_modify]
  refine ensures_moveToOffset tidy.wide fun screen width' cells next => ?_
  refine ⟨⟨tidy.positive, width'.trans tidy.width, tidy.visible, inside, tidy.history⟩, editing, ?_⟩
  simp only [Shows, origin, MemoryScreen.number, width', cells] at next ⊢
  exact ⟨shows.1, next⟩

private theorem recallLine_rendered {line : String} (rendered : s.Rendered width)
    (visible : '\n' ∉ line.toList) :
    Ensures (recallLine line) (fun _ => Rendered width) failed s := by
  simp only [recallLine, edit, ensures_bind, ensures_get, ensures_modify]
  refine redrawFrom_rendered (e := s.editor.replace line) rendered rfl rfl visible
    (Nat.le_refl _) (Nat.zero_le _) rfl ?_
  change _ ≤ line.toList.length + _
  omega

/-- Walking through the history leads to lines in it. -/
private theorem walkHistory_rendered {step : History → Option String × History}
    (rendered : s.Rendered width) (entries : (step s.history).2.entries = s.history.entries)
    (found : ∀ line, (step s.history).1 = some line → line ∈ s.history.entries) :
    Ensures (walkHistory step) (fun _ => Rendered width) failed s := by
  obtain ⟨tidy, editing, shows⟩ := rendered
  have walked : Rendered width { s with history := (step s.history).2 } :=
    ⟨tidy.of_eq rfl rfl rfl entries, editing, shows⟩
  simp only [walkHistory, ensures_bind, ensures_get, ensures_modify]
  cases led : (step s.history).1 with
  | none => exact walked
  | some line => exact recallLine_rendered walked (tidy.history line (found line led))

/-- A prompt on fresh cells is followed by an empty line. -/
theorem showPrompt_rendered (tidy : s.Tidy width) (fresh : s.screen.Fresh)
    (going : s.editor.paused = false) (empty : s.editor.buffer = [])
    (start : s.editor.cursor = 0) : Ensures showPrompt (fun _ => Rendered width) failed s := by
  apply ensures_showPrompt tidy.wide fresh
  intro anchor screen width' shows
  refine ⟨tidy.of_eq width' rfl rfl rfl, ⟨going, rfl⟩, ?_⟩
  rwa [← empty, ← start] at shows

private theorem interrupt_rendered (rendered : s.Rendered width) :
    Ensures interrupt (fun _ => Rendered width) failed s := by
  obtain ⟨tidy, editing, shows⟩ := rendered
  simp only [interrupt, leaveLine, edit, ensures_bind, ensures_get, ensures_modify]
  refine ensures_leave tidy.wide shows rfl fun screen width' fresh => ?_
  exact showPrompt_rendered (tidy.of_empty width' rfl rfl rfl) fresh editing.1 rfl rfl

theorem sound_of_rendered {action : Action (Session MemoryScreen) Unit}
    (rendered : Ensures action (fun _ => Rendered width) failed s) :
    Ensures action (fun _ => Sound width) failed s :=
  rendered.imp_ok fun _ _ => .inl

private theorem enter_sound (rendered : s.Rendered width) :
    Ensures enter (fun _ => Sound width) failed s := by
  obtain ⟨tidy, editing, shows⟩ := rendered
  simp only [enter, edit, ensures_bind, ensures_get, ensures_modify]
  refine ensures_leave tidy.wide shows rfl fun screen width' fresh => ?_
  have tidy' : Tidy width
      ⟨{ s.editor with buffer := [], cursor := 0, promptShown := false }, screen, s.history⟩ :=
    tidy.of_empty width' rfl rfl rfl
  rw [ensures_ite]
  split
  · exact sound_of_rendered (showPrompt_rendered tidy' fresh editing.1 rfl rfl)
  · exact .inr ⟨tidy'.of_eq rfl rfl rfl rfl, ⟨rfl, rfl⟩, fresh⟩

theorem apply_sound (event : KeyEvent) (rendered : s.Rendered width) :
    Ensures (apply event) (fun _ => Sound width) failed s := by
  have tidy := rendered.1
  unfold apply
  rw [ensures_ite]
  split
  · exact sound_of_rendered (interrupt_rendered rendered)
  · simp only [ensures_bind, ensures_get]
    split
    · split
      · rename_i c written
        exact sound_of_rendered (insert_rendered rendered (event.written_ne_newline written))
      · exact .inl rendered
    · exact sound_of_rendered (backspace_rendered _ rendered)
    · exact sound_of_rendered (delete_rendered _ rendered)
    · refine sound_of_rendered (moveCursor_rendered rendered ?_)
      exact Nat.le_trans (s.editor.leftOf_le_cursor _) tidy.cursor
    · exact sound_of_rendered (moveCursor_rendered rendered (s.editor.rightOf_le_length _))
    · exact sound_of_rendered (moveCursor_rendered rendered (Nat.zero_le _))
    · exact sound_of_rendered (moveCursor_rendered rendered (Nat.le_refl _))
    · exact sound_of_rendered (walkHistory_rendered rendered s.history.entries_previous
        s.history.mem_of_previous)
    · exact sound_of_rendered (walkHistory_rendered rendered s.history.entries_next
        s.history.mem_of_next)
    · exact enter_sound rendered
    all_goals exact .inl rendered

/-! ## Moves -/

/-- By induction on the queue: until a key in it enters a line, the session stays rendered. -/
private theorem replay_sound (queue : List KeyEvent) (sound : s.Sound width) :
    Ensures (replay queue) (fun _ => Sound width) failed s := by
  induction queue generalizing s with
  | nil => exact sound
  | cons event rest ih =>
    simp only [replay, ensures_bind, ensures_get]
    rcases sound with ⟨tidy, editing, shows⟩ | ⟨tidy, held, fresh⟩
    · rw [if_neg (Bool.eq_false_iff.mp editing.1)]
      simp only [edit, ensures_bind, ensures_modify]
      refine (apply_sound event ?rendered).imp_ok fun _ _ => ih
      case rendered => exact ⟨tidy.of_eq rfl rfl rfl rfl, editing, shows⟩
    · rw [if_pos held.1]
      exact .inr ⟨tidy, held, fresh⟩

/-- What resuming does once the editor is no longer paused: the line is drawn over an empty one. -/
theorem shown_anew_rendered (tidy : s.Tidy width) (fresh : s.screen.Fresh)
    (going : s.editor.paused = false) :
    Ensures showPrompt (fun _ s' => Ensures (redrawFrom 0 0) (fun _ => Rendered width) failed s')
      failed s := by
  apply ensures_showPrompt tidy.wide fresh
  intro anchor screen width' shows
  have empty : Rendered width ⟨{ s.editor with
      buffer := [], cursor := 0, anchor, promptShown := true }, screen, s.history⟩ :=
    ⟨tidy.of_empty width' rfl rfl rfl, ⟨going, rfl⟩, shows⟩
  exact redrawFrom_rendered (e := { s.editor with anchor, promptShown := true }) empty rfl rfl
    tidy.visible tidy.cursor (Nat.zero_le _) rfl (Nat.zero_le _)

theorem resume_sound (sound : s.Sound width) :
    Ensures resume (fun _ => Sound width) failed s := by
  rcases sound with ⟨tidy, editing, shows⟩ | ⟨tidy, held, fresh⟩
  · exact (ensures_resume_of_going editing.1).mpr (.inl ⟨tidy, editing, shows⟩)
  · refine ensures_resume_of_paused held.1 fun screen same => ?_
    obtain rfl : screen = s.screen := same.elim id fun ⟨_, same⟩ => same
    have tidy' : Tidy width { s with editor := { s.editor with paused := false } } :=
      tidy.of_eq rfl rfl rfl rfl
    simp only [ensures_bind]
    refine (shown_anew_rendered tidy' fresh rfl).imp_ok fun _ _ drawn => ?_
    refine drawn.imp_ok fun _ _ rendered => ?_
    exact (replay_sound s.editor.queue (.inl rendered)).imp_ok fun _ _ sound => sound

theorem pause_sound (sound : s.Sound width) :
    Ensures pause (fun _ => Sound width) failed s := by
  simp only [pause, ensures_bind, ensures_get]
  rcases sound with ⟨tidy, editing, shows⟩ | ⟨tidy, held, fresh⟩
  · rw [if_neg (Bool.eq_false_iff.mp editing.1)]
    simp only [edit, ensures_bind, ensures_modify]
    rw [if_pos editing.2]
    simp only [leaveLine, ensures_bind, ensures_get, ensures_modify]
    refine ensures_leave tidy.wide shows rfl fun screen width' fresh => ?_
    exact .inr ⟨tidy.of_eq width' rfl rfl rfl, ⟨rfl, rfl⟩, fresh⟩
  · rw [if_pos held.1]
    exact .inr ⟨tidy, held, fresh⟩

end Keys

end Session

end LineConsole
