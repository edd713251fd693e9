import LineConsole.Proofs.Editor.Typing

/-! # Pausing and resuming an editor

An editor either edits, with its prompt shown, or it is held, without. A key leaves an editor that
edits where it is, unless it enters a line: then the line waits and the editor is held. Resuming
goes on through the queue up to the first key that enters a line. Nothing is asked of the screen:
where a call of it fails, the action fails too.
-/

namespace LineConsole

namespace Editor

/-- After one key: no line was entered, or one was, which waits. -/
def Advances (e e' : Editor) : Prop :=
  e'.IsEditing ∧ e'.committed = e.committed ∨
    e'.IsHeld ∧ ∃ line, e'.committed = e.committed ++ [line]

/-- After the queue was replayed: all of it was, or some key in it entered a line, which waits. -/
def Replays (e e' : Editor) : Prop :=
  e'.IsEditing ∧ e'.committed = e.committed ∧ e'.queue = [] ∨
    e'.IsHeld ∧ (∃ line, e'.committed = e.committed ++ [line]) ∧
      e'.queue.length < e.queue.length

end Editor

namespace Session

variable {S : Type} [Screen S]

/-- After a key: at most one line was entered, and the queue is as it was. -/
def Advanced (s s' : Session S) : Prop :=
  s.editor.Advances s'.editor ∧ s'.editor.queue = s.editor.queue

theorem apply_advances (event : KeyEvent) {s : Session S} (editing : s.editor.IsEditing) :
    Ensures (apply event) (fun _ => s.Advanced) Whatever s := by
  apply (apply_presses event).imp_ok
  intro _ s' pressed
  have committed := pressed.committed
  cases entry : s.draft.entry? event with
  | none =>
    rw [entry, Option.toList_none, List.append_nil] at committed
    exact ⟨.inl ⟨pressed.edits editing entry, committed⟩, pressed.queue⟩
  | some line =>
    rw [entry] at committed
    have held : s'.editor.IsHeld := pressed.holds (Option.isSome_of_eq_some entry)
    exact ⟨.inr ⟨held, line, committed⟩, pressed.queue⟩

/-- By induction on the queue: a key in it either enters a line, and then the rest stays queued, or
leaves the editor where the rest is replayed from. -/
theorem replay_replays (queue : List KeyEvent) {s : Session S} (editing : s.editor.IsEditing)
    (queued : s.editor.queue = queue) :
    Ensures (replay queue) (fun _ s' => s.editor.Replays s'.editor) Whatever s := by
  induction queue generalizing s with
  | nil => exact .inl ⟨editing, rfl, queued⟩
  | cons event rest ih =>
    simp only [replay, ensures_bind, ensures_get]
    rw [if_neg (Bool.eq_false_iff.mp editing.1)]
    simp only [edit, ensures_bind, ensures_modify]
    refine (apply_advances event ?editing).imp_ok fun _ s' advanced => ?_
    case editing => exact editing
    obtain ⟨⟨editing', committed⟩ | ⟨held, entered⟩, left⟩ := advanced
    · apply (ih editing' left).imp_ok
      intro _ s'' replayed
      rcases replayed with ⟨editing'', committed', empty⟩ | ⟨held, ⟨line, entered⟩, shorter⟩
      · exact .inl ⟨editing'', committed'.trans committed, empty⟩
      · refine .inr ⟨held, ⟨line, entered.trans ?_⟩, ?_⟩
        · rw [committed]
        · rw [left] at shorter
          rw [queued, List.length_cons]
          exact Nat.lt_succ_of_lt shorter
    · have stays : s.editor.Replays s'.editor := by
        refine .inr ⟨held, entered, ?_⟩
        rw [left, queued, List.length_cons]
        exact Nat.lt_succ_self _
      cases rest with
      | nil => exact stays
      | cons event rest =>
        simp only [replay, ensures_bind, ensures_get]
        rw [if_pos held.1]
        exact stays

/-- Resuming a paused editor comes down to replaying its queue behind a new prompt. -/
theorem ensures_resume {ok : Unit → Session S → Prop} {s : Session S}
    (paused : s.editor.paused = true)
    (replayed : ∀ anchor (screen : S), Ensures (replay s.editor.queue)
      (fun _ s' => ∀ screen, ok () { s' with screen }) Whatever
      ⟨{ s.editor with paused := false, promptShown := true, anchor }, screen, s.history⟩) :
    Ensures resume ok Whatever s := by
  refine ensures_resume_of_paused paused fun _ _ => ?_
  simp only [ensures_bind]
  apply showPrompt_ensures
  intro anchor _
  apply ensures_of_offScreen (redrawFrom_keeps _ _)
  intro _ _
  apply (replayed anchor _).imp_ok
  intro _ _ holds
  exact ensures_of_offScreen (onScreen_keeps _) fun _ => holds

theorem resume_of_paused {s : Session S} (paused : s.editor.paused = true) :
    Ensures resume (fun _ s' => s.editor.Replays s'.editor) Whatever s := by
  apply ensures_resume paused
  intro _ _
  refine Ensures.imp_ok (replay_replays s.editor.queue ?editing rfl) fun _ _ replayed _ => ?_
  case editing => exact ⟨rfl, rfl⟩
  exact replayed

theorem resume_replays {s : Session S} (held : s.editor.IsHeld) :
    Ensures resume (fun _ s' => s.editor.Replays s'.editor) Whatever s :=
  resume_of_paused held.1

/-- An editor that is not paused has nothing to resume. -/
theorem resume_of_going {s : Session S} (going : s.editor.paused = false) :
    Ensures resume (fun _ s' => s' = s) Whatever s :=
  (ensures_resume_of_going going).mpr rfl

theorem resume_of_editing {s : Session S} (editing : s.editor.IsEditing) :
    Ensures resume (fun _ s' => s' = s) Whatever s :=
  resume_of_going editing.1

/-- Pausing holds the editor and touches neither its queue nor the lines that wait. -/
theorem pause_holds {s : Session S} (known : s.editor.IsEditing ∨ s.editor.IsHeld) :
    Ensures pause (fun _ s' => s'.editor.IsHeld ∧ s'.editor.queue = s.editor.queue ∧
      s'.editor.committed = s.editor.committed) Whatever s := by
  simp only [pause, ensures_bind, ensures_get]
  rcases known with editing | held
  · rw [if_neg (Bool.eq_false_iff.mp editing.1)]
    simp only [edit, ensures_bind, ensures_modify]
    rw [if_pos editing.2]
    simp only [ensures_bind]
    apply ensures_of_offScreen leaveLine_keeps
    intro _ _
    rw [ensures_modify]
    exact ensures_of_offScreen (onScreen_keeps _) fun _ _ => ⟨⟨rfl, rfl⟩, rfl, rfl⟩
  · rw [if_pos held.1]
    exact ⟨held, rfl, rfl⟩

private theorem receive_of_held (event : KeyEvent) {s : Session S} (held : s.editor.IsHeld) :
    Ensures (receive event) (fun _ s' => s'.editor.IsHeld ∧
      s'.editor.committed = s.editor.committed) Whatever s := by
  simp only [receive, ensures_bind, ensures_get]
  rw [if_pos held.1]
  exact ⟨held, rfl⟩

private theorem receive_of_editing (event : KeyEvent) {s : Session S}
    (editing : s.editor.IsEditing) : Ensures (receive event) (fun _ => s.Advanced) Whatever s := by
  simp only [receive, ensures_bind, ensures_get]
  rw [if_neg (Bool.eq_false_iff.mp editing.1)]
  simp only [ensures_bind]
  apply (apply_advances event editing).imp_ok
  intro _ s' advanced
  exact ensures_of_offScreen (onScreen_keeps _) fun _ _ => advanced

/-- A key event comes down to the key that it amounts to, if any; else only the decoder and the screen
change. -/
theorem ensures_handleKey {event : KeyEvent} {ok : Unit → Session S → Prop} {s : Session S}
    (received : ∀ key decoder, Ensures (receive key) ok Whatever
      { s with editor := { s.editor with decoder } })
    (dropped : ∀ decoder screen, ok () ⟨{ s.editor with decoder }, screen, s.history⟩) :
    Ensures (handleKey event) ok Whatever s := by
  simp only [handleKey, ensures_bind, ensures_get]
  split
  · exact received event s.editor.decoder
  · simp only [edit, ensures_bind, ensures_modify]
    split
    · exact received _ _
    · exact dropped _ _
    · simp only [ensures_bind]
      apply ensures_of_offScreen (onScreen_keeps _)
      intro _ _
      exact ensures_of_offScreen (onScreen_keeps _) fun _ _ => dropped _ _

/-- A held editor enters no line. -/
theorem handleKey_of_held (event : KeyEvent) {s : Session S} (held : s.editor.IsHeld) :
    Ensures (handleKey event) (fun _ s' => s'.editor.IsHeld ∧
      s'.editor.committed = s.editor.committed) Whatever s := by
  apply ensures_handleKey
  · intro key _
    exact receive_of_held key held
  · intro _ _
    exact ⟨held, rfl⟩

theorem handleKey_of_editing (event : KeyEvent) {s : Session S} (editing : s.editor.IsEditing) :
    Ensures (handleKey event) (fun _ => s.Advanced) Whatever s := by
  apply ensures_handleKey
  · intro key _
    exact receive_of_editing key editing
  · intro _ _
    exact ⟨.inl ⟨editing, rfl⟩, rfl⟩

/-- A fresh editor edits once it has shown its prompt. -/
theorem start_edits {s : Session S} (fresh : s.editor.paused = false) :
    Ensures start (fun _ s' => s'.editor.IsEditing ∧ s'.editor.queue = s.editor.queue ∧
      s'.editor.committed = s.editor.committed) Whatever s := by
  simp only [start, ensures_bind]
  apply showPrompt_ensures
  intro _ _
  exact ensures_of_offScreen (onScreen_keeps _) fun _ _ => ⟨⟨fresh, rfl⟩, rfl, rfl⟩

end Session

end LineConsole
