import LineConsole.Editor
import LineConsole.Proofs.Action

/-! # Drawing leaves the line alone

Drawing changes the screen and neither the editor nor its history, and editing in place changes the
line and its cursor and nothing that others see of the editor: whether it is paused, whether its
prompt is shown, what is queued and which lines wait. Both hold on every screen, also when a call of
it fails.
-/

namespace LineConsole

namespace Editor

/-- What others see of an editor. -/
structure Mode where
  paused : Bool
  promptShown : Bool
  queue : List KeyEvent
  committed : List String

def mode (e : Editor) : Mode := ⟨e.paused, e.promptShown, e.queue, e.committed⟩

/-- Takes keys and shows its prompt. -/
def IsEditing (e : Editor) : Prop := e.paused = false ∧ e.promptShown = true

/-- Queues keys and shows no prompt. -/
def IsHeld (e : Editor) : Prop := e.paused = true ∧ e.promptShown = false

end Editor

namespace Session

variable {S α : Type}

/-- All of a session but the screen. -/
def offScreen (s : Session S) : Editor × History := (s.editor, s.history)

def mode (s : Session S) : Editor.Mode := s.editor.mode

/-- What follows a drawing action that succeeded is asked of any screen. -/
theorem ensures_of_offScreen {action : Action (Session S) α} {ok : α → Session S → Prop}
    {s : Session S} (draws : Keeps offScreen action)
    (success : ∀ a screen, ok a { s with screen }) : Ensures action ok Whatever s := by
  refine draws.ensures (fun a s' same => ?_) fun _ _ _ => trivial
  obtain ⟨editor, screen, history⟩ := s'
  obtain ⟨rfl, rfl⟩ := Prod.mk.inj same
  exact success a screen

/-- A call of the screen comes to what it comes to on the screen alone. -/
theorem ensures_onScreen {action : Action S α} {ok : α → Session S → Prop}
    {failed : IoFault → Session S → Prop} {s : Session S} :
    Ensures (onScreen action) ok failed s ↔ Ensures action (fun a screen => ok a { s with screen })
      (fun fault screen => failed fault { s with screen }) s.screen := by
  unfold Ensures onScreen
  cases action s.screen <;> rfl

variable [Screen S]

omit [Screen S] in
theorem onScreen_keeps (action : Action S α) : Keeps offScreen (onScreen action) := by
  intro s
  unfold Ensures onScreen
  cases action s.screen <;> rfl

theorem note_keeps (record : LogRecord) : Keeps (offScreen (S := S)) (note record) :=
  keeps_modify fun _ => rfl

theorem moveToOffset_keeps (offset : Nat) : Keeps (offScreen (S := S)) (moveToOffset offset) :=
  keeps_bind keeps_get fun _ => onScreen_keeps _

theorem printAll_keeps (pieces : List Piece) : Keeps (offScreen (S := S)) (printAll pieces) := by
  induction pieces with
  | nil => exact keeps_pure ()
  | cons piece rest ih => exact keeps_bind (onScreen_keeps _) fun _ => ih

theorem redrawFrom_keeps (start stale : Nat) :
    Keeps (offScreen (S := S)) (redrawFrom start stale) := by
  refine keeps_bind (moveToOffset_keeps start) fun _ => keeps_bind keeps_get fun _ =>
    keeps_bind (printAll_keeps _) fun _ => ?_
  split
  · exact keeps_bind (onScreen_keeps _) fun _ => keeps_bind keeps_get fun _ => moveToOffset_keeps _
  · exact keeps_bind keeps_get fun _ => moveToOffset_keeps _

theorem showPrompt_ensures {ok : Unit → Session S → Prop} {s : Session S}
    (shown : ∀ anchor screen,
      ok () ⟨{ s.editor with anchor, promptShown := true }, screen, s.history⟩) :
    Ensures showPrompt ok Whatever s := by
  simp only [showPrompt, ensures_bind, ensures_get]
  apply ensures_of_offScreen (onScreen_keeps _)
  intro _ _
  exact ensures_of_offScreen (onScreen_keeps _) shown

theorem leaveLine_keeps : Keeps (offScreen (S := S)) leaveLine :=
  keeps_bind keeps_get fun _ => keeps_bind (moveToOffset_keeps _) fun _ => onScreen_keeps _

/-- An editor that is not paused has nothing to resume. -/
theorem ensures_resume_of_going {ok : Unit → Session S → Prop}
    {failed : IoFault → Session S → Prop} {s : Session S} (going : s.editor.paused = false) :
    Ensures resume ok failed s ↔ ok () s := by
  simp only [resume, ensures_bind, ensures_get]
  rw [if_pos (by simp [going]), ensures_pure]

/-- Resuming a paused editor shows its line anew and replays its queue; a screen that is watched may
have been told of that before. -/
theorem ensures_resume_of_paused {ok : Unit → Session S → Prop}
    {failed : IoFault → Session S → Prop} {s : Session S} (paused : s.editor.paused = true)
    (shown : ∀ screen, (screen = s.screen ∨ ∃ record, screen = Screen.witness record s.screen) →
      Ensures (do showPrompt; redrawFrom 0 0; replay s.editor.queue; onScreen Screen.flush) ok failed
        ⟨{ s.editor with paused := false }, screen, s.history⟩) : Ensures resume ok failed s := by
  simp only [resume, ensures_bind, ensures_get]
  rw [if_neg (by simp [paused]), ensures_bind, edit, ensures_modify, ensures_ite]
  split
  · rw [ensures_bind, note, ensures_modify]
    exact shown _ (.inr ⟨_, rfl⟩)
  · exact shown _ (.inl rfl)

end Session

end LineConsole
