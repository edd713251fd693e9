import LineConsole.Proofs.Editor.Drawing
import LineConsole.Screen.Journal
import LineConsole.Screen.Memory

/-! # Editing on a screen that never fails

The calls of the screen are all of an editor's work that can fail. On a screen that never fails,
every key is handled and every pause and resume takes place.
-/

namespace LineConsole

/-- On a screen of this kind every call succeeds and leaves a screen of this kind. -/
class Screen.Reliable {S : Type} [Screen S] (kind : S → Prop) : Prop where
  cursor : Succeeds kind (Screen.cursor : Action S Position)
  moveTo : ∀ position, Succeeds kind (Screen.moveTo position : Action S Unit)
  print : ∀ text style, Succeeds kind (Screen.print text style : Action S Unit)
  newline : Succeeds kind (Screen.newline : Action S Unit)
  bell : Succeeds kind (Screen.bell : Action S Unit)
  flush : Succeeds kind (Screen.flush : Action S Unit)
  witness : ∀ record screen, kind screen → kind (Screen.witness record screen)

/-- No call fails, whatever was called on the screen before. -/
def Screen.NeverFails {S : Type} [Screen S] (screen : S) : Prop :=
  ∃ kind : S → Prop, Screen.Reliable kind ∧ kind screen

theorem MemoryScreen.neverFails (screen : MemoryScreen) : Screen.NeverFails screen := by
  refine ⟨fun _ => True, ?_, trivial⟩
  exact
    { cursor := fun _ _ => trivial
      moveTo := fun _ _ _ => trivial
      print := fun _ _ _ _ => trivial
      newline := fun _ _ => trivial
      bell := fun _ _ => trivial
      flush := fun _ _ => trivial
      witness := fun _ _ _ => trivial }

/-- Watching a screen that never fails, with no call set to fail. -/
theorem WatchedScreen.neverFails {S : Type} [Screen S] {screen : S}
    (never : Screen.NeverFails screen) : Screen.NeverFails (WatchedScreen.ofScreen screen 0) := by
  obtain ⟨kind, reliable, on⟩ := never
  have passes {α : Type} (call : ScreenCall) {action : Action S α} (succeeds : Succeeds kind action) :
      Succeeds (fun w : WatchedScreen S => w.failing = 0 ∧ kind w.screen) (pass call action) := by
    rintro w ⟨none, on⟩
    have ran := succeeds w.screen on
    unfold Ensures at ran
    unfold Ensures pass
    simp only [none, Nat.succ_ne_zero, ↓reduceIte]
    cases result : action w.screen with
    | ok a screen =>
      rw [result] at ran
      exact ⟨rfl, ran⟩
    | error fault screen => rwa [result] at ran
  refine ⟨fun w => w.failing = 0 ∧ kind w.screen, ?_, rfl, on⟩
  exact
    { cursor := passes _ reliable.cursor
      moveTo := fun position => passes _ (reliable.moveTo position)
      print := fun text style => passes _ (reliable.print text style)
      newline := passes _ reliable.newline
      bell := passes _ reliable.bell
      flush := passes _ reliable.flush
      witness := fun _ _ on => on }

namespace Session

variable {S α : Type}

/-- The session's screen is of this kind. -/
def On (kind : S → Prop) (s : Session S) : Prop := kind s.screen

variable {kind : S → Prop}

theorem onScreen_succeeds {action : Action S α} (succeeds : Succeeds kind action) :
    Succeeds (On kind) (onScreen action) := by
  intro s on
  rw [ensures_onScreen]
  exact succeeds s.screen on

theorem edit_succeeds (change : Editor → Editor) : Succeeds (On kind) (edit change) :=
  succeeds_modify fun _ on => on

variable [Screen S] [Screen.Reliable kind]

open Screen.Reliable

theorem note_succeeds (record : LogRecord) : Succeeds (On kind) (note record) :=
  succeeds_modify fun _ on => witness _ _ on

theorem moveToOffset_succeeds (offset : Nat) : Succeeds (On kind) (moveToOffset offset) :=
  succeeds_bind succeeds_get fun _ => onScreen_succeeds (moveTo _)

theorem printAll_succeeds (pieces : List Piece) : Succeeds (On kind) (printAll pieces) := by
  induction pieces with
  | nil => exact succeeds_pure ()
  | cons piece rest ih => exact succeeds_bind (onScreen_succeeds (print _ _)) fun _ => ih

theorem redrawFrom_succeeds (start stale : Nat) : Succeeds (On kind) (redrawFrom start stale) := by
  have moves : Succeeds (On kind)
      (do moveToOffset (← get).editor.cursor : Action (Session S) Unit) :=
    succeeds_bind succeeds_get fun _ => moveToOffset_succeeds _
  refine succeeds_bind (moveToOffset_succeeds start) fun _ => succeeds_bind succeeds_get fun _ =>
    succeeds_bind (printAll_succeeds _) fun _ => ?_
  exact succeeds_ite (succeeds_bind (onScreen_succeeds (print _ _)) fun _ => moves) moves

theorem showPrompt_succeeds : Succeeds (On kind) showPrompt :=
  succeeds_bind succeeds_get fun _ => succeeds_bind (onScreen_succeeds (print _ _)) fun _ =>
    succeeds_bind (onScreen_succeeds cursor) fun _ => edit_succeeds _

theorem leaveLine_succeeds : Succeeds (On kind) leaveLine :=
  succeeds_bind succeeds_get fun _ => succeeds_bind (moveToOffset_succeeds _) fun _ =>
    onScreen_succeeds newline

theorem start_succeeds : Succeeds (On kind) start :=
  succeeds_bind showPrompt_succeeds fun _ => onScreen_succeeds flush

theorem pause_succeeds : Succeeds (On kind) pause := by
  refine succeeds_bind succeeds_get fun _ => succeeds_ite (succeeds_pure ()) <|
    succeeds_bind (edit_succeeds _) fun _ => ?_
  refine succeeds_ite (succeeds_bind leaveLine_succeeds fun _ => ?_) (onScreen_succeeds flush)
  exact succeeds_bind (edit_succeeds _) fun _ => onScreen_succeeds flush

theorem moveCursor_succeeds (target : Nat) : Succeeds (On kind) (moveCursor target) :=
  succeeds_bind (edit_succeeds _) fun _ => moveToOffset_succeeds _

theorem insert_succeeds (c : Char) : Succeeds (On kind) (insert c) :=
  succeeds_bind succeeds_get fun _ => succeeds_bind (edit_succeeds _) fun _ =>
    redrawFrom_succeeds _ _

theorem backspace_succeeds (word : Bool) : Succeeds (On kind) (backspace word) :=
  succeeds_bind succeeds_get fun _ => succeeds_ite (succeeds_pure _) <|
    succeeds_bind (edit_succeeds _) fun _ => redrawFrom_succeeds _ _

theorem delete_succeeds (word : Bool) : Succeeds (On kind) (delete word) :=
  succeeds_bind succeeds_get fun _ => succeeds_ite (succeeds_pure _) <|
    succeeds_bind (edit_succeeds _) fun _ => redrawFrom_succeeds _ _

theorem walkHistory_succeeds (step : History → Option String × History) :
    Succeeds (On kind) (walkHistory step) := by
  refine succeeds_bind succeeds_get fun s => succeeds_bind (succeeds_modify fun _ on => on) fun _ => ?_
  cases (step s.history).1 with
  | none => exact succeeds_pure _
  | some line =>
    exact succeeds_bind succeeds_get fun _ => succeeds_bind (edit_succeeds _) fun _ =>
      redrawFrom_succeeds _ _

theorem enter_succeeds : Succeeds (On kind) enter := by
  refine succeeds_bind succeeds_get fun _ => succeeds_bind (edit_succeeds _) fun _ =>
    succeeds_bind (moveToOffset_succeeds _) fun _ =>
    succeeds_bind (onScreen_succeeds newline) fun _ => succeeds_bind (edit_succeeds _) fun _ =>
    succeeds_ite showPrompt_succeeds ?_
  exact succeeds_bind (note_succeeds _) fun _ => succeeds_bind (onScreen_succeeds cursor) fun _ =>
    edit_succeeds _

theorem interrupt_succeeds : Succeeds (On kind) interrupt :=
  succeeds_bind leaveLine_succeeds fun _ => succeeds_bind (edit_succeeds _) fun _ =>
    showPrompt_succeeds

theorem apply_succeeds (event : KeyEvent) : Succeeds (On kind) (apply event) := by
  refine succeeds_ite interrupt_succeeds (succeeds_bind succeeds_get fun _ => ?_)
  cases event.key with
  | char =>
    cases event.written? with
    | none => exact succeeds_pure ()
    | some c => exact insert_succeeds c
  | backspace => exact backspace_succeeds _
  | delete => exact delete_succeeds _
  | left | right | home | endOfLine => exact moveCursor_succeeds _
  | up | down => exact walkHistory_succeeds _
  | enter => exact enter_succeeds
  | tab | escape | other => exact succeeds_pure ()

theorem replay_succeeds (queue : List KeyEvent) : Succeeds (On kind) (replay queue) := by
  induction queue with
  | nil => exact succeeds_pure ()
  | cons event rest ih =>
    exact succeeds_bind succeeds_get fun _ => succeeds_ite (succeeds_pure ()) <|
      succeeds_bind (edit_succeeds _) fun _ => succeeds_bind (apply_succeeds event) fun _ => ih

theorem resume_succeeds : Succeeds (On kind) resume := by
  have shownAnew (queue : List KeyEvent) : Succeeds (On kind)
      (do showPrompt; redrawFrom 0 0; replay queue; onScreen Screen.flush :
        Action (Session S) Unit) :=
    succeeds_bind showPrompt_succeeds fun _ => succeeds_bind (redrawFrom_succeeds _ _) fun _ =>
      succeeds_bind (replay_succeeds queue) fun _ => onScreen_succeeds flush
  refine succeeds_bind succeeds_get fun _ => succeeds_ite (succeeds_pure ()) <|
    succeeds_bind (edit_succeeds _) fun _ => ?_
  exact succeeds_ite (succeeds_bind (note_succeeds _) fun _ => shownAnew _) (shownAnew _)

theorem receive_succeeds (event : KeyEvent) : Succeeds (On kind) (receive event) :=
  succeeds_bind succeeds_get fun _ => succeeds_ite (edit_succeeds _) <|
    succeeds_bind (apply_succeeds event) fun _ => onScreen_succeeds flush

theorem handleKey_succeeds (event : KeyEvent) : Succeeds (On kind) (handleKey event) := by
  unfold handleKey
  refine succeeds_bind succeeds_get fun s => ?_
  split
  · exact receive_succeeds event
  · refine succeeds_bind (edit_succeeds _) fun _ => ?_
    split
    · exact receive_succeeds _
    · exact succeeds_pure ()
    · exact succeeds_bind (onScreen_succeeds bell) fun _ => onScreen_succeeds flush

end Session

end LineConsole
