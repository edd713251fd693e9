import LineConsole.Proofs.Editor.Drawing
import LineConsole.Proofs.Screen.Journal

/-! # Whether a prompt is on the screen

An editor notes whether its prompt is shown. What it notes is so: whenever an action of it has
succeeded, the screen shows a prompt if and only if the editor says that it does. Only the prompt is
printed as one, and every new row that the editor begins leaves it behind.
-/

namespace LineConsole

/-- Nothing of a line is printed as a prompt. -/
theorem Editor.style_ne_prompt (e : Editor) (start : Nat) :
    ∀ piece ∈ e.pieces start, piece.style ≠ .prompt := by
  intro piece there
  have among := (List.mem_filter.mp there).1
  simp only [List.mem_cons, List.not_mem_nil, or_false] at among
  rcases among with rfl | rfl
  · exact nofun
  · exact nofun

namespace Session

variable {S α : Type} {shows : S → Prop} {s : Session S}

/-- The editor notes that its prompt is shown if and only if the screen shows one. -/
def Honest (shows : S → Prop) (s : Session S) : Prop :=
  shows s.screen ↔ s.editor.promptShown = true

/-- What the screen shows, and what the editor notes. -/
def shownAndNoted (shows : S → Prop) (s : Session S) : Prop × Bool :=
  (shows s.screen, s.editor.promptShown)

private theorem ensures_honest {action : Action (Session S) α}
    (keeps : Keeps (shownAndNoted shows) action) (honest : s.Honest shows) :
    Ensures action (fun _ => Honest shows) Whatever s := by
  refine keeps.ensures (fun _ s' same => ?_) fun _ _ _ => trivial
  obtain ⟨shown, noted⟩ := Prod.mk.inj same
  unfold Honest
  rwa [shown, noted]

private theorem onScreen_shownAndNoted {action : Action S α} (keeps : Keeps shows action) :
    Keeps (shownAndNoted shows) (onScreen action) := by
  intro s
  rw [ensures_onScreen]
  exact (keeps s.screen).imp (fun _ _ same => congrArg (·, s.editor.promptShown) same)
    fun _ _ same => congrArg (·, s.editor.promptShown) same

private theorem edit_shownAndNoted {change : Editor → Editor}
    (same : ∀ e, (change e).promptShown = e.promptShown) :
    Keeps (shownAndNoted shows) (edit change) :=
  keeps_modify fun s => congrArg (shows s.screen, ·) (same s.editor)

variable [Screen S] (tells : Screen.TellsPrompt shows)
include tells

/-! ## Keys that edit the line -/

private theorem moveToOffset_shownAndNoted (offset : Nat) :
    Keeps (shownAndNoted shows) (moveToOffset offset) :=
  keeps_bind keeps_get fun _ => onScreen_shownAndNoted (tells.moveTo _)

private theorem printAll_shownAndNoted {pieces : List Piece}
    (plain : ∀ piece ∈ pieces, piece.style ≠ .prompt) :
    Keeps (shownAndNoted shows) (printAll pieces) := by
  induction pieces with
  | nil => exact keeps_pure ()
  | cons piece rest ih =>
    obtain ⟨first, others⟩ := List.forall_mem_cons.mp plain
    exact keeps_bind (onScreen_shownAndNoted (tells.text _ _ first)) fun _ => ih others

private theorem redrawFrom_shownAndNoted (start stale : Nat) :
    Keeps (shownAndNoted shows) (redrawFrom start stale) := by
  refine keeps_bind (moveToOffset_shownAndNoted tells start) fun _ => keeps_bind keeps_get fun s =>
    keeps_bind (printAll_shownAndNoted tells (s.editor.style_ne_prompt start)) fun _ => ?_
  split
  · exact keeps_bind (onScreen_shownAndNoted (tells.text _ _ nofun)) fun _ =>
      keeps_bind keeps_get fun _ => moveToOffset_shownAndNoted tells _
  · exact keeps_bind keeps_get fun _ => moveToOffset_shownAndNoted tells _

private theorem insert_shownAndNoted (c : Char) : Keeps (shownAndNoted shows) (insert c) :=
  keeps_bind keeps_get fun _ => keeps_bind (edit_shownAndNoted fun _ => rfl) fun _ =>
    redrawFrom_shownAndNoted tells _ _

private theorem backspace_shownAndNoted (word : Bool) :
    Keeps (shownAndNoted shows) (backspace word) :=
  keeps_bind keeps_get fun _ => keeps_ite (keeps_pure ()) <|
    keeps_bind (edit_shownAndNoted fun _ => rfl) fun _ => redrawFrom_shownAndNoted tells _ _

private theorem delete_shownAndNoted (word : Bool) :
    Keeps (shownAndNoted shows) (delete word) :=
  keeps_bind keeps_get fun _ => keeps_ite (keeps_pure ()) <|
    keeps_bind (edit_shownAndNoted fun _ => rfl) fun _ => redrawFrom_shownAndNoted tells _ _

private theorem moveCursor_shownAndNoted (target : Nat) :
    Keeps (shownAndNoted shows) (moveCursor target) :=
  keeps_bind (edit_shownAndNoted fun _ => rfl) fun _ => moveToOffset_shownAndNoted tells _

private theorem walkHistory_shownAndNoted (step : History → Option String × History) :
    Keeps (shownAndNoted shows) (walkHistory step) := by
  refine keeps_bind keeps_get fun s => keeps_bind (keeps_modify fun _ => rfl) fun _ => ?_
  cases (step s.history).1 with
  | some line =>
    exact keeps_bind keeps_get fun _ => keeps_bind (edit_shownAndNoted fun _ => rfl) fun _ =>
      redrawFrom_shownAndNoted tells _ _
  | none => exact keeps_pure ()

private theorem note_shownAndNoted (record : LogRecord) :
    Keeps (shownAndNoted shows) (note record) :=
  keeps_modify fun s => congrArg (·, s.editor.promptShown) (tells.witness record s.screen)

private theorem flush_honest (honest : s.Honest shows) :
    Ensures (onScreen Screen.flush) (fun _ => Honest shows) Whatever s :=
  ensures_honest (onScreen_shownAndNoted tells.flush) honest

/-! ## Prompts -/

private theorem showPrompt_honest (s : Session S) :
    Ensures showPrompt (fun _ => Honest shows) Whatever s := by
  simp only [showPrompt, edit, ensures_bind, ensures_get, ensures_onScreen, ensures_modify]
  refine (tells.prompt s.editor.prompt s.screen).imp_ok fun _ screen shown => ?_
  refine (tells.cursor screen).imp (fun _ screen' same => ?_) fun _ _ _ => trivial
  exact iff_of_true (same ▸ shown) rfl

private theorem leaveLine_shows (s : Session S) :
    Ensures leaveLine (fun _ s' => ¬ shows s'.screen) Whatever s := by
  simp only [leaveLine, ensures_bind, ensures_get]
  refine (moveToOffset_keeps _).ensures (fun _ s' _ => ?_) fun _ _ _ => trivial
  exact ensures_onScreen.mpr (tells.newline s'.screen)

theorem start_honest (s : Session S) : Ensures start (fun _ => Honest shows) Whatever s := by
  simp only [start, ensures_bind]
  exact (showPrompt_honest tells s).imp_ok fun _ _ => flush_honest tells

theorem pause_honest (honest : s.Honest shows) :
    Ensures pause (fun _ => Honest shows) Whatever s := by
  simp only [pause, edit, ensures_bind, ensures_get, ensures_ite, ensures_modify]
  split
  · exact honest
  · split
    · refine (leaveLine_shows tells _).imp_ok fun _ s' hidden => ?_
      exact flush_honest tells (iff_of_false hidden Bool.false_ne_true)
    · exact flush_honest tells honest

private theorem enter_honest (s : Session S) :
    Ensures enter (fun _ => Honest shows) Whatever s := by
  simp only [enter, edit, ensures_bind, ensures_get, ensures_modify]
  refine (moveToOffset_keeps _).ensures (fun _ s' _ => ?_) fun _ _ _ => trivial
  rw [ensures_onScreen]
  refine (tells.newline s'.screen).imp_ok fun _ screen hidden => ?_
  rw [ensures_ite]
  split
  · exact showPrompt_honest tells _
  · refine ensures_honest (s := ⟨_, screen, s'.history⟩) ?_ (iff_of_false hidden Bool.false_ne_true)
    exact keeps_bind (note_shownAndNoted tells _) fun _ =>
      keeps_bind (onScreen_shownAndNoted tells.cursor) fun _ => edit_shownAndNoted fun _ => rfl

private theorem interrupt_honest (s : Session S) :
    Ensures interrupt (fun _ => Honest shows) Whatever s := by
  simp only [interrupt, edit, ensures_bind, ensures_modify]
  exact (leaveLine_shows tells s).imp_ok fun _ _ _ => showPrompt_honest tells _

/-- Only a key that leaves the line changes what the screen shows, and then the editor notes it. -/
private theorem apply_honest (event : KeyEvent) (honest : s.Honest shows) :
    Ensures (apply event) (fun _ => Honest shows) Whatever s := by
  unfold apply
  rw [ensures_ite]
  split
  · exact interrupt_honest tells s
  · simp only [ensures_bind, ensures_get]
    split
    · split
      · exact ensures_honest (insert_shownAndNoted tells _) honest
      · exact honest
    · exact ensures_honest (backspace_shownAndNoted tells _) honest
    · exact ensures_honest (delete_shownAndNoted tells _) honest
    · exact ensures_honest (moveCursor_shownAndNoted tells _) honest
    · exact ensures_honest (moveCursor_shownAndNoted tells _) honest
    · exact ensures_honest (moveCursor_shownAndNoted tells _) honest
    · exact ensures_honest (moveCursor_shownAndNoted tells _) honest
    · exact ensures_honest (walkHistory_shownAndNoted tells _) honest
    · exact ensures_honest (walkHistory_shownAndNoted tells _) honest
    · exact enter_honest tells s
    all_goals exact honest

private theorem replay_honest (queue : List KeyEvent) (honest : s.Honest shows) :
    Ensures (replay queue) (fun _ => Honest shows) Whatever s := by
  induction queue generalizing s with
  | nil => exact honest
  | cons event rest ih =>
    simp only [replay, edit, ensures_bind, ensures_get, ensures_ite, ensures_modify]
    split
    · exact honest
    · refine (apply_honest tells event ?_).imp_ok fun _ _ => ih
      exact honest

theorem resume_honest (honest : s.Honest shows) :
    Ensures resume (fun _ => Honest shows) Whatever s := by
  cases paused : s.editor.paused with
  | false => exact (ensures_resume_of_going paused).mpr honest
  | true =>
    refine ensures_resume_of_paused paused fun screen _ => ?_
    simp only [ensures_bind]
    refine (showPrompt_honest tells _).imp_ok fun _ _ shown => ?_
    refine (ensures_honest (redrawFrom_shownAndNoted tells 0 0) shown).imp_ok fun _ _ drawn => ?_
    exact (replay_honest tells s.editor.queue drawn).imp_ok fun _ _ => flush_honest tells

private theorem receive_honest (event : KeyEvent) (honest : s.Honest shows) :
    Ensures (receive event) (fun _ => Honest shows) Whatever s := by
  simp only [receive, edit, ensures_bind, ensures_get, ensures_ite, ensures_modify]
  split
  · exact honest
  · exact (apply_honest tells event honest).imp_ok fun _ _ => flush_honest tells

theorem handleKey_honest (event : KeyEvent) (honest : s.Honest shows) :
    Ensures (handleKey event) (fun _ => Honest shows) Whatever s := by
  simp only [handleKey, ensures_bind, ensures_get]
  split
  · exact receive_honest tells event honest
  · simp only [edit, ensures_bind, ensures_modify]
    split
    · exact receive_honest tells _ honest
    · exact honest
    · simp only [ensures_bind]
      refine (ensures_honest (onScreen_shownAndNoted tells.bell) ?_).imp_ok fun _ _ =>
        flush_honest tells
      exact honest

end Session

end LineConsole
