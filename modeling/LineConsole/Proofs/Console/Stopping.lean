import LineConsole.Proofs.Console.Coherence
import LineConsole.Proofs.Editor.Reliable

/-! # What stops a worker

On a screen that never fails, the editor always does what it is asked for. So a run goes on until a
line stops it, because a command asked to leave or because handlers nest too deep, or until the input
fails.
-/

namespace LineConsole

/-- Polling the input succeeds in all of these turns. -/
def InputLasts (turns : List Turn) : Prop :=
  ∀ t ∈ turns, ∀ fault, t.polled ≠ some (.error fault)

namespace Worker

variable {H S : Type}

/-- The worker's screen is of this kind. -/
def On (kind : S → Prop) (w : Worker H S) : Prop := kind w.screen

variable {kind : S → Prop} {host : Host H} {depth : Nat} {w : Worker H S}

theorem onEditor_succeeds {action : Action (Session S) Unit}
    (succeeds : Succeeds (Session.On kind) action) :
    Succeeds (On (H := H) kind) (onEditor action) := by
  intro w on
  rw [ensures_onEditor_iff]
  exact (succeeds ⟨w.editor, w.screen, w.shell.history⟩ on).imp (fun _ _ on' => on')
    fun _ _ => False.elim

variable [Screen S] [Screen.Reliable kind]

theorem receive_succeeds (message : Message) : Succeeds (On (H := H) kind) (receive message) := by
  cases message with
  | pause =>
    refine succeeds_bind succeeds_get fun _ => ?_
    exact succeeds_ite
      (succeeds_bind (onEditor_succeeds Session.pause_succeeds) fun _ =>
        succeeds_modify fun _ on => on)
      (succeeds_modify fun _ on => on)
  | resume =>
    exact succeeds_bind (succeeds_modify fun _ on => on) fun _ =>
      succeeds_bind succeeds_get fun _ =>
        succeeds_ite (onEditor_succeeds Session.resume_succeeds) (succeeds_pure ())

theorem receiveAll_succeeds (messages : List Message) :
    Succeeds (On (H := H) kind) (receiveAll messages) := by
  induction messages with
  | nil => exact succeeds_pure ()
  | cons message rest ih => exact succeeds_bind (receive_succeeds message) fun _ => ih

theorem intake_succeeds (t : Turn) (on : w.On kind)
    (lasts : ∀ fault, t.polled ≠ some (.error fault)) :
    Ensures (intake t.messages t.polled) (fun _ => On kind) Impossible w := by
  simp only [intake, ensures_bind]
  apply (receiveAll_succeeds t.messages w on).imp_ok
  intro _ w' on'
  rcases polled : t.polled with _ | fault | event
  · exact on'
  · exact absurd polled (lasts fault)
  · exact onEditor_succeeds (Session.handleKey_succeeds event) w' on'

theorem runTaken_stops {line : String} (on : w.On kind) :
    Ensures (runTaken host depth line) (fun _ => On kind) (fun stop _ => stop.ByLine) w := by
  simp only [runTaken, ensures_bind, ensures_get, ensures_ite]
  refine ensures_runLine (fun shell _ => ?_) fun _ _ _ byLine => byLine
  have on' : On kind { w with shell } := on
  split
  · exact (onEditor_succeeds Session.resume_succeeds _ on').imp (fun _ _ on => on)
      fun _ _ => False.elim
  · exact on'

theorem runLines_stops (fuel : Nat) (on : w.On kind) :
    Ensures (runLines host depth fuel) (fun _ => On kind) (fun stop _ => stop.ByLine) w := by
  induction fuel generalizing w with
  | zero => exact on
  | succ fuel ih =>
    simp only [runLines, ensures_bind, ensures_get]
    rcases w.editor.takeLine with ⟨_ | line, editor⟩
    · exact on
    · simp only [ensures_bind, ensures_modify]
      have on' : On kind { w with editor } := on
      exact (runTaken_stops on').imp_ok fun _ _ => ih

theorem turn_stops (t : Turn) (on : w.On kind) (lasts : ∀ fault, t.polled ≠ some (.error fault)) :
    Ensures (turn host depth t.messages t.polled) (fun _ => On kind) (fun stop _ => stop.ByLine)
      w := by
  simp only [turn, runCommitted, ensures_bind, ensures_get]
  exact (intake_succeeds t on lasts).imp (fun _ _ on' => runLines_stops _ on') fun _ _ => False.elim

theorem loop_stops (turns : List Turn) (on : w.On kind) (lasts : InputLasts turns) :
    Ensures (loop host depth turns) (fun _ => On kind) (fun stop _ => stop.ByLine) w := by
  induction turns generalizing w with
  | nil => exact on
  | cons t rest ih =>
    obtain ⟨now, later⟩ := List.forall_mem_cons.mp lasts
    simp only [loop, ensures_bind]
    exact (turn_stops t on now).imp_ok fun _ _ on' => ih on' later

omit [Screen.Reliable kind] in
/-- While screen and input last, only a line stops a run. -/
theorem eventLoop_stops (turns : List Turn) (reliable : Screen.NeverFails w.screen)
    (lasts : InputLasts turns) :
    Ensures (eventLoop host depth turns) (fun _ _ => True) (fun stop _ => stop.ByLine) w := by
  obtain ⟨kind, _, on⟩ := reliable
  have began : Succeeds (On (H := H) kind) (onEditor Session.start) :=
    onEditor_succeeds Session.start_succeeds
  simp only [eventLoop, ensures_bind]
  refine (began w on).imp (fun _ w' on' => ?_) fun _ _ => False.elim
  exact (loop_stops turns on' lasts).imp_ok fun _ _ _ => trivial

end Worker

end LineConsole
