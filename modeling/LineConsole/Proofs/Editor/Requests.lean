import LineConsole.Proofs.Editor.Queueing
import LineConsole.Proofs.Editor.Reliable

/-! # Requests to an editor

Whoever owns an editor starts it, hands keys to it, pauses and resumes it and takes lines from it,
in any order. As long as no request fails, keys wait in the queue only while the editor is paused,
so a key that arrives overtakes none that waits.
-/

namespace LineConsole

/-- Keys wait only while the editor is paused. -/
def Editor.QueuesWhilePaused (e : Editor) : Prop := e.paused = false → e.queue = []

namespace Session

open KeyEvent

/-- What an owner asks of an editor. -/
inductive Request where
  | start
  | key (event : KeyEvent)
  | pause
  | resume
  /-- A line that was entered is taken. -/
  | take
  deriving DecidableEq, Repr

def Request.event? : Request → Option KeyEvent
  | .key event => some event
  | .start | .pause | .resume | .take => none

/-- The key events among the requests. -/
def events (requests : List Request) : List KeyEvent := requests.filterMap Request.event?

variable {S : Type} [Screen S]

def carryOut : Request → Action (Session S) Unit
  | .start => start
  | .key event => handleKey event
  | .pause => pause
  | .resume => resume
  | .take => edit fun e => e.takeLine.2

def carryOutAll : List Request → Action (Session S) Unit
  | [] => pure ()
  | request :: rest => do
    carryOut request
    carryOutAll rest

/-- An editor of which no request has failed so far. Meanwhile others may have written to its screen
and changed the history. -/
inductive InUse : Session S → Prop where
  | fresh (prompt : String) (rawInput : Bool) (screen : S) (history : History) :
    InUse ⟨Editor.new prompt rawInput, screen, history⟩
  | asked {s s' : Session S} (request : Request) (inUse : InUse s)
    (done : carryOut request s = .ok () s') : InUse s'
  | meanwhile {s : Session S} (screen : S) (history : History) (inUse : InUse s) :
    InUse { s with screen, history }

/-! ## Where keys wait -/

theorem pause_pauses {s : Session S} :
    Ensures pause (fun _ s' => s'.editor.paused = true) Whatever s := by
  simp only [pause, edit, ensures_bind, ensures_get, ensures_ite, ensures_modify]
  split
  · assumption
  · split
    · apply ensures_of_offScreen leaveLine_keeps
      intro _ _
      exact ensures_of_offScreen (onScreen_keeps _) fun _ _ => rfl
    · exact ensures_of_offScreen (onScreen_keeps _) fun _ _ => rfl

/-- A key that is applied stays out of the queue; only a line that it enters pauses the editor. -/
private theorem receive_of_going (key : KeyEvent) {s : Session S}
    (going : s.editor.paused = false) :
    Ensures (receive key) (fun _ s' => s'.editor.queue = s.editor.queue ∧
      (s'.editor.paused = true → s'.editor.committed ≠ s.editor.committed)) Whatever s := by
  simp only [receive, ensures_bind, ensures_get]
  rw [if_neg (Bool.eq_false_iff.mp going), ensures_bind]
  apply (apply_presses key).imp_ok
  intro _ s' pressed
  apply ensures_of_offScreen (onScreen_keeps _)
  intro _ _
  refine ⟨pressed.queue, fun paused => ?_⟩
  have entered : (s.draft.entry? key).isSome = true := by
    rw [← paused, pressed.paused, going, Bool.false_or]
  obtain ⟨line, entry⟩ := Option.isSome_iff_exists.mp entered
  rw [pressed.committed, entry]
  simp

theorem handleKey_of_going (event : KeyEvent) {s : Session S} (going : s.editor.paused = false) :
    Ensures (handleKey event) (fun _ s' => s'.editor.queue = s.editor.queue ∧
      (s'.editor.paused = true → s'.editor.committed ≠ s.editor.committed)) Whatever s := by
  apply ensures_handleKey
  · intro key _
    exact receive_of_going key going
  · intro _ _
    exact ⟨rfl, fun paused => absurd (going.symm.trans paused) Bool.false_ne_true⟩

theorem handleKey_of_paused (event : KeyEvent) {s : Session S} (paused : s.editor.paused = true) :
    Ensures (handleKey event) (fun _ s' => s'.editor.paused = true) Whatever s := by
  apply ensures_handleKey
  · intro key _
    simp only [receive, edit, ensures_bind, ensures_get]
    rw [if_pos paused]
    exact paused
  · intro _ _
    exact paused

theorem resume_queuesWhilePaused {s : Session S} (direct : s.editor.QueuesWhilePaused) :
    Ensures resume (fun _ s' => s'.editor.QueuesWhilePaused) Whatever s := by
  cases paused : s.editor.paused with
  | false =>
    apply (resume_of_going paused).imp_ok
    rintro _ _ rfl
    exact direct
  | true =>
    apply (resume_of_paused paused).imp_ok
    intro _ s' replays going
    rcases replays with ⟨-, -, empty⟩ | ⟨held, -, -⟩
    · exact empty
    · exact absurd (going.symm.trans held.1) Bool.false_ne_true

theorem carryOut_queuesWhilePaused (request : Request) {s : Session S}
    (direct : s.editor.QueuesWhilePaused) :
    Ensures (carryOut request) (fun _ s' => s'.editor.QueuesWhilePaused) Whatever s := by
  cases request with
  | start =>
    simp only [carryOut, start, ensures_bind]
    apply showPrompt_ensures
    intro _ _
    exact ensures_of_offScreen (onScreen_keeps _) fun _ _ => direct
  | key event =>
    cases paused : s.editor.paused with
    | false =>
      apply (handleKey_of_going event paused).imp_ok
      intro _ _ holds _
      exact holds.1.trans (direct paused)
    | true =>
      apply (handleKey_of_paused event paused).imp_ok
      intro _ _ paused' going
      exact absurd (going.symm.trans paused') Bool.false_ne_true
  | pause =>
    apply pause_pauses.imp_ok
    intro _ _ paused going
    exact absurd (going.symm.trans paused) Bool.false_ne_true
  | resume => exact resume_queuesWhilePaused direct
  | take =>
    change s.editor.takeLine.2.QueuesWhilePaused
    rw [Editor.takeLine_snd]
    exact direct

theorem InUse.queuesWhilePaused {s : Session S} (inUse : s.InUse) :
    s.editor.QueuesWhilePaused := by
  induction inUse with
  | fresh => exact fun _ => rfl
  | asked request _ done ih => exact (carryOut_queuesWhilePaused request ih).of_eq_ok done
  | meanwhile _ _ _ ih => exact ih

/-! ## What requests amount to -/

/-- All that counts of the requests are the keys, as long as no line is taken. -/
theorem carryOut_takesIn {request : Request} {s : Session S} (direct : s.editor.QueuesWhilePaused)
    (leaves : request ≠ .take) :
    Ensures (carryOut request) (fun _ => s.TakesIn request.event?.toList) Whatever s := by
  cases request with
  | start => exact start_goesOn
  | key event => exact handleKey_takesIn event direct
  | pause => exact pause_goesOn
  | resume => exact resume_goesOn
  | take => exact absurd rfl leaves

theorem carryOutAll_takesIn (requests : List Request) {s : Session S}
    (direct : s.editor.QueuesWhilePaused) (leave : .take ∉ requests) :
    Ensures (carryOutAll requests) (fun _ s' => s.TakesIn (events requests) s' ∧
      s'.editor.QueuesWhilePaused) Whatever s := by
  induction requests generalizing s with
  | nil => exact ⟨goesOn_of_eq rfl rfl rfl rfl, direct⟩
  | cons request rest ih =>
    have first : request ≠ .take := Ne.symm (List.ne_of_not_mem_cons leave)
    have others : .take ∉ rest := List.not_mem_of_not_mem_cons leave
    have split : events (request :: rest) = request.event?.toList ++ events rest := by
      cases request <;> rfl
    rw [split]
    simp only [carryOutAll, ensures_bind]
    apply ((carryOut_takesIn direct first).and
      (carryOut_queuesWhilePaused request direct)).imp_ok
    intro _ s' holds
    obtain ⟨takesIn, direct'⟩ := holds
    exact (ih direct' others).imp_ok fun _ _ holds => ⟨takesIn.trans holds.1, holds.2⟩

/-! ## On a screen that never fails -/

variable {kind : S → Prop} [Screen.Reliable kind]

theorem carryOut_succeeds (request : Request) : Succeeds (On kind) (carryOut request) := by
  cases request with
  | start => exact start_succeeds
  | key event => exact handleKey_succeeds event
  | pause => exact pause_succeeds
  | resume => exact resume_succeeds
  | take => exact edit_succeeds fun e => e.takeLine.2

theorem carryOutAll_succeeds (requests : List Request) :
    Succeeds (On kind) (carryOutAll requests) := by
  induction requests with
  | nil => exact succeeds_pure ()
  | cons request rest ih => exact succeeds_bind (carryOut_succeeds request) fun _ => ih

end Session

end LineConsole
