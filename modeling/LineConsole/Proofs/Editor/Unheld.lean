import LineConsole.Proofs.Editor.Queueing
import LineConsole.Proofs.Editor.Reliable

/-! # An editor that no one holds

An editor whose lines are taken as soon as they are entered, and which is resumed at once, is never
held when a key arrives. The lines taken from it are those that the keys enter in its draft, one key
after the other.
-/

namespace LineConsole

namespace Session

open KeyEvent

variable {S : Type}

/-- Feeds the events one after the other. A line that is entered is taken, and the editor resumed. -/
def typeThrough [Screen S] : List KeyEvent → Action (Session S) (List String)
  | [] => pure []
  | event :: rest => do
    handleKey event
    let (line, editor) := (← get).editor.takeLine
    match line with
    | none => typeThrough rest
    | some line =>
      edit fun _ => editor
      resume
      let others ← typeThrough rest
      pure (line :: others)

/-- Begins editing and feeds the events. -/
def typeFresh [Screen S] (events : List KeyEvent) : Action (Session S) (List String) := do
  start
  typeThrough events

/-- The editor edits, and nothing waits in it. -/
structure Idle (s : Session S) : Prop where
  editing : s.editor.IsEditing
  queue : s.editor.queue = []
  committed : s.editor.committed = []

theorem ahead_of_queue {s : Session S} (empty : s.editor.queue = []) : s.ahead = s.draft := by
  rw [ahead, empty]
  rfl

variable [Screen S]

/-- A held editor in which nothing waits is idle once it is resumed, with the same draft. -/
private theorem resume_idle {s : Session S} (held : s.editor.IsHeld) (empty : s.editor.queue = [])
    (none : s.editor.committed = []) :
    Ensures resume (fun _ s' => s'.Idle ∧ s'.draft = s.draft ∧
      s'.editor.decoder = s.editor.decoder) Whatever s := by
  apply ((resume_replays held).and resume_goesOn).imp_ok
  intro _ s' holds
  obtain ⟨⟨editing, committed, empty'⟩ | ⟨-, -, shorter⟩, goesOn⟩ := holds
  · have ahead : s'.ahead = s.ahead := goesOn.ahead
    rw [ahead_of_queue empty, ahead_of_queue empty'] at ahead
    exact ⟨⟨editing, empty', committed.trans none⟩, ahead, goesOn.decoder⟩
  · rw [empty] at shorter
    exact absurd shorter (Nat.not_lt_zero _)

/-- By induction on the events: each leaves an idle editor, and the line that it enters, if any, is
taken before the next one arrives. -/
theorem typeThrough_enters (events : List KeyEvent) {s : Session S} (idle : s.Idle) :
    Ensures (typeThrough events) (fun lines s' =>
      lines = s.draft.entered (decodeAll s.editor.decoder events) ∧
      s'.draft = s.draft.after (decodeAll s.editor.decoder events) ∧ s'.Idle) Whatever s := by
  induction events generalizing s with
  | nil => exact ⟨rfl, rfl, idle⟩
  | cons event rest ih =>
    have direct : s.editor.paused = false → s.editor.queue = [] := fun _ => idle.queue
    have decoded := decodeAll_append s.editor.decoder [event] rest
    rw [List.singleton_append] at decoded
    simp only [typeThrough, ensures_bind, ensures_get]
    apply ((handleKey_of_editing event idle.editing).and (handleKey_takesIn event direct)).imp_ok
    intro _ s' holds
    obtain ⟨⟨advances, queue⟩, takesIn⟩ := holds
    have empty : s'.editor.queue = [] := queue.trans idle.queue
    obtain ⟨entered, draft⟩ := takesIn.done idle.queue empty
    rw [idle.committed, List.nil_append] at entered
    rw [decoded, Draft.entered_append, Draft.after_append, ← entered, ← draft, ← takesIn.decoder]
    rcases advances with ⟨editing, committed⟩ | ⟨held, line, committed⟩
    · have none := committed.trans idle.committed
      rw [none]
      simp only [Editor.takeLine, none]
      exact ih ⟨editing, empty, none⟩
    · rw [idle.committed, List.nil_append] at committed
      rw [committed]
      simp only [Editor.takeLine, committed, edit, ensures_bind, ensures_modify]
      refine Ensures.imp_ok (resume_idle ?held ?empty ?none) fun _ s'' holds => ?_
      case held => exact held
      case empty => exact empty
      case none => rfl
      obtain ⟨idle', draft', decoder'⟩ := holds
      apply (ih idle').imp_ok
      intro others _ holds
      rw [draft', decoder'] at holds
      obtain ⟨lines, left⟩ := holds
      exact ⟨congrArg (line :: ·) lines, left⟩

theorem typeThrough_succeeds {kind : S → Prop} [Screen.Reliable kind] (events : List KeyEvent) :
    Succeeds (On kind) (typeThrough events) := by
  induction events with
  | nil => exact succeeds_pure []
  | cons event rest ih =>
    unfold typeThrough
    refine succeeds_bind (handleKey_succeeds event) fun _ => succeeds_bind succeeds_get fun s => ?_
    rcases s.editor.takeLine with ⟨_ | line, editor⟩
    · exact ih
    · exact succeeds_bind (edit_succeeds _) fun _ => succeeds_bind resume_succeeds fun _ =>
        succeeds_bind ih fun _ => succeeds_pure _

/-- A fresh editor that no one holds takes in all events, and the lines taken from it are those
that the keys enter in an empty draft. -/
theorem typeFresh_enters (prompt : String) (rawInput : Bool) {screen : S} (history : History)
    (events : List KeyEvent) (reliable : Screen.NeverFails screen) :
    ∃ lines s, typeFresh events ⟨Editor.new prompt rawInput, screen, history⟩ = .ok lines s ∧
      lines = Draft.entered ⟨[], 0, history⟩
        (decodeAll (Editor.new prompt rawInput).decoder events) := by
  obtain ⟨kind, _, on⟩ := reliable
  have succeeds : Succeeds (On kind) (typeFresh events) :=
    succeeds_bind start_succeeds fun _ => typeThrough_succeeds events
  apply ensures_impossible_iff.mp
  refine succeeds.ensures on ?_
  simp only [typeFresh, ensures_bind]
  refine Ensures.imp_ok ((start_edits ?fresh).and start_goesOn) fun _ s' holds => ?_
  case fresh => rfl
  obtain ⟨⟨editing, queue, committed⟩, goesOn⟩ := holds
  have ahead : s'.ahead = _ := goesOn.ahead
  rw [ahead_of_queue queue] at ahead
  apply (typeThrough_enters events ⟨editing, queue, committed⟩).imp_ok
  intro lines _ holds
  rw [holds.1, ahead, goesOn.decoder]
  rfl

end Session

end LineConsole
