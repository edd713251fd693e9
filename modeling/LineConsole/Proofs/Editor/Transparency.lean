import LineConsole.Proofs.Editor.Requests

/-! # Pauses leave no trace

However keys, pauses and resumes are interleaved, once the editor has been resumed often enough it
holds the line, the place in the history and the entered lines that it holds when the keys are typed
one after the other and nothing but an entered line pauses it.
-/

namespace LineConsole

namespace Session

open KeyEvent

variable {S : Type} [Screen S]

/-- Feeds the events one after the other, and resumes right after each that enters a line. -/
def typeUnheld : List KeyEvent → Action (Session S) Unit
  | [] => pure ()
  | event :: rest => do
    let waiting := (← get).editor.committed
    handleKey event
    if (← get).editor.committed ≠ waiting then resume
    typeUnheld rest

def resumeTimes : Nat → Action (Session S) Unit
  | 0 => pure ()
  | count + 1 => do
    resume
    resumeTimes count

/-- With nothing in the queue, one resume is enough. -/
private theorem resume_of_empty {s : Session S} (empty : s.editor.queue = []) :
    Ensures resume (fun _ s' => s'.editor.paused = false ∧ s'.editor.queue = []) Whatever s := by
  cases paused : s.editor.paused with
  | false =>
    apply (resume_of_going paused).imp_ok
    rintro _ _ rfl
    exact ⟨paused, empty⟩
  | true =>
    apply (resume_of_paused paused).imp_ok
    intro _ _ replays
    rcases replays with ⟨editing, -, empty'⟩ | ⟨-, -, shorter⟩
    · exact ⟨editing.1, empty'⟩
    · rw [empty] at shorter
      exact absurd shorter (Nat.not_lt_zero _)

/-- Each resume takes at least one key out of the queue or leaves an editor that is not paused. -/
theorem resumeTimes_goesOn (count : Nat) {s : Session S} (direct : s.editor.QueuesWhilePaused) :
    Ensures (resumeTimes count) (fun _ s' => s.GoesOn s' ∧ s'.editor.QueuesWhilePaused ∧
      (s.editor.paused = false ∨ s.editor.queue.length < count → s'.editor.paused = false))
      Whatever s := by
  induction count generalizing s with
  | zero =>
    refine ⟨goesOn_of_eq rfl rfl rfl rfl, direct, fun enough => ?_⟩
    exact enough.resolve_right (Nat.not_lt_zero _)
  | succ count ih =>
    simp only [resumeTimes, ensures_bind]
    cases paused : s.editor.paused with
    | false =>
      apply (resume_of_going paused).imp_ok
      rintro _ _ rfl
      apply (ih direct).imp_ok
      intro _ _ holds
      exact ⟨holds.1, holds.2.1, fun _ => holds.2.2 (.inl paused)⟩
    | true =>
      apply ((resume_of_paused paused).and (resume_goesOn.and
        (resume_queuesWhilePaused direct))).imp_ok
      intro _ s' holds
      obtain ⟨replays, goesOn, direct'⟩ := holds
      apply (ih direct').imp_ok
      intro _ _ holds
      refine ⟨goesOn.trans holds.1, holds.2.1, fun enough => holds.2.2 ?_⟩
      rcases replays with ⟨editing, -, -⟩ | ⟨-, -, shorter⟩
      · exact .inl editing.1
      · have long := enough.resolve_left fun going => Bool.noConfusion going
        exact .inr (by omega)

/-- By induction on the events: after each one, and the resume if it entered a line, the editor is
not paused and no key waits. -/
theorem typeUnheld_takesIn (events : List KeyEvent) {s : Session S}
    (going : s.editor.paused = false) (empty : s.editor.queue = []) :
    Ensures (typeUnheld events) (fun _ s' => s.TakesIn events s' ∧ s'.editor.queue = [])
      Whatever s := by
  induction events generalizing s with
  | nil => exact ⟨goesOn_of_eq rfl rfl rfl rfl, empty⟩
  | cons event rest ih =>
    simp only [typeUnheld, ensures_bind, ensures_get]
    apply ((handleKey_of_going event going).and (handleKey_takesIn event fun _ => empty)).imp_ok
    intro _ s' holds
    obtain ⟨⟨queue, enters⟩, takesIn⟩ := holds
    have empty' : s'.editor.queue = [] := queue.trans empty
    rw [ensures_ite]
    split
    · rw [ensures_bind]
      apply ((resume_of_empty empty').and resume_goesOn).imp_ok
      intro _ s'' holds
      obtain ⟨⟨going'', empty''⟩, goesOn⟩ := holds
      exact (ih going'' empty'').imp_ok fun _ _ holds =>
        ⟨(takesIn.trans goesOn).trans holds.1, holds.2⟩
    · rename_i same
      have going' : s'.editor.paused = false :=
        Bool.eq_false_iff.mpr fun paused => same (enters paused)
      exact (ih going' empty').imp_ok fun _ _ holds => ⟨takesIn.trans holds.1, holds.2⟩

theorem typeUnheld_succeeds {kind : S → Prop} [Screen.Reliable kind] (events : List KeyEvent) :
    Succeeds (On kind) (typeUnheld events) := by
  induction events with
  | nil => exact succeeds_pure ()
  | cons event rest ih =>
    exact succeeds_bind succeeds_get fun _ => succeeds_bind (handleKey_succeeds event) fun _ =>
      succeeds_bind succeeds_get fun _ =>
        succeeds_ite (succeeds_bind resume_succeeds fun _ => ih) ih

theorem resumeTimes_succeeds {kind : S → Prop} [Screen.Reliable kind] (count : Nat) :
    Succeeds (On kind) (resumeTimes count) := by
  induction count with
  | zero => exact succeeds_pure ()
  | succ count ih => exact succeeds_bind resume_succeeds fun _ => ih

/-- Keys may be interleaved with starts, pauses and resumes in any way. Every request succeeds, one
more resume than there are keys in the queue ends all pauses, and whenever the editor is not paused
after some resumes, no key waits and everything is as if the keys had been typed without a pause. -/
theorem pauses_leave_no_trace {s : Session S} (inUse : s.InUse) (going : s.editor.paused = false)
    (reliable : Screen.NeverFails s.screen) (requests : List Request) (leave : .take ∉ requests) :
    ∃ held unheld, carryOutAll requests s = .ok () held ∧
      typeUnheld (events requests) s = .ok () unheld ∧
      (∀ count, held.editor.queue.length < count →
        ∃ s', resumeTimes count held = .ok () s' ∧ s'.editor.paused = false) ∧
      ∀ count s', resumeTimes count held = .ok () s' → s'.editor.paused = false →
        s'.editor.queue = [] ∧ s'.editor.buffer = unheld.editor.buffer ∧
        s'.editor.cursor = unheld.editor.cursor ∧ s'.history = unheld.history ∧
        s'.editor.committed = unheld.editor.committed := by
  obtain ⟨kind, _, on⟩ := reliable
  have direct := inUse.queuesWhilePaused
  have empty : s.editor.queue = [] := direct going
  obtain ⟨_, held, carried, on', takesIn, direct'⟩ := ensures_impossible_iff.mp
    ((carryOutAll_succeeds requests s on).and (carryOutAll_takesIn requests direct leave))
  obtain ⟨_, unheld, typed, takesIn', empty'⟩ := ensures_impossible_iff.mp
    ((typeUnheld_succeeds (events requests)).ensures on (typeUnheld_takesIn _ going empty))
  obtain ⟨entered', draft'⟩ := takesIn'.done empty empty'
  refine ⟨held, unheld, carried, typed, fun count enough => ?_, fun count s' resumed going' => ?_⟩
  · obtain ⟨_, s', resumed, -, -, ends⟩ := ensures_impossible_iff.mp
      ((resumeTimes_succeeds count).ensures on' (resumeTimes_goesOn count direct'))
    exact ⟨s', resumed, ends (.inr enough)⟩
  · obtain ⟨goesOn, direct'', -⟩ := (resumeTimes_goesOn count direct').of_eq_ok resumed
    have waits : s'.editor.queue = [] := direct'' going'
    have all : s.TakesIn (events requests) s' := by
      have both := takesIn.trans goesOn
      rwa [List.append_nil] at both
    obtain ⟨entered, draft⟩ := all.done empty waits
    obtain ⟨buffer, cursor, history⟩ := Draft.mk.inj (draft.trans draft'.symm)
    exact ⟨waits, buffer, cursor, history, entered.trans entered'.symm⟩

/-- In raw mode: a pause in the middle of the arrow that recalls `ls`, one more over the line that a
replayed key entered, and two characters behind that. -/
def interrupted : List Request :=
  [.key (.ofChar 'a'), .key (.ofChar '\x1b'), .pause, .key (.ofChar '['), .key (.ofChar 'A'),
    .key (.ofChar '\r'), .resume, .pause, .key (.ofChar 'x'), .key (.ofChar 'y')]

theorem interrupted_leaves_no_trace :
    ∃ s, carryOut .start ⟨Editor.new "> " true, MemoryScreen.ofWidth 10, ⟨["ls"], 1, 3⟩⟩ =
        .ok () s ∧
      s.editor.paused = false ∧ .take ∉ interrupted ∧
      ∃ s' unheld, typeUnheld (events interrupted) s = .ok () unheld ∧
        (carryOutAll interrupted >>= fun _ => resumeTimes 3) s = .ok () s' ∧
        s'.editor.buffer = ['x', 'y'] ∧ s'.editor.committed = ["ls"] ∧ s'.history.cursor = 0 ∧
        unheld.editor.buffer = s'.editor.buffer ∧ unheld.editor.committed = s'.editor.committed ∧
        unheld.history = s'.history := by
  have ran : ∃ s, carryOut .start ⟨Editor.new "> " true, MemoryScreen.ofWidth 10, ⟨["ls"], 1, 3⟩⟩ =
      .ok () s ∧ s.editor.paused = false ∧
      ∃ held, carryOutAll interrupted s = .ok () held ∧ held.editor.queue.length = 2 ∧
      ∃ s', resumeTimes 3 held = .ok () s' ∧ s'.editor.buffer = ['x', 'y'] ∧
        s'.editor.committed = ["ls"] ∧ s'.history.cursor = 0 := by decide +kernel
  obtain ⟨s, began, going, held, carried, waits, s', resumed, line, entered, place⟩ := ran
  have leave : .take ∉ interrupted := by decide
  have inUse : s.InUse := .asked .start (.fresh _ _ _ _) began
  obtain ⟨held', unheld, carried', typed, enough, same⟩ :=
    pauses_leave_no_trace inUse going (MemoryScreen.neverFails _) interrupted leave
  cases carried.symm.trans carried'
  obtain ⟨s'', resumed', going'⟩ := enough 3 (by omega)
  cases resumed.symm.trans resumed'
  obtain ⟨-, buffer, -, history, committed⟩ := same 3 s' resumed going'
  refine ⟨s, began, going, leave, s', unheld, typed, ?_, line, entered, place, buffer.symm,
    committed.symm, history.symm⟩
  simp only [bind, EStateM.bind, carried, resumed]

end Session

end LineConsole
