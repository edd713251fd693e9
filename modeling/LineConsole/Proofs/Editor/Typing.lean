import LineConsole.Proofs.Editor.Drawing

/-! # What typing amounts to

A draft is a line in the making: its characters, its cursor and the history that the keys walk
through. A key makes one draft of another and may enter its line; neither depends on the screen, on
where the line begins or on whether its editor was paused. What a key does to an editor that is not
paused is what it does to the editor's draft.
-/

namespace LineConsole

/-- A line in the making. -/
structure Draft where
  buffer : List Char
  cursor : Nat
  history : History
  deriving DecidableEq, Repr

namespace Draft

/-- An editor with this draft. -/
def editor (d : Draft) : Editor :=
  { Editor.new "" false with buffer := d.buffer, cursor := d.cursor }

/-- The editor's line in place of the draft's. -/
def become (d : Draft) (e : Editor) : Draft := { d with buffer := e.buffer, cursor := e.cursor }

/-- A step through the history; the line it leads to, if any, takes the draft's place. -/
def walk (d : Draft) (step : History → Option String × History) : Draft :=
  let (line, history) := step d.history
  match line with
  | some line => ⟨line.toList, line.toList.length, history⟩
  | none => { d with history }

/-- The draft that a key leaves. -/
def press (d : Draft) (event : KeyEvent) : Draft :=
  if event.isInterrupt then { d with buffer := [], cursor := 0 }
  else
    match event.key with
    | .char =>
      match event.written? with
      | some c => d.become (d.editor.insertChar c)
      | none => d
    | .backspace =>
      if d.cursor = 0 then d
      else d.become (d.editor.remove (d.editor.leftOf event.isWord) d.cursor)
    | .delete =>
      if d.buffer.length ≤ d.cursor then d
      else d.become (d.editor.remove d.cursor (d.editor.rightOf event.isWord))
    | .left => { d with cursor := d.editor.leftOf event.isWord }
    | .right => { d with cursor := d.editor.rightOf event.isWord }
    | .home => { d with cursor := 0 }
    | .endOfLine => { d with cursor := d.buffer.length }
    | .up => d.walk History.previous
    | .down => d.walk History.next
    | .enter => { d with buffer := [], cursor := 0 }
    | .tab | .escape | .other => d

/-- The line that a key enters. -/
def entry? (d : Draft) (event : KeyEvent) : Option String :=
  if event.key = .enter ∧ ¬ d.buffer.all Text.isBlank then some (String.ofList d.buffer) else none

/-- The draft that keys leave. -/
def after (d : Draft) (events : List KeyEvent) : Draft := events.foldl press d

/-- The lines that keys enter, oldest first. -/
def entered (d : Draft) : List KeyEvent → List String
  | [] => []
  | event :: rest => (d.entry? event).toList ++ (d.press event).entered rest

theorem after_append (d : Draft) (before behind : List KeyEvent) :
    d.after (before ++ behind) = (d.after before).after behind :=
  List.foldl_append

theorem entered_append (d : Draft) (before behind : List KeyEvent) :
    d.entered (before ++ behind) = d.entered before ++ (d.after before).entered behind := by
  induction before generalizing d with
  | nil => rfl
  | cons event rest ih =>
    rw [List.cons_append, entered, entered, ih, List.append_assoc]
    rfl

theorem entry?_eq_none {d : Draft} {event : KeyEvent} (other : event.key ≠ .enter) :
    d.entry? event = none :=
  if_neg fun enters => other enters.1

end Draft

namespace KeyEvent

/-- Walks through the history. -/
def Walks (event : KeyEvent) : Prop := event.key = .up ∨ event.key = .down

instance : DecidablePred Walks := fun event =>
  inferInstanceAs (Decidable (event.key = .up ∨ event.key = .down))

theorem key_of_isInterrupt {event : KeyEvent} (interrupts : event.isInterrupt = true) :
    event.key = .char := by
  simp only [isInterrupt, Bool.and_eq_true, decide_eq_true_eq] at interrupts
  exact interrupts.1.1

end KeyEvent

namespace Draft

/-! ## Without a walk -/

/-- A key that does not walk through the history leaves it alone, whatever it holds. -/
theorem press_history {event : KeyEvent} (d : Draft) (history : History) (stays : ¬ event.Walks) :
    ({ d with history } : Draft).press event = { d.press event with history } := by
  unfold press
  split
  · rfl
  · split
    · split <;> rfl
    · split <;> rfl
    · split <;> rfl
    · rfl
    · rfl
    · rfl
    · rfl
    · exact absurd (Or.inl ‹_›) stays
    · exact absurd (Or.inr ‹_›) stays
    all_goals rfl

theorem after_history {events : List KeyEvent} (d : Draft) (history : History)
    (stay : ∀ event ∈ events, ¬ event.Walks) :
    ({ d with history } : Draft).after events = { d.after events with history } := by
  induction events generalizing d with
  | nil => rfl
  | cons event rest ih =>
    obtain ⟨first, others⟩ := List.forall_mem_cons.mp stay
    change ((({ d with history } : Draft).press event).after rest) = _
    rw [press_history d history first, ih (d.press event) others]
    rfl

theorem history_after {events : List KeyEvent} (d : Draft)
    (stay : ∀ event ∈ events, ¬ event.Walks) : (d.after events).history = d.history := by
  have same : d.after events = { d.after events with history := d.history } :=
    after_history d d.history stay
  rw [same]

theorem entered_history {events : List KeyEvent} (d : Draft) (history : History)
    (stay : ∀ event ∈ events, ¬ event.Walks) :
    ({ d with history } : Draft).entered events = d.entered events := by
  induction events generalizing d with
  | nil => rfl
  | cons event rest ih =>
    obtain ⟨first, others⟩ := List.forall_mem_cons.mp stay
    rw [entered, entered, press_history d history first, ih (d.press event) others]
    rfl

end Draft

namespace Session

variable {S : Type}

/-- The line in the making. -/
def draft (s : Session S) : Draft := ⟨s.editor.buffer, s.editor.cursor, s.history⟩

/-- What a key does to a session that it is applied to. -/
structure Pressed (event : KeyEvent) (s s' : Session S) : Prop where
  draft : s'.draft = s.draft.press event
  committed : s'.editor.committed = s.editor.committed ++ (s.draft.entry? event).toList
  queue : s'.editor.queue = s.editor.queue
  decoder : s'.editor.decoder = s.editor.decoder
  paused : s'.editor.paused = (s.editor.paused || (s.draft.entry? event).isSome)
  edits : s.editor.IsEditing → s.draft.entry? event = none → s'.editor.IsEditing
  holds : (s.draft.entry? event).isSome → s'.editor.IsHeld

/-- A key that enters no line does what it does to the draft, and others see nothing of it. -/
private theorem pressed_of_mode {event : KeyEvent} {s s' : Session S}
    (other : event.key ≠ .enter) (draft : s'.draft = s.draft.press event)
    (decoder : s'.editor.decoder = s.editor.decoder) (mode : s'.mode = s.mode) :
    s.Pressed event s' := by
  obtain ⟨paused, shown, queue, committed⟩ := Editor.Mode.mk.inj mode
  have none : s.draft.entry? event = none := Draft.entry?_eq_none other
  refine ⟨draft, ?_, queue, decoder, ?_, fun editing _ => ?_, fun enters => ?_⟩
  · rw [none, committed]
    exact (List.append_nil _).symm
  · rw [none, paused]
    exact (Bool.or_false _).symm
  · exact ⟨paused.trans editing.1, shown.trans editing.2⟩
  · rw [none] at enters
    cases enters

/-- The action does what the key does, whether it succeeds or fails. -/
def Presses (event : KeyEvent) (s : Session S) (action : Action (Session S) Unit) (begun : Session S) :
    Prop :=
  Ensures action (fun _ => s.Pressed event) (fun _ => s.Pressed event) begun

/-- A change of the line that is drawn afterwards has been made even if the screen fails. -/
private theorem presses_of_offScreen {event : KeyEvent} {action : Action (Session S) Unit}
    {s : Session S} {e : Editor} {history : History} {screen : S} (draws : Keeps offScreen action)
    (other : event.key ≠ .enter)
    (draft : (⟨e.buffer, e.cursor, history⟩ : Draft) = s.draft.press event)
    (decoder : e.decoder = s.editor.decoder) (mode : e.mode = s.editor.mode) :
    s.Presses event action ⟨e, screen, history⟩ := by
  have pressed (s' : Session S) (same : s'.offScreen = (e, history)) : s.Pressed event s' := by
    obtain ⟨_, _, _⟩ := s'
    obtain ⟨rfl, rfl⟩ := Prod.mk.inj same
    exact pressed_of_mode other draft decoder mode
  exact draws.ensures (fun _ => pressed) fun _ => pressed

variable [Screen S]

private theorem insert_presses {event : KeyEvent} {c : Char} {s : Session S}
    (other : event.key ≠ .enter)
    (draft : s.draft.press event = s.draft.become (s.draft.editor.insertChar c)) :
    s.Presses event (insert c) s := by
  simp only [Presses, insert, edit, ensures_bind, ensures_get, ensures_modify]
  exact presses_of_offScreen (redrawFrom_keeps _ _) other draft.symm rfl rfl

private theorem moveCursor_presses {event : KeyEvent} {target : Nat} {s : Session S}
    (other : event.key ≠ .enter)
    (draft : s.draft.press event = { s.draft with cursor := target }) :
    s.Presses event (moveCursor target) s := by
  simp only [Presses, moveCursor, edit, ensures_bind, ensures_modify]
  exact presses_of_offScreen (moveToOffset_keeps _) other draft.symm rfl rfl

private theorem backspace_presses {event : KeyEvent} {word : Bool} {s : Session S}
    (other : event.key ≠ .enter)
    (draft : s.draft.press event = if s.draft.cursor = 0 then s.draft
      else s.draft.become (s.draft.editor.remove (s.draft.editor.leftOf word) s.draft.cursor)) :
    s.Presses event (backspace word) s := by
  simp only [Presses, backspace, edit, ensures_bind, ensures_get, ensures_ite, ensures_modify]
  split
  · rename_i home
    exact pressed_of_mode other (draft.trans (if_pos home)).symm rfl rfl
  · have behind : ¬ s.draft.cursor = 0 := ‹_›
    refine presses_of_offScreen (redrawFrom_keeps _ _) other ?_ rfl rfl
    rw [draft, if_neg behind]
    rfl

private theorem delete_presses {event : KeyEvent} {word : Bool} {s : Session S}
    (other : event.key ≠ .enter)
    (draft : s.draft.press event = if s.draft.buffer.length ≤ s.draft.cursor then s.draft
      else s.draft.become (s.draft.editor.remove s.draft.cursor (s.draft.editor.rightOf word))) :
    s.Presses event (delete word) s := by
  simp only [Presses, delete, edit, ensures_bind, ensures_get, ensures_ite, ensures_modify]
  split
  · rename_i atEnd
    exact pressed_of_mode other (draft.trans (if_pos atEnd)).symm rfl rfl
  · have before : ¬ s.draft.buffer.length ≤ s.draft.cursor := ‹_›
    refine presses_of_offScreen (redrawFrom_keeps _ _) other ?_ rfl rfl
    rw [draft, if_neg before]
    rfl

private theorem walkHistory_presses {event : KeyEvent} {s : Session S}
    {step : History → Option String × History} (other : event.key ≠ .enter)
    (draft : s.draft.press event = s.draft.walk step) :
    s.Presses event (walkHistory step) s := by
  simp only [Presses, walkHistory, ensures_bind, ensures_get, ensures_modify]
  simp only [Draft.walk] at draft
  change _ = (match (step s.history).1 with | some line => _ | none => _) at draft
  cases led : (step s.history).1 with
  | none =>
    rw [led] at draft
    exact pressed_of_mode other draft.symm rfl rfl
  | some line =>
    rw [led] at draft
    simp only [recallLine, edit, ensures_bind, ensures_get, ensures_modify]
    exact presses_of_offScreen (redrawFrom_keeps _ _) other draft.symm rfl rfl

/-- A new prompt is shown for an empty line. -/
private theorem pressed_of_cleared {event : KeyEvent} {s : Session S}
    {e : Editor} {screen : S} (draft : s.draft.press event = ⟨e.buffer, e.cursor, s.history⟩)
    (none : s.draft.entry? event = none) (paused : e.paused = s.editor.paused)
    (committed : e.committed = s.editor.committed) (queue : e.queue = s.editor.queue)
    (decoder : e.decoder = s.editor.decoder) :
    Ensures showPrompt (fun _ => s.Pressed event) Whatever ⟨e, screen, s.history⟩ := by
  apply showPrompt_ensures
  intro _ _
  refine ⟨draft.symm, ?_, queue, decoder, ?_, fun editing _ => ?_, fun enters => ?_⟩
  · rw [none, Option.toList_none, List.append_nil]
    exact committed
  · rw [none]
    exact paused.trans (Bool.or_false _).symm
  · exact ⟨paused.trans editing.1, rfl⟩
  · rw [none] at enters
    cases enters

private theorem interrupt_presses {event : KeyEvent} {s : Session S}
    (interrupts : event.isInterrupt = true) :
    Ensures interrupt (fun _ => s.Pressed event) Whatever s := by
  have other : event.key ≠ .enter := by
    rw [KeyEvent.key_of_isInterrupt interrupts]
    decide
  simp only [interrupt, edit, ensures_bind]
  apply ensures_of_offScreen leaveLine_keeps
  intro _ _
  rw [ensures_modify]
  refine pressed_of_cleared ?_ (Draft.entry?_eq_none other) rfl rfl rfl rfl
  exact if_pos interrupts

private theorem enter_presses {event : KeyEvent} {s : Session S} (enters : event.key = .enter)
    (draft : s.draft.press event = { s.draft with buffer := [], cursor := 0 }) :
    Ensures enter (fun _ => s.Pressed event) Whatever s := by
  simp only [enter, edit, ensures_bind, ensures_get, ensures_modify]
  apply ensures_of_offScreen (moveToOffset_keeps _)
  intro _ _
  apply ensures_of_offScreen (onScreen_keeps _)
  intro _ _
  rw [ensures_ite]
  split
  · rename_i blank
    refine pressed_of_cleared draft (if_neg ?_) rfl rfl rfl rfl
    exact fun inked => inked.2 blank
  · rename_i inked
    simp only [ensures_bind]
    apply ensures_of_offScreen (note_keeps _)
    intro _ _
    apply ensures_of_offScreen (onScreen_keeps _)
    intro _ _
    have entered : s.draft.entry? event = some (String.ofList s.editor.buffer) :=
      if_pos ⟨enters, inked⟩
    refine ⟨draft.symm, ?_, rfl, rfl, ?_, fun _ none => ?_, fun _ => ⟨rfl, rfl⟩⟩
    · rw [entered]
      rfl
    · rw [entered]
      exact (Bool.or_true _).symm
    · rw [entered] at none
      cases none

/-- A key that shows no new prompt does to the draft what it does to drafts even if the screen fails. -/
theorem apply_presses_of_drawn {event : KeyEvent} {s : Session S} (typed : ¬ event.isInterrupt)
    (other : event.key ≠ .enter) : s.Presses event (apply event) s := by
  have press : s.draft.press event = _ := if_neg typed
  unfold Presses apply
  rw [ensures_ite, if_neg typed]
  simp only [ensures_bind, ensures_get]
  cases key : event.key with
  | char =>
    rw [key] at press
    cases written : event.written? with
    | none =>
      rw [written] at press
      exact pressed_of_mode other press.symm rfl rfl
    | some c =>
      rw [written] at press
      exact insert_presses other press
  | enter => exact absurd key other
  | backspace =>
    rw [key] at press
    exact backspace_presses other press
  | delete =>
    rw [key] at press
    exact delete_presses other press
  | left | right | home | endOfLine =>
    rw [key] at press
    exact moveCursor_presses other press
  | up | down =>
    rw [key] at press
    exact walkHistory_presses other press
  | tab | escape | other =>
    rw [key] at press
    exact pressed_of_mode other press.symm rfl rfl

/-- A key that is applied does to the draft what it does to drafts, and a line that it enters waits
behind the others. -/
theorem apply_presses (event : KeyEvent) {s : Session S} :
    Ensures (apply event) (fun _ => s.Pressed event) Whatever s := by
  by_cases interrupts : event.isInterrupt
  · unfold apply
    rw [ensures_ite, if_pos interrupts]
    exact interrupt_presses interrupts
  · by_cases enters : event.key = .enter
    · have press : s.draft.press event = _ := if_neg interrupts
      unfold apply
      rw [ensures_ite, if_neg interrupts]
      simp only [ensures_bind, ensures_get]
      rw [enters] at press ⊢
      exact enter_presses enters press
    · exact (apply_presses_of_drawn interrupts enters).imp (fun _ _ pressed => pressed)
        fun _ _ _ => trivial

end Session

end LineConsole
