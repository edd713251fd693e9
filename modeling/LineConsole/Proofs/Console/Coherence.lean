import LineConsole.Console.Run
import LineConsole.Proofs.Editor.Pausing

/-! # The worker and its editor agree

At every moment of a run the editor is held while others have the worker paused, and an editor that
is held while no one does has entered a line. Whatever arrives keeps this, and so does each line
that is run. A turn ends with no line waiting, since every line that is run takes a waiting line or
a queued key.
-/

namespace LineConsole

/-- A line stopped the worker, and not a failure of the screen or the input. -/
def Stop.ByLine (stop : Stop) : Prop := ∀ fault, stop ≠ .failed fault

namespace Worker

open Session

variable {H S : Type}

/-- What holds between any two steps of a turn. -/
structure Coherent (w : Worker H S) : Prop where
  mode : w.editor.IsEditing ∧ w.editor.queue = [] ∨ w.editor.IsHeld
  paused : 0 < w.pauseDepth → w.editor.IsHeld
  waiting : w.pauseDepth = 0 → w.editor.IsHeld → w.editor.committed ≠ []

/-- What holds at the head of the loop. -/
structure Settled (w : Worker H S) : Prop where
  coherent : w.Coherent
  committed : w.editor.committed = []

/-- The waiting lines and the queued keys, which bound the lines that can still be run. -/
def pending (w : Worker H S) : Nat := w.editor.committed.length + w.editor.queue.length

private theorem not_held_of_editing {e : Editor} (editing : e.IsEditing) : ¬ e.IsHeld :=
  fun held => Bool.false_ne_true (editing.1.symm.trans held.1)

private theorem eq_zero_of_editing {w : Worker H S} (coherent : w.Coherent)
    (editing : w.editor.IsEditing) : w.pauseDepth = 0 :=
  Nat.eq_zero_of_not_pos fun paused => not_held_of_editing editing (coherent.paused paused)

theorem Coherent.queue {w : Worker H S} (coherent : w.Coherent) (editing : w.editor.IsEditing) :
    w.editor.queue = [] := by
  rcases coherent.mode with ⟨-, empty⟩ | held
  · exact empty
  · exact absurd held (not_held_of_editing editing)

private theorem coherent_of_editing {w : Worker H S} (free : w.pauseDepth = 0)
    (editing : w.editor.IsEditing) (empty : w.editor.queue = []) : w.Coherent :=
  ⟨.inl ⟨editing, empty⟩, fun paused => absurd free (Nat.ne_of_gt paused),
    fun _ held => absurd held (not_held_of_editing editing)⟩

/-- What letting go of an editor does to it: one that edits goes on as it is. -/
def LetsGo (e e' : Editor) : Prop := e.IsEditing ∧ e' = e ∨ e.IsHeld ∧ e.Replays e'

theorem LetsGo.coherent {e : Editor} {w : Worker H S} (letsGo : LetsGo e w.editor)
    (free : w.pauseDepth = 0) (empty : e.IsEditing → e.queue = []) : w.Coherent := by
  rcases letsGo with ⟨editing, same⟩ | ⟨-, replays⟩
  · exact coherent_of_editing free (same ▸ editing) (same ▸ empty editing)
  · rcases replays with ⟨editing, -, empty⟩ | ⟨held, ⟨line, entered⟩, -⟩
    · exact coherent_of_editing free editing empty
    · exact ⟨.inr held, fun _ => held, fun _ _ => by simp [entered]⟩

/-- What the editor comes to, on the shell's history, the worker comes to. -/
theorem ensures_onEditor_iff {action : Action (Session S) Unit} {ok : Unit → Worker H S → Prop}
    {failed : Stop → Worker H S → Prop} {w : Worker H S} :
    Ensures (onEditor action) ok failed w ↔
      Ensures action
        (fun _ s => ok () { w with
          editor := s.editor, screen := s.screen, shell := { w.shell with history := s.history } })
        (fun fault s => failed (.failed fault) { w with
          editor := s.editor, screen := s.screen, shell := { w.shell with history := s.history } })
        ⟨w.editor, w.screen, w.shell.history⟩ := by
  unfold Ensures onEditor
  cases action ⟨w.editor, w.screen, w.shell.history⟩ <;> rfl

/-- What the editor ensures, the worker ensures of its editor. -/
theorem ensures_onEditor {action : Action (Session S) Unit} {ok : Unit → Worker H S → Prop}
    {post : Session S → Prop} {w : Worker H S}
    (ensured : Ensures action (fun _ => post) Whatever ⟨w.editor, w.screen, w.shell.history⟩)
    (success : ∀ s : Session S, post s → ok () { w with
      editor := s.editor, screen := s.screen, shell := { w.shell with history := s.history } }) :
    Ensures (onEditor action) ok Whatever w :=
  ensures_onEditor_iff.mpr (ensured.imp (fun _ => success) fun _ _ _ => trivial)

/-- A line either leaves a shell behind or stops the worker. -/
theorem ensures_runLine {host : Host H} {depth : Nat} {line : String} {w : Worker H S}
    {ok : Unit → Worker H S → Prop} {failed : Stop → Worker H S → Prop}
    (success : ∀ shell, w.shell.runLine host depth line = some (shell, none) →
      ok () { w with shell })
    (failure : (∀ shell, w.shell.runLine host depth line ≠ some (shell, none)) →
      ∀ stop w', stop.ByLine → failed stop w') : Ensures (runLine host depth line) ok failed w := by
  unfold Ensures runLine
  cases ran : w.shell.runLine host depth line with
  | none =>
    refine failure ?_ _ _ fun _ other => nomatch other
    simp [ran]
  | some result =>
    obtain ⟨shell, code⟩ := result
    cases code with
    | none => exact success shell ran
    | some code =>
      refine failure ?_ _ _ fun _ other => nomatch other
      simp [ran]

/-- Only the screen can keep the editor from acting. -/
theorem onEditor_stops {action : Action (Session S) Unit} {w : Worker H S} :
    Ensures (onEditor action) (fun _ _ => True) (fun stop _ => ∃ fault, stop = .failed fault) w := by
  unfold Ensures onEditor
  cases action ⟨w.editor, w.screen, w.shell.history⟩ with
  | ok a s => trivial
  | error fault s => exact ⟨fault, rfl⟩

variable [Screen S]

private theorem resume_letsGo {w : Worker H S} {ok : Unit → Worker H S → Prop}
    (known : w.editor.IsEditing ∨ w.editor.IsHeld)
    (success : ∀ w' : Worker H S, w'.pauseDepth = w.pauseDepth → LetsGo w.editor w'.editor →
      ok () w') : Ensures (onEditor Session.resume) ok Whatever w := by
  rcases known with editing | held
  · apply ensures_onEditor (resume_of_editing editing)
    intro s same
    exact success _ rfl (.inl ⟨editing, congrArg Session.editor same⟩)
  · apply ensures_onEditor (resume_replays held)
    intro s replays
    exact success _ rfl (.inr ⟨held, replays⟩)

/-! ## Messages -/

/-- How many have the worker paused after a message. -/
def depthAfter (count : Nat) : Message → Nat
  | .pause => count + 1
  | .resume => count - 1

theorem receive_pause {w : Worker H S} (coherent : w.Coherent) :
    Ensures (receive .pause) (fun _ w' => w'.Coherent ∧ w'.pauseDepth = w.pauseDepth + 1 ∧
      w'.editor.committed = w.editor.committed) Whatever w := by
  simp only [receive, ensures_bind, ensures_get, ensures_ite]
  have known : w.editor.IsEditing ∨ w.editor.IsHeld := coherent.mode.imp_left (·.1)
  split
  · apply ensures_onEditor (pause_holds known)
    intro s holds
    obtain ⟨held, _, committed⟩ := holds
    exact ⟨⟨.inr held, fun _ => held, fun free => by simp at free⟩, rfl, committed⟩
  · rename_i paused
    have held := coherent.paused (Nat.pos_of_ne_zero paused)
    exact ⟨⟨.inr held, fun _ => held, fun free => by simp at free⟩, rfl, rfl⟩

theorem receive_resume {w : Worker H S} (coherent : w.Coherent) :
    Ensures (receive .resume) (fun _ w' => w'.Coherent ∧ w'.pauseDepth = w.pauseDepth - 1 ∧
      (w.pauseDepth ≤ 1 → LetsGo w.editor w'.editor) ∧
      (1 < w.pauseDepth → w'.editor = w.editor)) Whatever w := by
  simp only [receive, ensures_bind, ensures_get, ensures_modify, ensures_ite]
  have known : w.editor.IsEditing ∨ w.editor.IsHeld := coherent.mode.imp_left (·.1)
  split
  · rename_i free
    refine resume_letsGo known fun w' same letsGo => ?_
    have zero : w'.pauseDepth = 0 := same.trans free
    refine ⟨letsGo.coherent zero coherent.queue, same, fun _ => letsGo, fun many => by omega⟩
  · rename_i paused
    have held := coherent.paused (by omega)
    exact ⟨⟨.inr held, fun _ => held, fun free => absurd free paused⟩, rfl,
      fun few => by omega, fun _ => rfl⟩

theorem receive_coherent (message : Message) {w : Worker H S} (coherent : w.Coherent) :
    Ensures (receive message) (fun _ w' => w'.Coherent ∧
      w'.pauseDepth = depthAfter w.pauseDepth message) Whatever w := by
  cases message with
  | pause => exact (receive_pause coherent).imp_ok fun _ _ h => ⟨h.1, h.2.1⟩
  | resume => exact (receive_resume coherent).imp_ok fun _ _ h => ⟨h.1, h.2.1⟩

/-! ## Keys -/

/-- What polling does to the editor. -/
theorem handleKey_coherent (event : KeyEvent) {w : Worker H S} (coherent : w.Coherent) :
    Ensures (onEditor (Session.handleKey event)) (fun _ w' => w'.Coherent ∧
      w'.pauseDepth = w.pauseDepth ∧
      (w.editor.IsHeld ∧ w'.editor.IsHeld ∧ w'.editor.committed = w.editor.committed ∨
        w.editor.IsEditing ∧ w.editor.Advances w'.editor)) Whatever w := by
  rcases coherent.mode with ⟨editing, empty⟩ | held
  · apply ensures_onEditor (handleKey_of_editing event editing)
    intro s holds
    obtain ⟨advances, queue⟩ := holds
    refine ⟨?_, rfl, .inr ⟨editing, advances⟩⟩
    have zero := eq_zero_of_editing coherent editing
    rcases advances with ⟨editing', -⟩ | ⟨held, line, entered⟩
    · exact coherent_of_editing zero editing' (queue.trans empty)
    · exact ⟨.inr held, fun _ => held, fun _ _ => by simp [entered]⟩
  · apply ensures_onEditor (handleKey_of_held event held)
    intro s holds
    obtain ⟨held', committed⟩ := holds
    refine ⟨⟨.inr held', fun _ => held', fun free _ => ?_⟩, rfl, .inl ⟨held, held', committed⟩⟩
    change s.editor.committed ≠ []
    rw [committed]
    exact coherent.waiting free held

theorem receiveAll_coherent (messages : List Message) {w : Worker H S} (coherent : w.Coherent) :
    Ensures (receiveAll messages) (fun _ w' => w'.Coherent ∧
      w'.pauseDepth = messages.foldl depthAfter w.pauseDepth) Whatever w := by
  induction messages generalizing w with
  | nil => exact ⟨coherent, rfl⟩
  | cons message rest ih =>
    simp only [receiveAll, ensures_bind]
    apply (receive_coherent message coherent).imp_ok
    intro _ w' holds
    obtain ⟨coherent', count⟩ := holds
    rw [List.foldl_cons, ← count]
    exact ih coherent'

/-! ## Lines -/

section Lines

variable {host : Host H} {depth fuel : Nat} {ok : Unit → Worker H S → Prop}
  {failed : Stop → Worker H S → Prop} {w : Worker H S}

/-- With nothing to take, no line is run, however much fuel there is. -/
theorem ensures_runLines_of_none (none : w.editor.committed = []) :
    Ensures (runLines host depth fuel) ok failed w ↔ ok () w := by
  cases fuel with
  | zero => rfl
  | succ fuel => simp [runLines, Editor.takeLine, none]

/-- The next waiting line is taken, it is run, and then the others are. -/
theorem runLines_succ {line : String} {rest : List String}
    (taken : w.editor.committed = line :: rest) :
    runLines host depth (fuel + 1) w =
      (runTaken host depth line >>= fun _ => runLines host depth fuel)
        { w with editor := { w.editor with committed := rest } } := by
  obtain ⟨shell, ⟨_, _, _, _, _, _, _, committed, _⟩, screen, pauseDepth⟩ := w
  obtain rfl : committed = line :: rest := taken
  rfl

theorem ensures_runLines_of_cons {line : String} {rest : List String}
    (taken : w.editor.committed = line :: rest) :
    Ensures (runLines host depth (fuel + 1)) ok failed w ↔
      Ensures (runTaken host depth line)
        (fun _ w' => Ensures (runLines host depth fuel) ok failed w') failed
        { w with editor := { w.editor with committed := rest } } := by
  rw [← ensures_bind]
  unfold Ensures
  rw [runLines_succ taken]

/-- After the line was run, the editor is let go of unless others have the worker paused. -/
theorem runTaken_letsGo {line : String} (known : w.editor.IsEditing ∨ w.editor.IsHeld) :
    Ensures (runTaken host depth line) (fun _ w' => w'.pauseDepth = w.pauseDepth ∧
      (w.pauseDepth = 0 → LetsGo w.editor w'.editor) ∧
      (0 < w.pauseDepth → w'.editor = w.editor)) Whatever w := by
  simp only [runTaken, ensures_bind, ensures_get, ensures_ite]
  refine ensures_runLine (fun shell _ => ?_) fun _ _ _ _ => trivial
  split
  · rename_i free
    refine resume_letsGo known fun w' same letsGo => ?_
    exact ⟨same, fun _ => letsGo, fun paused => absurd free (Nat.ne_of_gt paused)⟩
  · rename_i paused
    exact ⟨rfl, fun free => absurd free paused, fun _ => rfl⟩

omit [Screen S] in
private theorem pending_lt_of_letsGo {e : Editor} {rest : List String} {w' : Worker H S}
    (letsGo : LetsGo { e with committed := rest } w'.editor) :
    w'.pending < rest.length + 1 + e.queue.length := by
  rcases letsGo with ⟨-, same⟩ | ⟨-, ⟨-, committed, empty⟩ | ⟨-, ⟨_, committed⟩, shorter⟩⟩
  · simp only [pending, same]
    omega
  · simp only [pending, committed, empty, List.length_nil]
    omega
  · simp only [pending, committed, List.length_append, List.length_singleton]
    change w'.editor.queue.length < e.queue.length at shorter
    omega

/-- Running a waiting line leaves less that can still be run. -/
theorem runTaken_coherent {line : String} {rest : List String} (coherent : w.Coherent)
    (taken : w.editor.committed = line :: rest) :
    Ensures (runTaken host depth line) (fun _ w' => w'.Coherent ∧ w'.pauseDepth = w.pauseDepth ∧
      w'.pending < w.pending ∧
      (w.pauseDepth = 0 → LetsGo { w.editor with committed := rest } w'.editor)) Whatever
      { w with editor := { w.editor with committed := rest } } := by
  refine (runTaken_letsGo ?known).imp_ok fun _ w' holds => ?_
  case known => exact coherent.mode.imp_left (·.1)
  obtain ⟨same, letsGo, kept⟩ := holds
  rcases Nat.eq_zero_or_pos w.pauseDepth with free | paused
  · refine ⟨(letsGo free).coherent (same.trans free) coherent.queue, same, ?_, letsGo⟩
    have fewer := pending_lt_of_letsGo (letsGo free)
    rwa [← List.length_cons, ← taken] at fewer
  · have held : w'.editor.IsHeld := kept paused ▸ coherent.paused paused
    refine ⟨⟨.inr held, fun _ => held, fun free => ?_⟩, same, ?_, letsGo⟩
    · exact absurd (same.symm.trans free) (Nat.ne_of_gt paused)
    · simp only [pending, kept paused, taken, List.length_cons]
      omega

/-- Fuel for all that waits is enough for all that waits. -/
theorem runLines_settles (coherent : w.Coherent) (enough : w.pending ≤ fuel) :
    Ensures (runLines host depth fuel) (fun _ w' => w'.Settled ∧ w'.pauseDepth = w.pauseDepth)
      Whatever w := by
  induction fuel generalizing w with
  | zero =>
    have none : w.editor.committed = [] := by
      refine List.eq_nil_of_length_eq_zero ?_
      unfold pending at enough
      omega
    exact ⟨⟨coherent, none⟩, rfl⟩
  | succ fuel ih =>
    cases taken : w.editor.committed with
    | nil => exact (ensures_runLines_of_none taken).mpr ⟨⟨coherent, taken⟩, rfl⟩
    | cons line rest =>
      refine (ensures_runLines_of_cons taken).mpr ?_
      refine (runTaken_coherent coherent taken).imp_ok fun _ w' holds => ?_
      obtain ⟨coherent', same, fewer, _⟩ := holds
      rw [← same]
      exact ih coherent' (by omega)

end Lines

/-! ## Turns -/

/-- Messages and a key keep the worker and its editor in agreement. -/
theorem intake_coherent (messages : List Message) (polled : Option (Except IoFault KeyEvent))
    {w : Worker H S} (coherent : w.Coherent) :
    Ensures (intake messages polled) (fun _ w' => w'.Coherent ∧
      w'.pauseDepth = messages.foldl depthAfter w.pauseDepth) Whatever w := by
  simp only [intake, ensures_bind]
  apply (receiveAll_coherent messages coherent).imp_ok
  intro _ w' holds
  obtain ⟨coherent', count⟩ := holds
  split
  · rw [ensures_pure]
    exact ⟨coherent', count⟩
  · rw [ensures_throw]
    trivial
  · apply (handleKey_coherent _ coherent').imp_ok
    intro _ w'' holds
    obtain ⟨coherent'', same, _⟩ := holds
    exact ⟨coherent'', same.trans count⟩

theorem turn_settles (host : Host H) (depth : Nat) (t : Turn) {w : Worker H S}
    (settled : w.Settled) :
    Ensures (turn host depth t.messages t.polled) (fun _ w' => w'.Settled ∧
      w'.pauseDepth = t.messages.foldl depthAfter w.pauseDepth) Whatever w := by
  simp only [turn, runCommitted, ensures_bind, ensures_get]
  apply (intake_coherent t.messages t.polled settled.coherent).imp_ok
  intro _ w' holds
  obtain ⟨coherent, count⟩ := holds
  rw [← count]
  exact runLines_settles coherent (Nat.le_refl _)

theorem loop_settles (host : Host H) (depth : Nat) (turns : List Turn) {w : Worker H S}
    (settled : w.Settled) :
    Ensures (loop host depth turns) (fun _ w' => w'.Settled ∧
      w'.pauseDepth = (turns.flatMap Turn.messages).foldl depthAfter w.pauseDepth) Whatever w := by
  induction turns generalizing w with
  | nil => exact ⟨settled, rfl⟩
  | cons t rest ih =>
    simp only [loop, ensures_bind]
    apply (turn_settles host depth t settled).imp_ok
    intro _ w' holds
    obtain ⟨settled', count⟩ := holds
    rw [List.flatMap_cons, List.foldl_append, ← count]
    exact ih settled'

theorem start_settles (shell : Shell H) (prompt : String) (rawInput : Bool) (screen : S) :
    Ensures (onEditor Session.start) (fun _ w => w.Settled ∧ w.pauseDepth = 0) Whatever
      (fresh shell prompt rawInput screen) := by
  apply ensures_onEditor (start_edits rfl)
  intro s holds
  obtain ⟨editing, queue, committed⟩ := holds
  exact ⟨⟨coherent_of_editing rfl editing queue, committed⟩, rfl⟩

/-- Each time the worker is at the head of its loop, it is settled and has counted all messages. -/
theorem eventLoop_counts (host : Host H) (depth : Nat) (shell : Shell H) (prompt : String)
    (rawInput : Bool) (screen : S) (turns : List Turn) :
    Ensures (eventLoop host depth turns) (fun _ w => w.Settled ∧
      w.pauseDepth = (turns.flatMap Turn.messages).foldl depthAfter 0) Whatever
      (fresh shell prompt rawInput screen) := by
  simp only [eventLoop, ensures_bind]
  apply (start_settles shell prompt rawInput screen).imp_ok
  intro _ w holds
  obtain ⟨settled, free⟩ := holds
  rw [← free]
  exact loop_settles host depth turns settled

/-- However a run goes, the worker is settled each time it is at the head of its loop. -/
theorem eventLoop_settles (host : Host H) (depth : Nat) (shell : Shell H) (prompt : String)
    (rawInput : Bool) (screen : S) (turns : List Turn) :
    Ensures (eventLoop host depth turns) (fun _ => Settled) Whatever
      (fresh shell prompt rawInput screen) :=
  (eventLoop_counts host depth shell prompt rawInput screen turns).imp_ok fun _ _ holds => holds.1

end Worker

end LineConsole
