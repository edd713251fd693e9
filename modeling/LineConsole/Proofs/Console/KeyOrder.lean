import LineConsole.Proofs.Console.Courtesy
import LineConsole.Proofs.Console.Handed
import LineConsole.Proofs.Console.Stopping
import LineConsole.Proofs.Editor.Unheld

/-! # Lines are run in the order of their keys

Between a key and the shell lie the queue, the draft and the lines that wait. Whatever arrives
meanwhile, the lines that were run and those that are still to come are together the lines that the
keys enter in a draft, one key after the other. So the worker runs what an editor that no one holds
would have handed out, in that order and nothing else, up to a line that stops the worker; and all
of it once no one holds the worker any longer.

The keys must not walk through the history, since the lines that are run change it.
-/

namespace LineConsole

/-- The key event that was polled in a turn. -/
def Turn.keys (t : Turn) : List KeyEvent :=
  match t.polled with
  | some (.ok event) => [event]
  | _ => []

/-- The key events that were polled in the course of the turns. -/
def polledKeys (turns : List Turn) : List KeyEvent := turns.flatMap Turn.keys

namespace Worker

open Session KeyEvent

variable {H S : Type}

/-- The editor's session. -/
def session (w : Worker H S) : Session S := ⟨w.editor, w.screen, w.shell.history⟩

/-- No key that is still to come walks through the history. -/
def Straight (w : Worker H S) (events : List KeyEvent) : Prop :=
  ∀ key ∈ w.session.toCome events, ¬ key.Walks

/-- From one worker to the other these lines were handed to the shell, and the lines to come are
those that were to come behind them. Both workers stand in front of events to be polled. -/
structure Serves (host : Host H) (depth : Nat) (given : List String) (w : Worker H S)
    (events : List KeyEvent) (w' : Worker H S) (later : List KeyEvent) : Prop where
  straight : w'.Straight later
  owed : given ++ w'.session.owed later = w.session.owed events
  shell : w.shell.afterLines host depth given = some w'.shell

/-- When something stopped the worker, the lines that were handed to the shell are the first of those
that it was to run, and all of them if one of them stopped it. -/
structure BreaksOff (host : Host H) (depth : Nat) (given : List String) (w : Worker H S)
    (events : List KeyEvent) (stop : Stop) : Prop where
  begins : given <+: w.shell.untilStop host depth (w.session.owed events)
  all : stop.ByLine → given = w.shell.untilStop host depth (w.session.owed events)

variable {host : Host H} {depth : Nat}

theorem Serves.trans {first second : List String} {w w' w'' : Worker H S}
    {events between later : List KeyEvent} (before : Serves host depth first w events w' between)
    (behind : Serves host depth second w' between w'' later) :
    Serves host depth (first ++ second) w events w'' later := by
  refine ⟨behind.straight, ?_, ?_⟩
  · rw [List.append_assoc, behind.owed, before.owed]
  · rw [Shell.afterLines_append second before.shell, behind.shell]

theorem Serves.refl {w : Worker H S} {events : List KeyEvent} (straight : w.Straight events) :
    Serves host depth [] w events w events :=
  ⟨straight, rfl, rfl⟩

/-- The lines that were handed over are the first of those to be run. -/
theorem Serves.begins {given : List String} {w w' : Worker H S} {events later : List KeyEvent}
    (serves : Serves host depth given w events w' later) :
    given <+: w.shell.untilStop host depth (w.session.owed events) := by
  rw [← serves.owed, Shell.untilStop_append _ serves.shell]
  exact List.prefix_append _ _

theorem Serves.breaksOff {given more : List String} {w w' : Worker H S}
    {events later : List KeyEvent} {stop : Stop} (serves : Serves host depth given w events w' later)
    (breaksOff : BreaksOff host depth more w' later stop) :
    BreaksOff host depth (given ++ more) w events stop := by
  have behind : w.shell.untilStop host depth (w.session.owed events) =
      given ++ w'.shell.untilStop host depth (w'.session.owed later) := by
    rw [← serves.owed, Shell.untilStop_append _ serves.shell]
  refine ⟨?_, fun byLine => ?_⟩
  · rw [behind]
    exact (List.prefix_append_right_inj given).mpr breaksOff.begins
  · rw [behind, ← breaksOff.all byLine]

/-- What was handed over first and what is then come together. -/
theorem Serves.andThen {action : Work H S Unit} {given more : List String} {w w' : Worker H S}
    {events between later : List KeyEvent} (first : Serves host depth given w events w' between)
    (behind : Ensures action (fun _ w'' => Serves host depth more w' between w'' later)
      (fun stop _ => BreaksOff host depth more w' between stop) w') :
    Ensures action (fun _ w'' => Serves host depth (given ++ more) w events w'' later)
      (fun stop _ => BreaksOff host depth (given ++ more) w events stop) w' :=
  behind.imp (fun _ _ => first.trans) fun _ _ => first.breaksOff

/-- A failure before any line was handed over. -/
theorem breaksOff_of_failed {w : Worker H S} {events : List KeyEvent} {stop : Stop}
    (failed : ∃ fault, stop = .failed fault) : BreaksOff host depth [] w events stop := by
  obtain ⟨fault, rfl⟩ := failed
  exact ⟨List.nil_prefix, fun byLine => absurd rfl (byLine fault)⟩

variable (host depth)

/-- What the editor takes in is no longer to be polled, and no line is handed over for it. -/
theorem serves_onEditor {action : Action (Session S) Unit} {events : List KeyEvent}
    (later : List KeyEvent) {w : Worker H S} (straight : w.Straight (events ++ later))
    (takesIn : Ensures action (fun _ => w.session.TakesIn events) Whatever w.session) :
    Ensures (onEditor action) (fun _ w' => Serves host depth [] w (events ++ later) w' later)
      (fun stop _ => BreaksOff host depth [] w (events ++ later) stop) w := by
  have stays : ∀ key ∈ w.session.toCome events, ¬ key.Walks := by
    intro key there
    refine straight key ?_
    rw [toCome, decodeAll_append, ← List.append_assoc]
    exact List.mem_append_left _ there
  have serves : Ensures (onEditor action)
      (fun _ w' => Serves host depth [] w (events ++ later) w' later) Whatever w := by
    apply ensures_onEditor takesIn
    intro s takesIn
    have history : s.history = w.shell.history := takesIn.history_eq stays
    refine ⟨fun key there => ?_, takesIn.owed_eq later, ?_⟩
    · exact straight key (takesIn.toCome_subset later there)
    · rw [history]
      rfl
  exact (onEditor_stops.and serves).imp (fun _ _ holds => holds.2) fun _ _ => breaksOff_of_failed

/-- Pausing and resuming hand over nothing. -/
theorem serves_of_goesOn {action : Action (Session S) Unit} {events : List KeyEvent}
    {w : Worker H S} (straight : w.Straight events)
    (goesOn : Ensures action (fun _ => w.session.GoesOn) Whatever w.session) :
    Ensures (onEditor action) (fun _ w' => Serves host depth [] w events w' events)
      (fun stop _ => BreaksOff host depth [] w events stop) w := by
  have straight' : w.Straight ([] ++ events) := straight
  exact serves_onEditor host depth events straight' goesOn

variable [Screen S]

/-! ## Intake -/

theorem receive_serves (message : Message) {events : List KeyEvent} {w : Worker H S}
    (straight : w.Straight events) :
    Ensures (receive message) (fun _ w' => Serves host depth [] w events w' events)
      (fun stop _ => BreaksOff host depth [] w events stop) w := by
  cases message with
  | pause =>
    simp only [receive, ensures_bind, ensures_get, ensures_ite]
    split
    · apply (serves_of_goesOn host depth straight pause_goesOn).imp_ok
      intro _ w' serves
      exact ⟨serves.straight, serves.owed, serves.shell⟩
    · exact ⟨straight, rfl, rfl⟩
  | resume =>
    simp only [receive, ensures_bind, ensures_get, ensures_modify, ensures_ite]
    have straight' : Straight { w with pauseDepth := w.pauseDepth - 1 } events := straight
    split
    · refine (serves_of_goesOn host depth straight' resume_goesOn).imp ?_ ?_
      · intro _ w' serves
        exact ⟨serves.straight, serves.owed, serves.shell⟩
      · intro _ _ breaksOff
        exact ⟨breaksOff.begins, breaksOff.all⟩
    · exact ⟨straight, rfl, rfl⟩

theorem receiveAll_serves (messages : List Message) {events : List KeyEvent} {w : Worker H S}
    (straight : w.Straight events) :
    Ensures (receiveAll messages) (fun _ w' => Serves host depth [] w events w' events)
      (fun stop _ => BreaksOff host depth [] w events stop) w := by
  induction messages generalizing w with
  | nil => exact .refl straight
  | cons message rest ih =>
    simp only [receiveAll, ensures_bind]
    apply (receive_serves host depth message straight).imp_ok
    intro _ w' first
    exact first.andThen (ih first.straight)

/-- Behind the messages the key that was polled is taken in, if there is one. -/
theorem intake_serves (t : Turn) {later : List KeyEvent} {w : Worker H S} (coherent : w.Coherent)
    (straight : w.Straight (t.keys ++ later)) :
    Ensures (intake t.messages t.polled)
      (fun _ w' => Serves host depth [] w (t.keys ++ later) w' later)
      (fun stop _ => BreaksOff host depth [] w (t.keys ++ later) stop) w := by
  simp only [intake, ensures_bind]
  apply ((receiveAll_serves host depth t.messages straight).and
    (receiveAll_coherent t.messages coherent)).imp_ok
  intro _ w' holds
  obtain ⟨serves, coherent', -⟩ := holds
  have direct : w'.session.editor.paused = false → w'.session.editor.queue = [] := by
    intro going
    rcases coherent'.mode with ⟨-, empty⟩ | held
    · exact empty
    · exact absurd (going.symm.trans held.1) Bool.false_ne_true
  rcases polled : t.polled with _ | fault | event
  · have keys : t.keys = [] := by rw [Turn.keys, polled]
    rw [keys] at serves ⊢
    exact serves
  · exact breaksOff_of_failed ⟨fault, rfl⟩
  · have keys : t.keys = [event] := by rw [Turn.keys, polled]
    rw [keys] at serves ⊢
    exact serves.andThen
      (serves_onEditor host depth later serves.straight (handleKey_takesIn event direct))

/-! ## Lines -/

omit [Screen S] in
/-- A line that was taken counts as handed over once it was run. -/
private theorem serves_of_runLine {line : String} {rest : List String} {later : List KeyEvent}
    {shell : Shell H} {w : Worker H S} (straight : w.Straight later)
    (taken : w.editor.committed = line :: rest)
    (ran : w.shell.runLine host depth line = some (shell, none)) :
    Serves host depth [line] w later
      { w with editor := { w.editor with committed := rest }, shell } later := by
  refine ⟨straight, ?_, ?_⟩
  · have same : Draft.entered ⟨w.editor.buffer, w.editor.cursor, shell.history⟩
        (w.session.toCome later) = w.session.draft.entered (w.session.toCome later) :=
      Draft.entered_history w.session.draft shell.history straight
    change line :: (rest ++ Draft.entered ⟨w.editor.buffer, w.editor.cursor, shell.history⟩
      (w.session.toCome later)) = w.editor.committed ++ _
    rw [same, taken]
    rfl
  · rw [Shell.afterLines, ran]
    rfl

omit [Screen S] in
/-- A line that stops the worker is the last of those to be run. -/
private theorem breaksOff_of_runLine {line : String} {rest : List String} {later : List KeyEvent}
    {stop : Stop} {w : Worker H S} (taken : w.editor.committed = line :: rest)
    (stops : ∀ shell, w.shell.runLine host depth line ≠ some (shell, none)) :
    BreaksOff host depth [line] w later stop := by
  have first : w.session.owed later =
      line :: (rest ++ w.session.draft.entered (w.session.toCome later)) :=
    congrArg (· ++ _) taken
  have all : w.shell.untilStop host depth (w.session.owed later) = [line] := by
    rw [first, Shell.untilStop_of_stops _ stops]
  exact ⟨all ▸ List.prefix_rfl, fun _ => all.symm⟩

theorem runTaken_serves {line : String} {rest : List String} {later : List KeyEvent}
    {w : Worker H S} (straight : w.Straight later) (taken : w.editor.committed = line :: rest) :
    Ensures (runTaken host depth line) (fun _ w' => Serves host depth [line] w later w' later)
      (fun stop _ => BreaksOff host depth [line] w later stop)
      { w with editor := { w.editor with committed := rest } } := by
  simp only [runTaken, ensures_bind, ensures_get, ensures_ite]
  refine ensures_runLine (fun shell ran => ?_) fun stops stop _ _ => ?_
  · have serves := serves_of_runLine host depth straight taken ran
    split
    · exact serves.andThen (serves_of_goesOn host depth serves.straight resume_goesOn)
    · exact serves
  · exact breaksOff_of_runLine host depth taken stops

/-- By induction on the fuel: each line that is run was the first of those to come. -/
theorem runLines_serves (fuel : Nat) {later : List KeyEvent} {w : Worker H S}
    (straight : w.Straight later) :
    Ensures (runLines host depth fuel)
      (fun _ w' => Serves host depth (linesRun host depth fuel w) w later w' later)
      (fun stop _ => BreaksOff host depth (linesRun host depth fuel w) w later stop) w := by
  induction fuel generalizing w with
  | zero => exact .refl straight
  | succ fuel ih =>
    cases taken : w.editor.committed with
    | nil =>
      simp only [linesRun, Editor.takeLine, taken]
      exact (ensures_runLines_of_none taken).mpr (.refl straight)
    | cons line rest =>
      have first := runTaken_serves host depth straight taken
      refine (ensures_runLines_of_cons taken).mpr ?_
      simp only [linesRun, Editor.takeLine, taken]
      cases ran : runTaken host depth line
          { w with editor := { w.editor with committed := rest } } with
      | ok _ w' =>
        have serves := first.of_eq_ok ran
        exact (ensures_of_eq_ok ran).mpr (serves.andThen (ih serves.straight))
      | error stop w' => exact (ensures_of_eq_error ran).mpr (first.of_eq_error ran)

/-! ## Turns -/

theorem turn_serves (t : Turn) {later : List KeyEvent} {w : Worker H S} (coherent : w.Coherent)
    (straight : w.Straight (t.keys ++ later)) :
    Ensures (turn host depth t.messages t.polled)
      (fun _ w' => Serves host depth (handedInTurn host depth t w) w (t.keys ++ later) w' later)
      (fun stop _ => BreaksOff host depth (handedInTurn host depth t w) w (t.keys ++ later) stop)
      w := by
  have first := intake_serves host depth t coherent straight
  simp only [turn, runCommitted, ensures_bind, ensures_get, handedInTurn]
  cases taken : intake t.messages t.polled w with
  | ok _ ready =>
    have serves := first.of_eq_ok taken
    exact (ensures_of_eq_ok taken).mpr
      (serves.andThen (runLines_serves host depth _ serves.straight))
  | error stop w' => exact (ensures_of_eq_error taken).mpr (first.of_eq_error taken)

theorem polledKeys_cons (t : Turn) (rest : List Turn) (later : List KeyEvent) :
    polledKeys (t :: rest) ++ later = t.keys ++ (polledKeys rest ++ later) := by
  rw [polledKeys, List.flatMap_cons, List.append_assoc]
  rfl

/-- By induction on the turns: what is still to come after one turn is to come behind the lines that
it handed over. -/
theorem loop_serves (turns : List Turn) {later : List KeyEvent} {w : Worker H S}
    (settled : w.Settled) (straight : w.Straight (polledKeys turns ++ later)) :
    Ensures (loop host depth turns)
      (fun _ w' => Serves host depth (handedInLoop host depth turns w) w
        (polledKeys turns ++ later) w' later)
      (fun stop _ => BreaksOff host depth (handedInLoop host depth turns w) w
        (polledKeys turns ++ later) stop) w := by
  induction turns generalizing w with
  | nil => exact .refl straight
  | cons t rest ih =>
    rw [polledKeys_cons] at straight ⊢
    have first := turn_serves host depth t settled.coherent straight
    simp only [loop, ensures_bind, handedInLoop]
    cases ran : turn host depth t.messages t.polled w with
    | ok _ w' =>
      have serves := first.of_eq_ok ran
      have settled' := ((turn_settles host depth t settled).of_eq_ok ran).1
      exact (ensures_of_eq_ok ran).mpr (serves.andThen (ih settled' serves.straight))
    | error stop w' =>
      rw [List.append_nil]
      exact (ensures_of_eq_error ran).mpr (first.of_eq_error ran)

/-! ## Runs -/

theorem eventLoop_serves (shell : Shell H) (prompt : String) (rawInput : Bool) (screen : S)
    (turns : List Turn) {later : List KeyEvent}
    (straight : (fresh shell prompt rawInput screen).Straight (polledKeys turns ++ later)) :
    Ensures (eventLoop host depth turns)
      (fun _ w => Serves host depth (handed host depth turns (fresh shell prompt rawInput screen))
        (fresh shell prompt rawInput screen) (polledKeys turns ++ later) w later)
      (fun stop _ => BreaksOff host depth
        (handed host depth turns (fresh shell prompt rawInput screen))
        (fresh shell prompt rawInput screen) (polledKeys turns ++ later) stop)
      (fresh shell prompt rawInput screen) := by
  have first := serves_of_goesOn host depth straight start_goesOn
  simp only [eventLoop, ensures_bind, handed]
  cases began : onEditor Session.start (fresh shell prompt rawInput screen) with
  | ok _ w =>
    have serves := first.of_eq_ok began
    have settled := ((start_settles shell prompt rawInput screen).of_eq_ok began).1
    exact (ensures_of_eq_ok began).mpr
      (serves.andThen (loop_serves host depth turns settled serves.straight))
  | error stop w => exact (ensures_of_eq_error began).mpr (first.of_eq_error began)

omit [Screen S] in
/-- At the head of the loop, with the worker held by no one, no line and no key waits. -/
theorem Settled.owed_nil {w : Worker H S} (settled : w.Settled) (free : w.pauseDepth = 0) :
    w.session.owed [] = [] := by
  have empty : w.editor.queue = [] := by
    rcases settled.coherent.mode with ⟨-, empty⟩ | held
    · exact empty
    · exact absurd settled.committed (settled.coherent.waiting free held)
  rw [owed, toCome]
  change w.editor.committed ++ Draft.entered _ (w.editor.queue ++ []) = []
  rw [settled.committed, empty]
  rfl

/-- However pauses, resumes and keys arrive, the lines that a run hands to the shell are the first
of those that a fresh editor which no one holds hands out for the same keys, up to one that stops the
shell; at every moment of the run they are, since a run hands over one line behind the other. At the
head of the loop, once every pause was followed by its resume, they are all of those. A run that is
stopped while its input lasts is stopped by one of them, and they are all up to that one. -/
theorem handed_in_typed_order (shell : Shell H) (prompt : String) (rawInput : Bool) (screen : S)
    (turns : List Turn) (later : List KeyEvent) (reliable : Screen.NeverFails screen)
    (straight : ∀ key ∈ decodeAll (Editor.new prompt rawInput).decoder (polledKeys turns ++ later),
      ¬ key.Walks) :
    ∃ lines s, typeFresh (polledKeys turns ++ later)
        ⟨Editor.new prompt rawInput, screen, shell.history⟩ = .ok lines s ∧
      handed host depth turns (fresh shell prompt rawInput screen) <+:
        shell.untilStop host depth lines ∧
      (∀ w, eventLoop host depth turns (fresh shell prompt rawInput screen) = .ok () w →
        Courteous turns → Released turns → later = [] →
        handed host depth turns (fresh shell prompt rawInput screen) = lines ∧
          shell.untilStop host depth lines = lines) ∧
      ∀ stop w, eventLoop host depth turns (fresh shell prompt rawInput screen) = .error stop w →
        InputLasts turns →
        handed host depth turns (fresh shell prompt rawInput screen) =
          shell.untilStop host depth lines := by
  obtain ⟨lines, s, typed, entered⟩ :=
    typeFresh_enters prompt rawInput shell.history (polledKeys turns ++ later) reliable
  have owed : (fresh shell prompt rawInput screen).session.owed (polledKeys turns ++ later) = lines :=
    entered.symm
  have run := eventLoop_serves host depth shell prompt rawInput screen turns straight
  cases ended : eventLoop host depth turns (fresh shell prompt rawInput screen) with
  | ok _ w =>
    have serves := run.of_eq_ok ended
    have begins : handed host depth turns (fresh shell prompt rawInput screen) <+:
        shell.untilStop host depth lines := owed ▸ serves.begins
    refine ⟨lines, s, typed, begins, ?_, ?_⟩
    · rintro _ ⟨⟩ courteous released rfl
      obtain ⟨settled, count⟩ :=
        (eventLoop_counts host depth shell prompt rawInput screen turns).of_eq_ok ended
      have free : w.pauseDepth = 0 := count.trans (courteous.depth_eq_zero released)
      have all := serves.owed
      rw [settled.owed_nil free, List.append_nil, owed] at all
      refine ⟨all, ?_⟩
      rw [all] at begins
      exact (Shell.untilStop_begins shell lines).eq_of_length_le begins.length_le
    · rintro _ _ ⟨⟩
  | error stop w =>
    have breaksOff := run.of_eq_error ended
    refine ⟨lines, s, typed, owed ▸ breaksOff.begins, ?_, ?_⟩
    · rintro _ ⟨⟩
    · rintro _ _ ⟨⟩ lasts
      have byLine : stop.ByLine := (eventLoop_stops turns reliable lasts).of_eq_error ended
      exact owed ▸ breaksOff.all byLine

/-! ## Keys typed while two clients hold the worker -/

/-- The first client pauses, `x` and the left arrow are typed, and the second one pauses before the
arrow is complete. `y`, the enter key and `z` follow while only the second one holds the worker. It
resumes in the turn that polls the enter key behind `z`. -/
def typedAcrossPauses : List Turn :=
  [⟨[⟨0, .pause⟩], some (.ok (.ofChar 'x'))⟩, ⟨[], some (.ok (.ofChar '\x1b'))⟩,
    ⟨[⟨1, .pause⟩], some (.ok (.ofChar '['))⟩, ⟨[], some (.ok (.ofChar 'D'))⟩,
    ⟨[⟨0, .resume⟩], some (.ok (.ofChar 'y'))⟩, ⟨[], some (.ok (.ofChar '\r'))⟩,
    ⟨[], some (.ok (.ofChar 'z'))⟩, ⟨[⟨1, .resume⟩], some (.ok (.ofChar '\r'))⟩]

/-- A worker in front of a terminal in raw mode, whose shell has no commands. -/
def rawBare : Worker Empty MemoryScreen :=
  fresh ({ } : ShellSetup Empty).shell "> " true (.ofWidth 40)

abbrev noHandlers : Host Empty := nofun

theorem handed_of_typedAcrossPauses : Screen.NeverFails (MemoryScreen.ofWidth 40) ∧
    (∀ key ∈ decodeAll (Editor.new "> " true).decoder (polledKeys typedAcrossPauses ++ []),
      ¬ key.Walks) ∧
    Courteous typedAcrossPauses ∧ Released typedAcrossPauses ∧
    (∃ w, eventLoop noHandlers 1 typedAcrossPauses rawBare = .ok () w) ∧
    handed noHandlers 1 typedAcrossPauses rawBare = ["yx", "z"] ∧
    ∃ s, typeFresh (polledKeys typedAcrossPauses ++ [])
      ⟨Editor.new "> " true, MemoryScreen.ofWidth 40, rawBare.shell.history⟩ =
        .ok ["yx", "z"] s := by
  have reliable := MemoryScreen.neverFails (MemoryScreen.ofWidth 40)
  have courteous : Courteous typedAcrossPauses := by
    intro client
    match client with
    | 0 | 1 => decide
    | n + 2 => simp [messagesOf, typedAcrossPauses, alternates]
  have released : Released typedAcrossPauses := by
    intro client
    match client with
    | 0 | 1 => decide
    | n + 2 => simp [messagesOf, typedAcrossPauses]
  have straight : ∀ key ∈ decodeAll (Editor.new "> " true).decoder
      (polledKeys typedAcrossPauses ++ []), ¬ key.Walks := by decide +kernel
  have ran : ∃ w, eventLoop noHandlers 1 typedAcrossPauses rawBare = .ok () w ∧ True := by
    decide +kernel
  have given : handed noHandlers 1 typedAcrossPauses rawBare = ["yx", "z"] := by
    decide +kernel
  obtain ⟨w, ended, -⟩ := ran
  obtain ⟨lines, s, typed, -, all, -⟩ := handed_in_typed_order noHandlers 1
    ({ } : ShellSetup Empty).shell "> " true (MemoryScreen.ofWidth 40) typedAcrossPauses []
    reliable straight
  obtain ⟨same, -⟩ := all w ended courteous released rfl
  have lines' : lines = ["yx", "z"] := same.symm.trans given
  exact ⟨reliable, straight, courteous, released, ⟨w, ended⟩, given, s, lines' ▸ typed⟩

end Worker

end LineConsole
