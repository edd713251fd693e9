import LineConsole.Proofs.Console.Handed
import LineConsole.Proofs.Console.Handover
import LineConsole.Proofs.Editor.Queueing
import LineConsole.Proofs.Screen.Journal

/-! # While others have the worker paused

From the moment a pause was received until the last who paused has resumed, the worker leaves the
screen to others: a sequence of keys that it does not know rings the bell, and nothing is drawn.
Keys that arrive are queued. Lines are not run either, with one exception: a line that a resume of
the same intake had replayed waits already when the pause is received, and is run behind it.
-/

namespace LineConsole

/-- Nothing was drawn between the two: the screen was asked for bells and flushes only. -/
def Undrawn {S : Type} (before after : WatchedScreen S) : Prop :=
  ∃ calls : List ScreenCall, (∀ call ∈ calls, call = .bell ∨ call = .flush) ∧
    after.journal = before.journal ++ calls.map .call

section Screens

variable {S : Type} {first second third : WatchedScreen S}

theorem Undrawn.refl (screen : WatchedScreen S) : Undrawn screen screen :=
  ⟨[], nofun, (List.append_nil _).symm⟩

theorem Undrawn.trans (before : Undrawn first second) (behind : Undrawn second third) :
    Undrawn first third := by
  obtain ⟨calls, quiet, journal⟩ := before
  obtain ⟨calls', quiet', journal'⟩ := behind
  refine ⟨calls ++ calls', fun call made => ?_, ?_⟩
  · exact (List.mem_append.mp made).elim (quiet call) (quiet' call)
  · rw [journal', journal, List.append_assoc, List.map_append]

end Screens

namespace Session

variable {S : Type} [Screen S] {start : WatchedScreen S} {waiting : List String}

/-- The editor is paused, these lines wait, and since `start` nothing was drawn. -/
structure Still (start : WatchedScreen S) (waiting : List String) (s : Session (WatchedScreen S)) :
    Prop where
  paused : s.editor.paused = true
  waiting : s.editor.committed = waiting
  undrawn : Undrawn start s.screen

omit [Screen S] in
private theorem onScreen_still {call : ScreenCall} (quiet : call = .bell ∨ call = .flush)
    (action : Action S Unit) :
    Maintains (Still start waiting) (onScreen (WatchedScreen.pass call action)) := by
  intro s still
  have rings (screen : WatchedScreen S)
      (journal : screen.journal = s.screen.journal ++ [.call call]) :
      Still start waiting { s with screen } := by
    refine ⟨still.paused, still.waiting, still.undrawn.trans ⟨[call], ?_, journal⟩⟩
    exact fun _ made => List.mem_singleton.mp made ▸ quiet
  rw [ensures_onScreen]
  exact (WatchedScreen.pass_journal call action s.screen).imp (fun _ => rings) fun _ => rings

/-- A paused editor takes keys in without drawing. -/
theorem handleKey_still (event : KeyEvent) :
    Maintains (Still start waiting) (handleKey event) := by
  intro s still
  have decodes (decoder : Option SequenceDecoder) :
      Still start waiting { s with editor := { s.editor with decoder } } :=
    ⟨still.paused, still.waiting, still.undrawn⟩
  rcases decoded : event.decode s.editor.decoder with ⟨_ | key, decoder⟩
  · rcases handleKey_of_none decoded with silent | rings
    · rw [ensures_of_eq_ok silent]
      exact decodes decoder
    · rw [ensures_congr rings]
      exact maintains_bind (onScreen_still (.inl rfl) Screen.bell)
        (fun _ => onScreen_still (.inr rfl) Screen.flush) _ (decodes decoder)
  · rw [ensures_congr (handleKey_of_key decoded)]
    simp only [receive, edit, ensures_bind, ensures_get]
    rw [if_pos still.paused]
    exact ⟨still.paused, still.waiting, still.undrawn⟩

end Session

namespace Worker

open Session

variable {H S : Type} [Screen S] {start : WatchedScreen S}

/-- As many have the worker paused, these lines wait, and since `start` nothing was drawn. -/
structure Still (start : WatchedScreen S) (count : Nat) (waiting : List String)
    (w : Worker H (WatchedScreen S)) : Prop where
  count : w.pauseDepth = count
  paused : w.editor.paused = true
  waiting : w.editor.committed = waiting
  undrawn : Undrawn start w.screen

/-- Others have the worker paused before and after each of these messages. -/
def HeldThrough : Nat → List Message → Prop
  | count, [] => 0 < count
  | count, message :: rest => 0 < count ∧ HeldThrough (depthAfter count message) rest

theorem HeldThrough.pos {count : Nat} {messages : List Message}
    (held : HeldThrough count messages) : 0 < count := by
  cases messages with
  | nil => exact held
  | cons message rest => exact held.1

theorem heldThrough_append {count : Nat} {messages more : List Message} :
    HeldThrough count (messages ++ more) ↔ HeldThrough count messages ∧
      HeldThrough (messages.foldl depthAfter count) more := by
  induction messages generalizing count with
  | nil => exact ⟨fun held => ⟨held.pos, held⟩, fun held => held.2⟩
  | cons message rest ih =>
    simp only [List.cons_append, HeldThrough, List.foldl_cons, ih, and_assoc]

variable {count : Nat} {waiting : List String} {w : Worker H (WatchedScreen S)}

theorem receive_still {message : Message} (still : w.Still start count waiting) (held : 0 < count)
    (stays : 0 < depthAfter count message) :
    Ensures (receive message) (fun _ => Still start (depthAfter count message) waiting)
      Impossible w := by
  have paused : w.pauseDepth ≠ 0 := still.count ▸ Nat.ne_of_gt held
  cases message with
  | pause =>
    simp only [receive, ensures_bind, ensures_get, ensures_ite, ensures_modify]
    rw [if_neg paused]
    exact ⟨congrArg (· + 1) still.count, still.paused, still.waiting, still.undrawn⟩
  | resume =>
    have paused' : ¬ w.pauseDepth - 1 = 0 := still.count ▸ Nat.ne_of_gt stays
    simp only [receive, ensures_bind, ensures_get, ensures_ite, ensures_modify]
    rw [if_neg paused']
    exact ⟨congrArg (· - 1) still.count, still.paused, still.waiting, still.undrawn⟩

theorem receiveAll_still {messages : List Message} (still : w.Still start count waiting)
    (held : HeldThrough count messages) :
    Ensures (receiveAll messages) (fun _ => Still start (messages.foldl depthAfter count) waiting)
      Impossible w := by
  induction messages generalizing w count with
  | nil => exact still
  | cons message rest ih =>
    simp only [receiveAll, ensures_bind]
    exact (receive_still still held.pos held.2.pos).imp_ok fun _ _ still' => ih still' held.2

omit [Screen S] in
private theorem onEditor_still {action : Action (Session (WatchedScreen S)) Unit}
    (maintains : Maintains (Session.Still start waiting) action) :
    Maintains (Still (H := H) start count waiting) (onEditor action) := by
  intro w still
  have back (s : Session (WatchedScreen S)) (acts : Session.Still start waiting s) :
      Still start count waiting { w with
        editor := s.editor, screen := s.screen, shell := { w.shell with history := s.history } } :=
    ⟨still.count, acts.paused, acts.waiting, acts.undrawn⟩
  rw [ensures_onEditor_iff]
  exact (maintains ⟨w.editor, w.screen, w.shell.history⟩
    ⟨still.paused, still.waiting, still.undrawn⟩).imp (fun _ => back) fun _ => back

omit [Screen S] in
/-- A line changes nothing but the shell, whether it stops the worker or not. -/
private theorem runLine_still (host : Host H) (depth : Nat) (line : String) :
    Maintains (Still (H := H) start count waiting) (runLine host depth line) := by
  intro w still
  have other (shell : Shell H) : Still start count waiting { w with shell } :=
    ⟨still.count, still.paused, still.waiting, still.undrawn⟩
  unfold Ensures runLine
  rcases w.shell.runLine host depth line with _ | ⟨shell, _ | code⟩
  · exact still
  · exact other shell
  · exact other shell

variable (host : Host H) (depth : Nat)

/-- While others have the worker paused, the editor is not resumed behind a line. -/
theorem runTaken_still (line : String) (still : w.Still start count waiting) (held : 0 < count) :
    Ensures (runTaken host depth line) (fun _ => Still start count waiting)
      (fun _ => Still start count waiting) w := by
  simp only [runTaken, ensures_bind, ensures_get, ensures_ite]
  apply (runLine_still host depth line w still).imp_ok
  intro _ w' still'
  rw [if_neg (still'.count ▸ Nat.ne_of_gt held)]
  exact still'

/-- The lines that wait are run, and no others come to wait. -/
theorem runLines_still (fuel : Nat) (still : w.Still start count waiting) (held : 0 < count) :
    Ensures (runLines host depth fuel)
      (fun _ w' => ∃ left, Still start count left w' ∧ (waiting.length ≤ fuel → left = []))
      (fun _ w' => Undrawn start w'.screen) w ∧
    linesRun host depth fuel w <+: waiting := by
  induction fuel generalizing w waiting with
  | zero =>
    refine ⟨⟨waiting, still, fun enough => ?_⟩, List.nil_prefix⟩
    exact List.eq_nil_of_length_eq_zero (Nat.le_zero.mp enough)
  | succ fuel ih =>
    cases waiting with
    | nil =>
      refine ⟨(ensures_runLines_of_none still.waiting).mpr ⟨[], still, fun _ => rfl⟩, ?_⟩
      simp [linesRun, Editor.takeLine, still.waiting]
    | cons line rest =>
      have taken :
          Still start count rest { w with editor := { w.editor with committed := rest } } :=
        ⟨still.count, still.paused, rfl, still.undrawn⟩
      have ran := runTaken_still host depth line taken held
      constructor
      · refine (ensures_runLines_of_cons still.waiting).mpr ?_
        refine ran.imp (fun _ w' still' => ?_) fun _ _ still' => still'.undrawn
        refine (ih still').1.imp_ok fun _ w'' holds => ?_
        obtain ⟨left, still'', all⟩ := holds
        exact ⟨left, still'', fun enough => all (Nat.le_of_succ_le_succ enough)⟩
      · simp only [linesRun, Editor.takeLine, still.waiting, List.prefix_cons_inj]
        split
        · rename_i ended
          exact (ih (ran.of_eq_ok ended)).2
        · exact List.nil_prefix

private theorem intake_still (t : Turn) (still : w.Still start count waiting)
    (held : HeldThrough count t.messages) :
    Ensures (intake t.messages t.polled)
      (fun _ => Still start (t.messages.foldl depthAfter count) waiting)
      (fun _ w' => Undrawn start w'.screen) w := by
  simp only [intake, ensures_bind]
  refine (receiveAll_still still held).imp (fun _ w' still' => ?_) fun _ _ => False.elim
  split
  · exact still'
  · exact still'.undrawn
  · exact (onEditor_still (handleKey_still _) w' still').imp (fun _ _ still'' => still'')
      fun _ _ still'' => still''.undrawn

theorem turn_still (t : Turn) (still : w.Still start count waiting)
    (held : HeldThrough count t.messages) :
    Ensures (turn host depth t.messages t.polled)
      (fun _ => Still start (t.messages.foldl depthAfter count) [])
      (fun _ w' => Undrawn start w'.screen) w ∧
    handedInTurn host depth t w <+: waiting := by
  have taken := intake_still t still held
  have held' : 0 < t.messages.foldl depthAfter count := by
    rw [← List.append_nil t.messages, heldThrough_append] at held
    exact held.2
  constructor
  · simp only [turn, runCommitted, ensures_bind, ensures_get]
    refine taken.imp_ok fun _ w' still' => ?_
    refine (runLines_still host depth _ still' held').1.imp_ok fun _ w'' holds => ?_
    obtain ⟨left, still'', all⟩ := holds
    rw [still'.waiting] at all
    exact all (Nat.le_add_right _ _) ▸ still''
  · rw [handedInTurn]
    split
    · rename_i ended
      exact (runLines_still host depth _ (taken.of_eq_ok ended) held').2
    · exact List.nil_prefix

/-- By induction on the turns: the first one runs all that waits, and in the others nothing does. -/
theorem loop_still (turns : List Turn) (still : w.Still start count waiting)
    (held : HeldThrough count (turns.flatMap Turn.messages)) :
    Ensures (loop host depth turns)
      (fun _ w' => ∃ left,
        Still start ((turns.flatMap Turn.messages).foldl depthAfter count) left w')
      (fun _ w' => Undrawn start w'.screen) w ∧
    handedInLoop host depth turns w <+: waiting := by
  induction turns generalizing w count waiting with
  | nil => exact ⟨⟨waiting, still⟩, List.nil_prefix⟩
  | cons t rest ih =>
    rw [List.flatMap_cons, heldThrough_append] at held
    obtain ⟨first, given⟩ := turn_still host depth t still held.1
    constructor
    · simp only [loop, ensures_bind, List.flatMap_cons, List.foldl_append]
      exact first.imp_ok fun _ _ still' => (ih still' held.2).1
    · rw [handedInLoop]
      split
      · rename_i ended
        have none := List.prefix_nil.mp (ih (first.of_eq_ok ended) held.2).2
        rw [none, List.append_nil]
        exact given
      · rw [List.append_nil]
        exact given

/-! ## From the acknowledgement on -/

section Acknowledgement

variable {w : Worker H S} {messages : List Message}

theorem receiveAll_append (messages more : List Message) :
    receiveAll (H := H) (S := S) (messages ++ more) =
      receiveAll messages >>= fun _ => receiveAll more := by
  induction messages with
  | nil => rfl
  | cons message rest ih => simp only [List.cons_append, receiveAll, ih, bind_assoc]

/-- Behind the first messages of a turn comes a turn that receives the others. -/
private theorem loop_behind (host : Host H) (depth : Nat) {t : Turn} {later : List ClientMessage}
    {w' : Worker H S} (arrive : t.messages = messages ++ later.map (·.message))
    (received : receiveAll messages w = .ok () w') (following : List Turn) :
    loop host depth (t :: following) w = loop host depth (⟨later, t.polled⟩ :: following) w' := by
  simp only [loop, turn, intake, arrive, receiveAll_append, bind_assoc]
  simp only [bind, EStateM.bind, received]
  rfl

/-- Only a resume can make a line wait. -/
private theorem receiveAll_committed (coherent : w.Coherent) : Ensures (receiveAll messages)
    (fun _ w' => w'.editor.committed = w.editor.committed ∨ .resume ∈ messages) Whatever w := by
  induction messages generalizing w with
  | nil => exact .inl rfl
  | cons message rest ih =>
    simp only [receiveAll, ensures_bind]
    cases message with
    | pause =>
      apply (receive_pause coherent).imp_ok
      intro _ w' holds
      obtain ⟨coherent', -, same⟩ := holds
      apply (ih coherent').imp_ok
      intro _ _ holds
      exact holds.imp (·.trans same) (List.mem_cons_of_mem _)
    | resume =>
      apply (receive_coherent .resume coherent).imp_ok
      intro _ w' holds
      exact (ih holds.1).imp_ok fun _ _ _ => .inr List.mem_cons_self

end Acknowledgement

/-- When a pause was received in a run, the run goes on from there with the rest of the turn. As
long as others have the worker paused, nothing is drawn, and no lines are run but those that wait
already. There are such lines only behind a resume that was received in the same turn. -/
theorem held_worker_keeps_off (host : Host H) (depth : Nat) (shell : Shell H) (prompt : String)
    (rawInput : Bool) (screen : WatchedScreen S) (turns : List Turn) {t : Turn} {client : Nat}
    {earlier later : List ClientMessage} {w acknowledged : Worker H (WatchedScreen S)}
    (reached : eventLoop host depth turns (fresh shell prompt rawInput screen) = .ok () w)
    (arrives : t.received = earlier ++ ⟨client, .pause⟩ :: later)
    (received : receiveAll (earlier.map (·.message) ++ [.pause]) w = .ok () acknowledged)
    (following : List Turn) (coming : List Message)
    (held : HeldThrough acknowledged.pauseDepth
      ((⟨later, t.polled⟩ :: following).flatMap Turn.messages ++ coming)) :
    let rest : List Turn := ⟨later, t.polled⟩ :: following
    loop host depth (t :: following) w = loop host depth rest acknowledged ∧
    Undrawn acknowledged.screen
      (leftBy (loop host depth rest >>= fun _ => receiveAll coming) acknowledged).screen ∧
    handedInLoop host depth rest acknowledged <+: acknowledged.editor.committed ∧
    (acknowledged.editor.committed ≠ [] → .resume ∈ earlier.map (·.message)) := by
  intro rest
  have settled : w.Settled :=
    (eventLoop_settles host depth shell prompt rawInput screen turns).of_eq_ok reached
  have coherent := ((receiveAll_coherent _ settled.coherent).of_eq_ok received).1
  have still : acknowledged.Still acknowledged.screen acknowledged.pauseDepth
      acknowledged.editor.committed :=
    ⟨rfl, (coherent.paused held.pos).1, rfl, .refl _⟩
  rw [heldThrough_append] at held
  obtain ⟨run, given⟩ := loop_still host depth rest still held.1
  have arrive : t.messages = (earlier.map (·.message) ++ [.pause]) ++ later.map (·.message) := by
    rw [Turn.messages, arrives, List.map_append, List.map_cons, List.append_assoc]
    rfl
  refine ⟨loop_behind host depth arrive received following, ?_, given, fun waiting => ?_⟩
  · have off : Ensures (loop host depth rest >>= fun _ => receiveAll coming)
        (fun _ w' => Undrawn acknowledged.screen w'.screen)
        (fun _ w' => Undrawn acknowledged.screen w'.screen) acknowledged := by
      rw [ensures_bind]
      refine run.imp_ok fun _ w' holds => ?_
      obtain ⟨left, still'⟩ := holds
      exact (receiveAll_still still' held.2).imp (fun _ _ still'' => still''.undrawn)
        fun _ _ => False.elim
    exact leftBy_of_ensures off
  · have came := (receiveAll_committed settled.coherent).of_eq_ok received
    rw [settled.committed] at came
    have resumes := came.resolve_left waiting
    simpa using resumes

/-- The first client resumes. While that is being received, the second one pauses. -/
def pausedAgain : Turn := ⟨[⟨0, .resume⟩, ⟨1, .pause⟩], none⟩

/-- Another character arrives while the second client has the worker paused. -/
def typedMeanwhile : Turn := ⟨[], some (.ok (.ofChar 'y'))⟩

/-- The worker whose shell has no commands, on a screen that is watched. -/
def watched : Worker Empty (WatchedScreen MemoryScreen) :=
  fresh ({} : ShellSetup Empty).shell "> " false (.ofScreen (.ofWidth 40) 0)

theorem held_behind_replay :
    ∃ w acknowledged, eventLoop idle 1 typedWhilePaused watched = .ok () w ∧
      receiveAll [.resume, .pause] w = .ok () acknowledged ∧ acknowledged.pauseDepth = 1 ∧
      HeldThrough 1 [.pause] ∧
      Undrawn acknowledged.screen (leftBy (loop idle 1 [⟨[], none⟩, typedMeanwhile] >>=
        fun _ => receiveAll [.pause]) acknowledged).screen ∧
      handedInLoop idle 1 [⟨[], none⟩, typedMeanwhile] acknowledged <+: ["x"] := by
  have run : ∃ w, eventLoop idle 1 typedWhilePaused watched = .ok () w ∧
      ∃ acknowledged, receiveAll [.resume, .pause] w = .ok () acknowledged ∧
        acknowledged.pauseDepth = 1 ∧ acknowledged.editor.committed = ["x"] := by decide +kernel
  obtain ⟨w, reached, acknowledged, received, one, waiting⟩ := run
  have held : HeldThrough 1 [.pause] := by simp [HeldThrough, depthAfter]
  have others : HeldThrough acknowledged.pauseDepth [.pause] := one ▸ held
  have arrives : pausedAgain.received = [⟨0, .resume⟩] ++ ⟨1, .pause⟩ :: [] := rfl
  obtain ⟨-, undrawn, given, -⟩ := held_worker_keeps_off idle 1 _ _ _ _ typedWhilePaused reached
    arrives received [typedMeanwhile] [.pause] others
  exact ⟨w, acknowledged, reached, received, one, held, undrawn, waiting ▸ given⟩

/-- No client resumes without having paused, and still `x` is run while the second one has the
worker paused. -/
theorem handover_while_held : Courteous (typedWhilePaused ++ [pausedAgain]) ∧
    ∃ w, eventLoop idle 1 typedWhilePaused bare = .ok () w ∧
      ∃ giver, HandsOver idle 1 w pausedAgain "x" giver ∧ 0 < giver.pauseDepth := by
  constructor
  · intro client
    match client with
    | 0 | 1 => decide
    | n + 2 => simp [messagesOf, typedWhilePaused, pausedAgain, alternates]
  · have run : ∃ w, eventLoop idle 1 typedWhilePaused bare = .ok () w ∧
        ∃ ready, intake pausedAgain.messages pausedAgain.polled w = .ok () ready ∧
          ready.editor.committed.head? = some "x" ∧ 0 < ready.pauseDepth := by decide +kernel
    obtain ⟨w, reached, ready, taken, next, paused⟩ := run
    exact ⟨w, reached, ready, handsOver_of_waiting taken next, paused⟩

end Worker

end LineConsole
