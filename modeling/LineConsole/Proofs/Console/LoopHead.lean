import LineConsole.Proofs.Console.Courtesy
import LineConsole.Proofs.Console.Exclusion
import LineConsole.Proofs.Console.Stopping
import LineConsole.Proofs.Editor.Prompting

/-! # The head of the loop

Within a turn the editor may be paused and resumed many times, by messages, by lines and by the keys
it replays, and what it notes of itself and what the worker counts can be at odds for a while. At the
head of the loop they agree: no line waits, the worker counts the pauses that were not yet resumed,
and the editor is paused, shows no prompt and may have keys queued if and only if there are any.
-/

namespace LineConsole

namespace Worker

variable {H S : Type}

/-! ## What the screen shows -/

/-- The worker's editor notes that its prompt is shown if and only if the screen shows one. -/
def Honest (shows : S → Prop) (w : Worker H S) : Prop :=
  shows w.screen ↔ w.editor.promptShown = true

variable {shows : S → Prop} {host : Host H} {depth : Nat} {w : Worker H S}

private theorem onEditor_honest {action : Action (Session S) Unit}
    (honest : Ensures action (fun _ => Session.Honest shows) Whatever
      ⟨w.editor, w.screen, w.shell.history⟩) :
    Ensures (onEditor action) (fun _ => Honest shows) Whatever w :=
  ensures_onEditor honest fun _ honest' => honest'

variable [Screen S] (tells : Screen.TellsPrompt shows)
include tells

private theorem receive_honest (message : Message) (honest : w.Honest shows) :
    Ensures (receive message) (fun _ => Honest shows) Whatever w := by
  cases message with
  | pause =>
    simp only [receive, ensures_bind, ensures_get, ensures_ite, ensures_modify]
    split
    · exact (onEditor_honest (Session.pause_honest tells honest)).imp_ok fun _ _ honest' => honest'
    · exact honest
  | resume =>
    simp only [receive, ensures_bind, ensures_get, ensures_ite, ensures_modify]
    split
    · exact onEditor_honest (Session.resume_honest tells honest)
    · exact honest

private theorem receiveAll_honest (messages : List Message) (honest : w.Honest shows) :
    Ensures (receiveAll messages) (fun _ => Honest shows) Whatever w := by
  induction messages generalizing w with
  | nil => exact honest
  | cons message rest ih =>
    simp only [receiveAll, ensures_bind]
    exact (receive_honest tells message honest).imp_ok fun _ _ => ih

private theorem runTaken_honest (line : String) (honest : w.Honest shows) :
    Ensures (runTaken host depth line) (fun _ => Honest shows) Whatever w := by
  simp only [runTaken, ensures_bind, ensures_get, ensures_ite]
  refine ensures_runLine (fun shell _ => ?_) fun _ _ _ _ => trivial
  split
  · exact onEditor_honest (Session.resume_honest tells honest)
  · exact honest

private theorem runLines_honest (fuel : Nat) (honest : w.Honest shows) :
    Ensures (runLines host depth fuel) (fun _ => Honest shows) Whatever w := by
  induction fuel generalizing w with
  | zero => exact honest
  | succ fuel ih =>
    cases taken : w.editor.committed with
    | nil => exact (ensures_runLines_of_none taken).mpr honest
    | cons line rest =>
      refine (ensures_runLines_of_cons taken).mpr ?_
      refine (runTaken_honest tells line ?_).imp_ok fun _ _ => ih
      exact honest

private theorem turn_honest (t : Turn) (honest : w.Honest shows) :
    Ensures (turn host depth t.messages t.polled) (fun _ => Honest shows) Whatever w := by
  simp only [turn, intake, runCommitted, ensures_bind, ensures_get]
  refine (receiveAll_honest tells t.messages honest).imp_ok fun _ w' honest' => ?_
  rcases t.polled with _ | fault | event
  · exact runLines_honest tells _ honest'
  · trivial
  · exact (onEditor_honest (Session.handleKey_honest tells event honest')).imp_ok
      fun _ _ => runLines_honest tells _

private theorem loop_honest (turns : List Turn) (honest : w.Honest shows) :
    Ensures (loop host depth turns) (fun _ => Honest shows) Whatever w := by
  induction turns generalizing w with
  | nil => exact honest
  | cons t rest ih =>
    simp only [loop, ensures_bind]
    exact (turn_honest tells t honest).imp_ok fun _ _ => ih

/-- At the head of the loop, the editor is right about its prompt on whatever screen it began. -/
theorem eventLoop_honest (turns : List Turn) (w : Worker H S) :
    Ensures (eventLoop host depth turns) (fun _ => Honest shows) Whatever w := by
  simp only [eventLoop, ensures_bind]
  exact (onEditor_honest (Session.start_honest tells _)).imp_ok fun _ _ => loop_honest tells turns

omit tells

/-! ## What the worker counts -/

/-- At the head of the loop, behind these turns. -/
structure AtHead (turns : List Turn) (w : Worker H S) : Prop where
  committed : w.editor.committed = []
  /-- As many pauses were received as resumes, and those that were not resumed yet. -/
  unresumed : (turns.flatMap Turn.messages).count .pause =
    (turns.flatMap Turn.messages).count .resume + w.pauseDepth
  /-- They are the last requests of as many clients. -/
  held : ∃ clients : Finset Nat, w.pauseDepth = clients.card ∧
    ∀ client, client ∈ clients ↔ (messagesOf turns client).getLast? = some .pause
  paused : w.editor.paused = true ↔ 0 < w.pauseDepth
  noted : w.editor.promptShown = true ↔ w.editor.paused = false
  /-- A screen that can be told from whether it shows a prompt shows one. -/
  prompt : ∀ shows : S → Prop, Screen.TellsPrompt shows → (shows w.screen ↔ w.editor.paused = false)
  queue : w.editor.paused = false → w.editor.queue = []

omit [Screen S] in
/-- A settled editor is held by others or by no one. -/
private theorem Settled.paused_iff (settled : w.Settled) :
    (w.editor.paused = true ↔ 0 < w.pauseDepth) ∧
      (w.editor.promptShown = true ↔ w.editor.paused = false) ∧
      (w.editor.paused = false → w.editor.queue = []) := by
  rcases Nat.eq_zero_or_pos w.pauseDepth with free | held
  · rcases settled.coherent.mode with ⟨⟨going, shown⟩, empty⟩ | held
    · simp [free, going, shown, empty]
    · exact absurd settled.committed (settled.coherent.waiting free held)
  · obtain ⟨paused, hidden⟩ := settled.coherent.paused held
    simp [held, paused, hidden]

/-- In every run with courteous clients, this holds each time the worker is at the head of its loop;
and while screen and input last, only a line keeps it from getting there. -/
theorem at_head_of_courteous (host : Host H) (depth : Nat) (shell : Shell H) (prompt : String)
    (rawInput : Bool) (screen : S) (turns : List Turn) (courteous : Courteous turns) :
    (∀ w, eventLoop host depth turns (fresh shell prompt rawInput screen) = .ok () w →
      AtHead turns w) ∧
    (Screen.NeverFails screen → InputLasts turns → ∀ stop w,
      eventLoop host depth turns (fresh shell prompt rawInput screen) = .error stop w →
        stop.ByLine) := by
  constructor
  · intro w reached
    obtain ⟨settled, count⟩ :=
      (eventLoop_counts host depth shell prompt rawInput screen turns).of_eq_ok reached
    have messages : turns.flatMap Turn.messages = (turns.flatMap (·.received)).map (·.message) :=
      List.map_flatMap.symm
    have card : w.pauseDepth = (holders (turns.flatMap (·.received))).card := by
      rw [count, messages, foldl_depthAfter_eq_card _ courteous]
    obtain ⟨paused, noted, queue⟩ := settled.paused_iff
    exact
      { committed := settled.committed
        unresumed := by rw [card, messages, count_pause_eq_add_card _ courteous]
        held := ⟨_, card, fun client => mem_holders_iff _ client⟩
        paused, noted, queue
        prompt := fun shows tells =>
          ((eventLoop_honest tells turns _).of_eq_ok reached : w.Honest shows).trans noted }
  · intro reliable lasts stop w stopped
    exact (eventLoop_stops turns reliable lasts).of_eq_error stopped

/-- The first client resumes while `x` waits to be replayed, and the second one pauses before the
line was run. -/
theorem at_head_of_pausedAgain : Courteous (typedWhilePaused ++ [pausedAgain]) ∧
    Screen.NeverFails watched.screen ∧ InputLasts (typedWhilePaused ++ [pausedAgain]) ∧
    ∃ w, eventLoop idle 1 (typedWhilePaused ++ [pausedAgain]) watched = .ok () w ∧
      AtHead (typedWhilePaused ++ [pausedAgain]) w ∧ w.pauseDepth = 1 ∧
      ¬ w.screen.showsPrompt := by
  have courteous : Courteous (typedWhilePaused ++ [pausedAgain]) := by
    intro client
    match client with
    | 0 | 1 => decide
    | n + 2 => simp [messagesOf, typedWhilePaused, pausedAgain, alternates]
  have lasts : InputLasts (typedWhilePaused ++ [pausedAgain]) := by
    simp [InputLasts, typedWhilePaused, pausedAgain]
  have run : ∃ w, eventLoop idle 1 (typedWhilePaused ++ [pausedAgain]) watched = .ok () w ∧
      w.pauseDepth = 1 := by decide +kernel
  obtain ⟨w, reached, one⟩ := run
  have head := (at_head_of_courteous idle 1 _ _ _ _ _ courteous).1 w reached
  refine ⟨courteous, WatchedScreen.neverFails (MemoryScreen.neverFails _), lasts, w, reached, head,
    one, fun shown => ?_⟩
  have going := (head.prompt _ WatchedScreen.tellsPrompt).mp shown
  have paused := head.paused.mpr (one ▸ Nat.one_pos)
  exact absurd paused (by simp [going])

end Worker

end LineConsole
