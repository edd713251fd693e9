import LineConsole.Proofs.Editor.Requests
import LineConsole.Screen.Journal
import LineConsole.Screen.Memory

/-! # The cursor stays in the line

An owner may go on with an editor after its screen has failed. Whatever call fails, the cursor then
stands in the line or right behind it, and every key acts within the line; with one exception. A
line that is entered is taken out of the editor before its cursor is put back, so a screen that
fails in between leaves the cursor behind an empty line.
-/

namespace LineConsole

namespace Editor

/-- The stretches of the line that a key searches, takes out or, if they are empty, writes into. -/
def stretches (e : Editor) (key : KeyEvent) : List (Nat × Nat) :=
  let before := if key.isWord then [(0, e.cursor - 1)] else []
  let behind := if key.isWord then [(e.cursor + 1, e.buffer.length)] else []
  match key.key with
  | .char => if key.written?.isSome then [(e.cursor, e.cursor)] else []
  | .backspace => if e.cursor = 0 then [] else (e.leftOf key.isWord, e.cursor) :: before
  | .left => if e.cursor = 0 then [] else before
  | .delete => if e.buffer.length ≤ e.cursor then [] else (e.cursor, e.rightOf key.isWord) :: behind
  | .right => if e.buffer.length ≤ e.cursor then [] else behind
  | .up | .down | .home | .endOfLine | .enter | .tab | .escape | .other => []

/-- All that the key touches is part of the line. -/
def ActsWithin (e : Editor) (key : KeyEvent) : Prop :=
  ∀ stretch ∈ e.stretches key, stretch.1 ≤ stretch.2 ∧ stretch.2 ≤ e.buffer.length

instance (e : Editor) (key : KeyEvent) : Decidable (e.ActsWithin key) :=
  inferInstanceAs (Decidable (∀ stretch ∈ e.stretches key, _))

theorem actsWithin_of_cursor_le {e : Editor} (inside : e.cursor ≤ e.buffer.length)
    (key : KeyEvent) : e.ActsWithin key := by
  have left := e.leftOf_le_cursor key.isWord
  have right := e.rightOf_le_length key.isWord
  have ordered := e.cursor_le_rightOf key.isWord
  intro stretch touched
  unfold stretches at touched
  cases key.key <;> grind

end Editor

namespace Draft

theorem walk_inside (d : Draft) (step : History → Option String × History)
    (inside : d.cursor ≤ d.buffer.length) : (d.walk step).cursor ≤ (d.walk step).buffer.length := by
  simp only [walk]
  split
  · exact Nat.le_refl _
  · exact inside

theorem press_inside (d : Draft) (event : KeyEvent) (inside : d.cursor ≤ d.buffer.length) :
    (d.press event).cursor ≤ (d.press event).buffer.length := by
  have start := d.editor.leftOf_le_cursor event.isWord
  have stop := d.editor.rightOf_le_length event.isWord
  have ordered := d.editor.cursor_le_rightOf event.isWord
  change _ ≤ d.cursor at start
  change _ ≤ d.buffer.length at stop
  change d.cursor < d.buffer.length → d.cursor ≤ _ at ordered
  have removed (start stop : Nat) (ordered : start ≤ stop) (within : stop ≤ d.buffer.length) :
      start ≤ (d.editor.remove start stop).buffer.length := by
    rw [d.editor.length_remove ordered within]
    change start ≤ d.buffer.length - (stop - start)
    omega
  unfold press
  split
  · exact Nat.le_refl 0
  · cases event.key with
    | char =>
      dsimp only
      split
      · rename_i c _
        change d.cursor + 1 ≤ (d.editor.insertChar c).buffer.length
        rw [Editor.length_insertChar]
        exact Nat.succ_le_succ inside
      · exact inside
    | backspace =>
      dsimp only
      split
      · exact inside
      · exact removed _ _ start inside
    | delete =>
      dsimp only
      split
      · exact inside
      · exact removed _ _ (ordered (Nat.lt_of_not_le ‹_›)) stop
    | left => exact Nat.le_trans start inside
    | right => exact stop
    | up | down => exact d.walk_inside _ inside
    | home => exact Nat.zero_le _
    | endOfLine | enter => exact Nat.le_refl _
    | tab | escape | other => exact inside

end Draft

namespace Session

variable {S α : Type}

/-- The cursor stands in the line or right behind it. -/
def Inside (s : Session S) : Prop := s.editor.cursor ≤ s.editor.buffer.length

instance : DecidablePred (Inside (S := S)) := fun _ => inferInstanceAs (Decidable (_ ≤ _))

private theorem maintains_of_offScreen {action : Action (Session S) α}
    (draws : Keeps offScreen action) : Maintains Inside action :=
  draws.maintains fun seen => seen.1.cursor ≤ seen.1.buffer.length

variable [Screen S]

/-! ## Keys -/

theorem showPrompt_maintains : Maintains (Inside (S := S)) showPrompt :=
  maintains_bind maintains_get fun _ => maintains_bind (maintains_of_offScreen (onScreen_keeps _))
    fun _ => maintains_bind (maintains_of_offScreen (onScreen_keeps _)) fun _ =>
      maintains_modify fun _ inside => inside

private theorem interrupt_maintains : Maintains (Inside (S := S)) interrupt := by
  intro s inside
  simp only [interrupt, edit, ensures_bind, ensures_modify]
  apply (maintains_of_offScreen leaveLine_keeps s inside).imp_ok
  intro _ s' _
  exact showPrompt_maintains _ (Nat.zero_le _)

/-- The screen fails while the line is left. -/
def LeavingFails (s : Session S) : Prop := ∃ fault s', leaveLine s = .error fault s'

/-- How leaving a line goes depends on where the line begins, not on what is left in it. -/
private theorem ensures_leave_emptied {ok : Unit → Session S → Prop}
    {failed : IoFault → Session S → Prop} (s : Session S) {e : Editor}
    (same : e.anchor = s.editor.anchor) :
    Ensures (moveToOffset s.editor.buffer.length >>= fun _ => onScreen Screen.newline) ok failed
        { s with editor := e } ↔
      Ensures leaveLine (fun a s' => ok a { s' with editor := e })
        (fun fault s' => failed fault { s' with editor := e }) s := by
  have place (width offset : Nat) : e.cellOf width offset = s.editor.cellOf width offset := by
    rw [Editor.cellOf, Editor.cellOf, same]
  simp only [leaveLine, moveToOffset, ensures_bind, ensures_get, ensures_onScreen, place]

/-- After the action the cursor is inside, unless the action fails and something is broken. -/
def InsideUnless (broken : Prop) (action : Action (Session S) α) (s : Session S) : Prop :=
  Ensures action (fun _ s' => s'.Inside ∧ ¬ broken) (fun _ s' => s'.Inside ↔ ¬ broken) s

omit [Screen S] in
private theorem InsideUnless.of_intact {broken : Prop} {action : Action (Session S) α}
    {s : Session S} (intact : ¬ broken)
    (inside : Ensures action (fun _ => Inside) (fun _ => Inside) s) :
    InsideUnless broken action s :=
  inside.imp (fun _ _ inside' => ⟨inside', intact⟩) fun _ _ inside' => iff_of_true inside' intact

omit [Screen S] in
/-- What is broken on the way is broken by the first action or, if that succeeds, by the second. -/
private theorem InsideUnless.bind {broken begun : Prop} (later : Session S → Prop) {s : Session S}
    {action : Action (Session S) Unit} {next : Unit → Action (Session S) Unit}
    (first : InsideUnless begun action s)
    (second : ∀ s', s'.Inside → InsideUnless (later s') (next ()) s')
    (either : broken ↔ begun ∨ ∃ s', action s = .ok () s' ∧ later s') :
    InsideUnless broken (action >>= next) s := by
  rw [InsideUnless, ensures_bind, either]
  cases ran : action s with
  | ok _ s' =>
    obtain ⟨inside, intact⟩ := first.of_eq_ok ran
    rw [ensures_of_eq_ok ran]
    simpa [InsideUnless, intact] using second s' inside
  | error fault s' =>
    rw [ensures_of_eq_error ran]
    simpa using first.of_eq_error ran

/-- The screen fails while a line is entered whose cursor is not at its start. -/
def FailsToEnter (key : KeyEvent) (s : Session S) : Prop :=
  key.key = .enter ∧ 0 < s.editor.cursor ∧ s.LeavingFails

private theorem enter_inside {key : KeyEvent} (enters : key.key = .enter) (s : Session S) :
    InsideUnless (FailsToEnter key s) enter s := by
  simp only [InsideUnless, enter, edit, ensures_bind, ensures_get, ensures_modify]
  refine ensures_bind.mp ((s.ensures_leave_emptied ?anchor).mpr ?_)
  case anchor => rfl
  cases left : leaveLine s with
  | ok _ s' =>
    have intact : ¬ FailsToEnter key s := by
      rintro ⟨-, -, fault, s'', failed⟩
      cases left.symm.trans failed
    rw [ensures_of_eq_ok left]
    refine InsideUnless.of_intact intact ?_
    split
    · exact showPrompt_maintains _ (Nat.le_refl 0)
    · simp only [ensures_bind]
      refine Ensures.imp_ok (maintains_of_offScreen (note_keeps _) _ ?home) fun _ _ home => ?_
      case home => exact Nat.le_refl 0
      exact (maintains_of_offScreen (onScreen_keeps _) _ home).imp_ok fun _ _ home' => home'
  | error fault s' =>
    rw [ensures_of_eq_error left]
    change s.editor.cursor ≤ 0 ↔ ¬ (_ ∧ 0 < s.editor.cursor ∧ s.LeavingFails)
    have fails : s.LeavingFails := ⟨fault, s', left⟩
    simp only [enters, fails, true_and, and_true, Nat.not_lt]

/-- Whatever fails, a key leaves the cursor inside, unless it is cut short. -/
theorem apply_inside (key : KeyEvent) {s : Session S} (inside : s.Inside) :
    InsideUnless (FailsToEnter key s) (apply key) s := by
  by_cases enters : key.key = .enter
  · have typed : ¬ key.isInterrupt = true := by simp [KeyEvent.isInterrupt, enters]
    unfold apply
    rw [InsideUnless, ensures_ite, if_neg typed]
    simp only [ensures_bind, ensures_get, enters]
    exact enter_inside enters s
  · refine .of_intact (fun cut => enters cut.1) ?_
    by_cases interrupts : key.isInterrupt
    · unfold apply
      rw [ensures_ite, if_pos interrupts]
      exact interrupt_maintains s inside
    · have within (s' : Session S) (pressed : s.Pressed key s') : s'.Inside := by
        have left := s.draft.press_inside key inside
        rwa [← pressed.draft] at left
      exact (apply_presses_of_drawn interrupts enters).imp (fun _ => within) fun _ => within

/-! ## Replayed keys -/

/-- The rest of the queue is left when a key is taken out of it. -/
def withQueue (queue : List KeyEvent) (s : Session S) : Session S :=
  { s with editor := { s.editor with queue } }

/-- While `queue` is replayed, `key` is applied to the editor `t`. -/
inductive Replayed : List KeyEvent → Session S → KeyEvent → Session S → Prop where
  | now {s : Session S} (key : KeyEvent) (rest : List KeyEvent) (going : s.editor.paused = false) :
    Replayed (key :: rest) s key (s.withQueue rest)
  | later {s s' t : Session S} {key event : KeyEvent} {rest : List KeyEvent}
    (going : s.editor.paused = false) (applied : apply event (s.withQueue rest) = .ok () s')
    (among : Replayed rest s' key t) : Replayed (event :: rest) s key t

theorem Replayed.going {queue : List KeyEvent} {key : KeyEvent} {s t : Session S}
    (replayed : Replayed queue s key t) : s.editor.paused = false := by
  cases replayed <;> assumption

theorem Replayed.inside {queue : List KeyEvent} {key : KeyEvent} {s t : Session S}
    (replayed : Replayed queue s key t) (inside : s.Inside) : t.Inside := by
  induction replayed with
  | now => exact inside
  | @later s _ _ _ event rest _ applied _ ih =>
    have begun : (s.withQueue rest).Inside := inside
    exact ih ((apply_inside event begun).of_eq_ok applied).1

/-- Some key that is replayed fails to enter its line. -/
def ReplayCutShort (queue : List KeyEvent) (s : Session S) : Prop :=
  ∃ key t, Replayed queue s key t ∧ FailsToEnter key t

private theorem replayCutShort_cons {event : KeyEvent} {rest : List KeyEvent} {s : Session S}
    (going : s.editor.paused = false) :
    ReplayCutShort (event :: rest) s ↔ FailsToEnter event (s.withQueue rest) ∨
      ∃ s', apply event (s.withQueue rest) = .ok () s' ∧ ReplayCutShort rest s' := by
  constructor
  · rintro ⟨key, t, replayed, fails⟩
    cases replayed with
    | now => exact .inl fails
    | later _ applied among => exact .inr ⟨_, applied, key, t, among, fails⟩
  · rintro (fails | ⟨s', applied, key, t, among, fails⟩)
    · exact ⟨event, _, .now event rest going, fails⟩
    · exact ⟨key, t, .later going applied among, fails⟩

/-- By induction on the queue: its keys are applied one after the other until one pauses the editor
or fails. -/
theorem replay_inside (queue : List KeyEvent) {s : Session S} (inside : s.Inside) :
    InsideUnless (ReplayCutShort queue s) (replay queue) s := by
  induction queue generalizing s with
  | nil =>
    refine .of_intact ?_ inside
    rintro ⟨_, _, replayed, -⟩
    cases replayed
  | cons event rest ih =>
    cases paused : s.editor.paused with
    | true =>
      refine .of_intact ?_ ?_
      · rintro ⟨_, _, replayed, -⟩
        exact Bool.false_ne_true (replayed.going.symm.trans paused)
      · simp only [replay, ensures_bind, ensures_get]
        rw [if_pos paused]
        exact inside
    | false =>
      have begun : (s.withQueue rest).Inside := inside
      have applied : InsideUnless (ReplayCutShort (event :: rest) s)
          (apply event >>= fun _ => replay rest) (s.withQueue rest) :=
        (apply_inside event begun).bind (ReplayCutShort rest) (fun _ => ih)
          (replayCutShort_cons paused)
      simp only [InsideUnless, replay, ensures_bind, ensures_get]
      rw [if_neg (Bool.eq_false_iff.mp paused), edit, ensures_bind, ensures_modify]
      exact applied

/-! ## Requests -/

/-- What a paused editor does when it is resumed, up to the replay of its queue. -/
def showAnew (queue : List KeyEvent) : Action (Session S) Unit := do
  edit fun e => { e with paused := false }
  if !queue.isEmpty then note (.replayingKeys queue.length)
  showPrompt
  redrawFrom 0 0

private theorem resume_eq_showAnew {s : Session S} (paused : s.editor.paused = true) :
    resume s = (showAnew s.editor.queue >>= fun _ => replay s.editor.queue >>= fun _ =>
      onScreen Screen.flush) s := by
  obtain ⟨⟨_, _, _, _, _, held, queue, _, _⟩, _, _⟩ := s
  obtain rfl : held = true := paused
  cases queue <;>
    simp only [showAnew, List.isEmpty_nil, List.isEmpty_cons, Bool.not_true, Bool.not_false,
      Bool.false_eq_true, if_true, if_false, bind_assoc] <;> rfl

private theorem showAnew_maintains (queue : List KeyEvent) :
    Maintains (Inside (S := S)) (showAnew queue) := by
  have drawn : Maintains (Inside (S := S)) (showPrompt >>= fun _ => redrawFrom 0 0) :=
    maintains_bind showPrompt_maintains fun _ => maintains_of_offScreen (redrawFrom_keeps _ _)
  exact maintains_bind (maintains_modify fun _ inside => inside) fun _ =>
    maintains_ite (maintains_bind (maintains_of_offScreen (note_keeps _)) fun _ => drawn) drawn

/-- While a request is carried out, `key` is applied to the editor `t`. -/
inductive Applied (s : Session S) : Request → KeyEvent → Session S → Prop where
  | typed {event key : KeyEvent} {decoder : Option SequenceDecoder}
    (going : s.editor.paused = false)
    (decoded : event.decode s.editor.decoder = (some key, decoder)) :
    Applied s (.key event) key { s with editor := { s.editor with decoder } }
  | replayed {key : KeyEvent} {shown t : Session S} (paused : s.editor.paused = true)
    (shows : showAnew s.editor.queue s = .ok () shown)
    (among : Replayed s.editor.queue shown key t) : Applied s .resume key t

theorem Applied.inside {request : Request} {key : KeyEvent} {s t : Session S}
    (applied : Applied s request key t) (inside : s.Inside) : t.Inside := by
  cases applied with
  | typed => exact inside
  | replayed _ shows among => exact among.inside ((showAnew_maintains _ s inside).of_eq_ok shows)

/-- Some key that the request applies fails to enter its line. -/
def CutShort (request : Request) (s : Session S) : Prop :=
  ∃ key t, Applied s request key t ∧ FailsToEnter key t

private theorem start_maintains : Maintains (Inside (S := S)) start :=
  maintains_bind showPrompt_maintains fun _ => maintains_of_offScreen (onScreen_keeps _)

private theorem pause_maintains : Maintains (Inside (S := S)) pause := by
  have flushes : Maintains (Inside (S := S)) (onScreen Screen.flush) :=
    maintains_of_offScreen (onScreen_keeps _)
  have leaves : Maintains (Inside (S := S)) leaveLine := maintains_of_offScreen leaveLine_keeps
  have hides : Maintains (Inside (S := S)) (edit fun e => { e with promptShown := false }) :=
    maintains_modify fun _ inside => inside
  have holds : Maintains (Inside (S := S)) (edit fun e => { e with paused := true }) :=
    maintains_modify fun _ inside => inside
  refine maintains_bind maintains_get fun s => maintains_ite (fun _ inside => inside) ?_
  refine maintains_bind holds fun _ => maintains_ite ?_ flushes
  exact maintains_bind leaves fun _ => maintains_bind hides fun _ => flushes

private theorem receive_inside (key : KeyEvent) {s : Session S} (inside : s.Inside) :
    InsideUnless (s.editor.paused = false ∧ FailsToEnter key s) (receive key) s := by
  cases paused : s.editor.paused with
  | true =>
    refine .of_intact (fun broken => absurd broken.1 nofun) ?_
    simp only [receive, ensures_bind, ensures_get]
    rw [if_pos paused]
    exact inside
  | false =>
    have applied : InsideUnless (true ∧ FailsToEnter key s)
        (apply key >>= fun _ => onScreen Screen.flush) s := by
      refine (apply_inside key inside).bind (fun _ => False) (fun s' inside' => ?_) ?_
      · exact .of_intact id (maintains_of_offScreen (onScreen_keeps _) _ inside')
      · simp
    simp only [InsideUnless, receive, ensures_bind, ensures_get]
    rw [if_neg (Bool.eq_false_iff.mp paused)]
    simpa [InsideUnless] using applied

private theorem handleKey_inside (event : KeyEvent) {s : Session S} (inside : s.Inside) :
    InsideUnless (CutShort (.key event) s) (handleKey event) s := by
  rcases decoded : event.decode s.editor.decoder with ⟨_ | key, decoder⟩
  all_goals have begun : Inside { s with editor := { s.editor with decoder } } := inside
  · refine .of_intact ?_ ?_
    · rintro ⟨_, _, ⟨_, decoded'⟩, -⟩
      cases decoded.symm.trans decoded'
    · rcases handleKey_of_none decoded with silent | rings
      · rw [ensures_of_eq_ok silent]
        exact begun
      · rw [ensures_congr rings]
        exact maintains_bind (maintains_of_offScreen (onScreen_keeps _))
          (fun _ => maintains_of_offScreen (onScreen_keeps _)) _ begun
  · have same : CutShort (.key event) s ↔ s.editor.paused = false ∧
        FailsToEnter key { s with editor := { s.editor with decoder } } := by
      constructor
      · rintro ⟨_, _, ⟨going, decoded'⟩, fails⟩
        cases decoded.symm.trans decoded'
        exact ⟨going, fails⟩
      · rintro ⟨going, fails⟩
        exact ⟨key, _, .typed going decoded, fails⟩
    rw [InsideUnless, ensures_congr (handleKey_of_key decoded), same]
    exact receive_inside key begun

private theorem resume_inside {s : Session S} (inside : s.Inside) :
    InsideUnless (CutShort .resume s) resume s := by
  cases paused : s.editor.paused with
  | false =>
    refine .of_intact ?_ ?_
    · rintro ⟨_, _, ⟨⟩ | ⟨held, -, -⟩, -⟩
      exact Bool.false_ne_true (paused.symm.trans held)
    · exact (ensures_resume_of_going paused).mpr inside
  | true =>
    rw [InsideUnless, ensures_congr (resume_eq_showAnew paused)]
    have shows : InsideUnless False (showAnew s.editor.queue) s :=
      .of_intact id (showAnew_maintains _ s inside)
    refine shows.bind (fun shown => ReplayCutShort s.editor.queue shown) ?_ ?_
    · intro shown inside'
      refine (replay_inside s.editor.queue inside').bind (fun _ => False) ?_ (by simp)
      exact fun s' inside'' => .of_intact id (maintains_of_offScreen (onScreen_keeps _) _ inside'')
    · rw [false_or]
      constructor
      · rintro ⟨key, t, ⟨⟩ | ⟨_, shows, among⟩, fails⟩
        exact ⟨_, shows, key, t, among, fails⟩
      · rintro ⟨shown, shows, key, t, among, fails⟩
        exact ⟨key, t, .replayed paused shows among, fails⟩

/-- Whatever fails, a request leaves the cursor inside, unless it is cut short. -/
theorem carryOut_inside (request : Request) {s : Session S} (inside : s.Inside) :
    InsideUnless (CutShort request s) (carryOut request) s := by
  cases request with
  | key event => exact handleKey_inside event inside
  | resume => exact resume_inside inside
  | start =>
    refine .of_intact ?_ (start_maintains s inside)
    rintro ⟨_, _, ⟨⟩, -⟩
  | pause =>
    refine .of_intact ?_ (pause_maintains s inside)
    rintro ⟨_, _, ⟨⟩, -⟩
  | take =>
    refine .of_intact ?_ ?_
    · rintro ⟨_, _, ⟨⟩, -⟩
    · change s.editor.takeLine.2.cursor ≤ s.editor.takeLine.2.buffer.length
      rw [Editor.takeLine_snd]
      exact inside

/-! ## Owners that go on -/

/-- An editor whose requests may have failed, but none was cut short. Meanwhile others may have
written to its screen and changed the history. -/
inductive Spared : Session S → Prop where
  | fresh (prompt : String) (rawInput : Bool) (screen : S) (history : History) :
    Spared ⟨Editor.new prompt rawInput, screen, history⟩
  | asked {s : Session S} (request : Request) (spared : Spared s)
    (whole : ¬ CutShort request s) : Spared (leftBy (carryOut request) s)
  | meanwhile {s : Session S} (screen : S) (history : History) (spared : Spared s) :
    Spared { s with screen, history }

theorem Spared.inside {s : Session S} (spared : s.Spared) : s.Inside := by
  induction spared with
  | fresh => exact Nat.zero_le _
  | asked request _ whole ih =>
    exact leftBy_of_ensures ((carryOut_inside request ih).imp (fun _ _ holds => holds.1)
      fun _ _ inside => inside.mpr whole)
  | meanwhile _ _ _ ih => exact ih

/-- Wherever the screen may have failed, the cursor is inside and a request applies only keys that
act within the line. The cursor leaves the line exactly if entering a line is cut short. -/
theorem inside_unless_cut_short {s : Session S} (spared : s.Spared) (request : Request) :
    s.Inside ∧ (∀ key t, Applied s request key t → t.editor.ActsWithin key) ∧
      ((leftBy (carryOut request) s).Inside ↔ ¬ CutShort request s) := by
  have inside := spared.inside
  refine ⟨inside, fun key t applied => ?_, ?_⟩
  · exact Editor.actsWithin_of_cursor_le (applied.inside inside) key
  · have either : Ensures (carryOut request) (fun _ s' => s'.Inside ↔ ¬ CutShort request s)
        (fun _ s' => s'.Inside ↔ ¬ CutShort request s) s :=
      (carryOut_inside request inside).imp (fun _ _ holds => iff_of_true holds.1 holds.2)
        fun _ _ same => same
    exact leftBy_of_ensures either

/-- Carries out requests one after the other, whatever fails. -/
def goOn (requests : List Request) (s : Session S) : Session S :=
  requests.foldl (fun s request => leftBy (carryOut request) s) s

/-- The prompt is shown on a screen of which one call is to fail. -/
def faulty (failing : Nat) : Session (WatchedScreen MemoryScreen) :=
  goOn [.start] ⟨Editor.new "> " false, .ofScreen (.ofWidth 40) failing, .ofCapacity 9⟩

/-- The fifth call prints the character that is typed. It fails, but the line holds the character
and can be entered. -/
theorem misprinted_stays_inside :
    ∃ s, s = leftBy (carryOut (.key (.ofChar 'a'))) (faulty 5) ∧ Spared s ∧
      s.screen.calls = 5 ∧ s.editor.buffer = ['a'] ∧ s.Inside ∧
      (∀ key t, Applied s (.key (.plain .enter)) key t → t.editor.ActsWithin key) ∧
      ¬ CutShort (.key (.plain .enter)) s := by
  have fresh : Spared (_ : Session (WatchedScreen MemoryScreen)) :=
    .fresh "> " false (.ofScreen (.ofWidth 40) 5) (.ofCapacity 9)
  have began : Spared (faulty 5) :=
    fresh.asked .start ((inside_unless_cut_short fresh .start).2.2.mp (by decide +kernel))
  have typed : ¬ CutShort (.key (.ofChar 'a')) (faulty 5) :=
    (inside_unless_cut_short began _).2.2.mp (by decide +kernel)
  have spared := began.asked _ typed
  obtain ⟨inside, within, same⟩ := inside_unless_cut_short spared (.key (.plain .enter))
  exact ⟨_, rfl, spared, by decide +kernel, by decide +kernel, inside, within,
    same.mp (by decide +kernel)⟩

/-- The eighth call leaves the line that is entered. When it fails, the cursor is left at 1 over an
empty line, and the next character would be written behind that. -/
theorem cut_short_leaves_cursor :
    let s := goOn [.key (.ofChar 'a'), .key (.plain .enter)] (faulty 8)
    s.editor.buffer = [] ∧ s.editor.cursor = 1 ∧ ¬ s.editor.ActsWithin (.ofChar 'b') := by
  decide +kernel

end Session
end LineConsole
