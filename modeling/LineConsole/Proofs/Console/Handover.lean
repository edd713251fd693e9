import LineConsole.Proofs.Console.Coherence
import LineConsole.Screen.Memory

/-! # Handing lines to the shell

A line is to be run while the editor is held and no prompt is shown. This fails in one situation
only: while messages are being received, a resume has keys replayed that enter a line, and another
resume lets go of the editor while that line still waits. The turn then goes wrong if no one has the
worker paused when the messages have been received, and only then.
-/

namespace LineConsole.Worker

open Session

variable {H S : Type} [Screen S]

/-- Among the messages is a resume that lets go of the editor while a line waits. -/
inductive Overtakes : List Message → Worker H S → Prop where
  | now {rest : List Message} {w : Worker H S} (last : w.pauseDepth ≤ 1)
      (waiting : w.editor.committed ≠ []) : Overtakes (.resume :: rest) w
  | later {message : Message} {rest : List Message} {w w' : Worker H S}
      (received : receive message w = .ok () w') (overtakes : Overtakes rest w') :
      Overtakes (message :: rest) w

/-- At most one line waits, and then the editor is held. -/
def Orderly (w : Worker H S) : Prop :=
  w.editor.committed = [] ∨ w.editor.IsHeld ∧ ∃ line, w.editor.committed = [line]

omit [Screen S] in
private theorem orderly_iff_of_editing {w : Worker H S} (editing : w.editor.IsEditing) :
    w.Orderly ↔ w.editor.committed = [] := by
  refine ⟨fun orderly => ?_, .inl⟩
  rcases orderly with none | ⟨held, -⟩
  · exact none
  · exact absurd (editing.1.symm.trans held.1) Bool.false_ne_true

omit [Screen S] in
/-- A line that was entered leaves good order exactly if it is the only one. -/
private theorem orderly_iff_of_entered {before : List String} {line : String} {w : Worker H S}
    (held : w.editor.IsHeld) (entered : w.editor.committed = before ++ [line]) :
    w.Orderly ↔ before = [] := by
  constructor
  · rintro (none | ⟨-, other, single⟩)
    · simp [entered] at none
    · rw [entered] at single
      simpa using congrArg List.length single
  · intro none
    exact .inr ⟨held, line, by simp [entered, none]⟩

omit [Screen S] in
/-- Letting go of an editor leaves good order exactly if no line was waiting. -/
private theorem orderly_iff_of_letsGo {e : Editor} {w : Worker H S} (letsGo : LetsGo e w.editor) :
    w.Orderly ↔ e.committed = [] := by
  rcases letsGo with ⟨editing, same⟩ | ⟨-, ⟨editing, committed, -⟩ | ⟨held, ⟨line, entered⟩, -⟩⟩
  · rw [orderly_iff_of_editing (same ▸ editing), same]
  · rw [orderly_iff_of_editing editing, committed]
  · exact orderly_iff_of_entered held entered

theorem overtakes_cons_iff {message : Message} {rest : List Message} {w w' : Worker H S}
    (received : receive message w = .ok () w') :
    Overtakes (message :: rest) w ↔
      (message = .resume ∧ w.pauseDepth ≤ 1 ∧ w.editor.committed ≠ []) ∨ Overtakes rest w' := by
  constructor
  · rintro (⟨last, waiting⟩ | ⟨other, overtakes⟩)
    · exact .inl ⟨rfl, last, waiting⟩
    · cases received.symm.trans other
      exact .inr overtakes
  · rintro (⟨rfl, last, waiting⟩ | overtakes)
    · exact .now last waiting
    · exact .later received overtakes

/-- Once something stops the worker, the messages behind it are not received. -/
private theorem overtakes_cons_iff_of_error {message : Message} {rest : List Message}
    {w w' : Worker H S} {stop : Stop} (stopped : receive message w = .error stop w') :
    Overtakes (message :: rest) w ↔
      message = .resume ∧ w.pauseDepth ≤ 1 ∧ w.editor.committed ≠ [] := by
  constructor
  · rintro (⟨last, waiting⟩ | ⟨received, -⟩)
    · exact ⟨rfl, last, waiting⟩
    · cases stopped.symm.trans received
  · rintro ⟨rfl, last, waiting⟩
    exact .now last waiting

instance decidableOvertakes :
    (messages : List Message) → (w : Worker H S) → Decidable (Overtakes messages w)
  | [], _ => isFalse nofun
  | message :: rest, w =>
    match ran : receive message w with
    | .ok () w' =>
      have := decidableOvertakes rest w'
      decidable_of_iff' _ (overtakes_cons_iff ran)
    | .error _ _ => decidable_of_iff' _ (overtakes_cons_iff_of_error ran)

/-- Whoever lets the editor go again after pausing it over a waiting line overtakes that line. -/
private theorem overtakes_of_waiting (messages : List Message) {w : Worker H S}
    (coherent : w.Coherent) (waiting : w.editor.committed ≠ []) (paused : 0 < w.pauseDepth) :
    Ensures (receiveAll messages) (fun _ w' => w'.pauseDepth = 0 → Overtakes messages w)
      Whatever w := by
  induction messages generalizing w with
  | nil => exact fun free => absurd free (Nat.ne_of_gt paused)
  | cons message rest ih =>
    simp only [receiveAll, ensures_bind]
    cases message with
    | pause =>
      apply (receive_pause coherent).with_eq.imp_ok
      intro _ w' holds
      obtain ⟨received, coherent', count, same⟩ := holds
      apply (ih coherent' (same ▸ waiting) (by omega)).imp_ok
      intro _ _ overtakes free
      exact .later received (overtakes free)
    | resume =>
      apply (receive_resume coherent).with_eq.imp_ok
      intro _ w' holds
      obtain ⟨received, coherent', count, _, kept⟩ := holds
      by_cases last : w.pauseDepth ≤ 1
      · have overtakes : Overtakes (.resume :: rest) w := .now last waiting
        exact (receiveAll_coherent rest coherent').imp_ok fun _ _ _ _ => overtakes
      · have same : w'.editor = w.editor := kept (by omega)
        apply (ih coherent' (same ▸ waiting) (by omega)).imp_ok
        intro _ _ overtakes free
        exact .later received (overtakes free)

omit [Screen S] in
private theorem waiting_of_not_orderly {w : Worker H S} (disorder : ¬ w.Orderly) :
    w.editor.committed ≠ [] := fun none => disorder (.inl none)

/-- By induction on the messages: order is lost exactly if one of them overtakes a line, or if it
was lost before. -/
private theorem receiveAll_orderly_iff (messages : List Message) {w : Worker H S}
    (coherent : w.Coherent) :
    Ensures (receiveAll messages) (fun _ w' => w'.pauseDepth = 0 →
      (¬ w'.Orderly ↔ Overtakes messages w ∨ w.pauseDepth = 0 ∧ ¬ w.Orderly)) Whatever w := by
  induction messages generalizing w with
  | nil =>
    intro free
    have nothing : ¬ Overtakes [] w := nofun
    simp [free, nothing]
  | cons message rest ih =>
    simp only [receiveAll, ensures_bind]
    cases message with
    | pause =>
      apply (receive_pause coherent).with_eq.imp_ok
      intro _ w' holds
      obtain ⟨received, coherent', count, same⟩ := holds
      have paused : 0 < w'.pauseDepth := by omega
      apply ensures_whatever_iff.mpr
      intro _ w'' ran free
      have order := (ih coherent').of_eq_ok ran free
      have overtaken (disorder : ¬ w.Orderly) : Overtakes rest w' :=
        (overtakes_of_waiting rest coherent' (same ▸ waiting_of_not_orderly disorder)
          paused).of_eq_ok ran free
      rw [overtakes_cons_iff received, order]
      constructor
      · rintro (overtakes | ⟨zero, -⟩)
        · exact .inl (.inr overtakes)
        · omega
      · rintro ((⟨other, -⟩ | overtakes) | ⟨-, disorder⟩)
        · cases other
        · exact .inl overtakes
        · exact .inl (overtaken disorder)
    | resume =>
      apply (receive_resume coherent).with_eq.imp_ok
      intro _ w' holds
      obtain ⟨received, coherent', count, letsGo, _⟩ := holds
      apply ensures_whatever_iff.mpr
      intro _ w'' ran free
      have order := (ih coherent').of_eq_ok ran free
      rw [overtakes_cons_iff received, order]
      by_cases last : w.pauseDepth ≤ 1
      · have order' := orderly_iff_of_letsGo (letsGo last)
        constructor
        · rintro (overtakes | ⟨-, disorder⟩)
          · exact .inl (.inr overtakes)
          · exact .inl (.inl ⟨rfl, last, fun none => disorder (order'.mpr none)⟩)
        · rintro ((⟨-, -, waiting⟩ | overtakes) | ⟨-, disorder⟩)
          · exact .inr ⟨by omega, fun orderly => waiting (order'.mp orderly)⟩
          · exact .inl overtakes
          · exact .inr ⟨by omega, fun orderly =>
              waiting_of_not_orderly disorder (order'.mp orderly)⟩
      · constructor
        · rintro (overtakes | ⟨zero, -⟩)
          · exact .inl (.inr overtakes)
          · omega
        · rintro ((⟨-, few, -⟩ | overtakes) | ⟨zero, -⟩)
          · exact absurd few last
          · exact .inl overtakes
          · omega

omit [Screen S] in
/-- A key keeps good order, and disorder too. -/
private theorem handleKey_orderly_iff {w w' : Worker H S}
    (handled : w.editor.IsHeld ∧ w'.editor.IsHeld ∧ w'.editor.committed = w.editor.committed ∨
      w.editor.IsEditing ∧ w.editor.Advances w'.editor) : w'.Orderly ↔ w.Orderly := by
  rcases handled with ⟨held, held', same⟩ | ⟨editing, ⟨editing', same⟩ | ⟨held, line, entered⟩⟩
  · simp only [Orderly, same, held, held']
  · rw [orderly_iff_of_editing editing', orderly_iff_of_editing editing, same]
  · rw [orderly_iff_of_editing editing, orderly_iff_of_entered held entered]

/-- After the intake of a turn at depth zero, order is lost exactly if a line was overtaken. -/
theorem intake_orderly_iff (t : Turn) {w : Worker H S} (settled : w.Settled) :
    Ensures (intake t.messages t.polled) (fun _ w' => w'.pauseDepth = 0 →
      (¬ w'.Orderly ↔ Overtakes t.messages w)) Whatever w := by
  have ordered : w.Orderly := .inl settled.committed
  simp only [intake, ensures_bind]
  apply ensures_whatever_iff.mpr
  intro _ w' ran
  have coherent := ((receiveAll_coherent t.messages settled.coherent).of_eq_ok ran).1
  have order := (receiveAll_orderly_iff t.messages settled.coherent).of_eq_ok ran
  simp only [ordered, not_true_eq_false, and_false, or_false] at order
  split
  · rw [ensures_pure]
    exact order
  · rw [ensures_throw]
    trivial
  · apply (handleKey_coherent _ coherent).imp_ok
    intro _ w'' holds free
    obtain ⟨_, same, handled⟩ := holds
    rw [handleKey_orderly_iff handled]
    exact order (same.symm.trans free)

section Lines

variable {host : Host H} {depth : Nat} {w : Worker H S}

/-- While others have the worker paused, or with good order, a line is taken from a held editor. -/
private theorem runLines_keeps_order (count : Nat) (coherent : w.Coherent)
    (order : 0 < w.pauseDepth ∨ w.Orderly) :
    Ensures (runLines host depth count) (fun _ w' => w'.Coherent ∧
      (0 < w'.pauseDepth ∨ w'.Orderly)) Whatever w := by
  induction count generalizing w with
  | zero => exact ⟨coherent, order⟩
  | succ count ih =>
    cases taken : w.editor.committed with
    | nil => exact (ensures_runLines_of_none taken).mpr ⟨coherent, order⟩
    | cons line rest =>
      refine (ensures_runLines_of_cons taken).mpr ?_
      refine (runTaken_coherent coherent taken).imp_ok fun _ w' holds => ?_
      obtain ⟨coherent', same, _, letsGo⟩ := holds
      refine ih coherent' ?_
      rcases order with paused | orderly
      · exact .inl (same ▸ paused)
      · rcases Nat.eq_zero_or_pos w.pauseDepth with free | paused
        · rcases orderly with none | ⟨-, only, single⟩
          · simp [taken] at none
          · rw [taken] at single
            exact .inr ((orderly_iff_of_letsGo (letsGo free)).mpr (List.cons.inj single).2)
        · exact .inl (same ▸ paused)

/-- By induction on the fuel: at depth zero and without good order, some line is taken from an
editor that edits. Either the first is, or running it lets go of the editor and leaves the next in
disorder. -/
private theorem exists_line_under_prompt (fuel : Nat) (coherent : w.Coherent)
    (free : w.pauseDepth = 0) (disorder : ¬ w.Orderly) (enough : w.pending ≤ fuel) :
    Ensures (runLines host depth fuel) (fun _ _ => ∃ count giver, count < w.pending ∧
      runLines host depth count w = .ok () giver ∧ giver.editor.committed ≠ [] ∧
      giver.editor.IsEditing) Whatever w := by
  have waiting := waiting_of_not_orderly disorder
  have positive : 0 < w.pending := Nat.add_pos_left (List.length_pos_iff.mpr waiting) _
  induction fuel generalizing w with
  | zero => omega
  | succ fuel ih =>
    rcases coherent.mode with ⟨editing, -⟩ | held
    · exact ensures_whatever_iff.mpr fun _ _ _ => ⟨0, w, positive, rfl, waiting, editing⟩
    · cases taken : w.editor.committed with
      | nil => exact absurd taken waiting
      | cons line rest =>
        have more : rest ≠ [] := by
          rintro rfl
          exact disorder (.inr ⟨held, line, taken⟩)
        refine (ensures_runLines_of_cons taken).mpr ?_
        refine (runTaken_coherent coherent taken).with_eq.imp_ok fun _ w' holds => ?_
        obtain ⟨ran, coherent', same, fewer, letsGo⟩ := holds
        have disorder' : ¬ w'.Orderly :=
          fun orderly => more ((orderly_iff_of_letsGo (letsGo free)).mp orderly)
        have waiting' := waiting_of_not_orderly disorder'
        apply (ih coherent' (same.trans free) disorder' (by omega) waiting'
          (Nat.add_pos_left (List.length_pos_iff.mpr waiting') _)).imp_ok
        intro _ _ holds
        obtain ⟨count, giver, below, reached, found⟩ := holds
        refine ⟨count + 1, giver, by omega, ?_, found⟩
        rw [runLines_succ taken]
        simp only [bind, EStateM.bind, ran, reached]

end Lines

/-- The turn receives a resume that overtakes a line, and then no one has the worker paused. -/
def LosesOrder (t : Turn) (w : Worker H S) : Prop :=
  Overtakes t.messages w ∧ t.messages.foldl depthAfter w.pauseDepth = 0

instance (t : Turn) (w : Worker H S) : Decidable (LosesOrder t w) :=
  inferInstanceAs (Decidable (_ ∧ _))

/-- The first of the lines that wait after the intake is handed over. -/
theorem handsOver_of_waiting {host : Host H} {depth : Nat} {t : Turn} {line : String}
    {w ready : Worker H S} (taken : intake t.messages t.polled w = .ok () ready)
    (next : ready.editor.committed.head? = some line) : HandsOver host depth w t line ready := by
  obtain ⟨rest, waiting⟩ := List.head?_eq_some_iff.mp next
  refine ⟨ready, 0, taken, ?_, rfl, ?_⟩
  · rw [waiting, List.length_cons]
    omega
  · simp only [Editor.takeLine, waiting]

/-- In every run, the lines of a turn are all handed to the shell by a held editor without a prompt,
unless the turn loses order; and a turn that loses order hands one over under a live prompt, unless
something stops the worker before it. -/
theorem handover_without_prompt_iff (host : Host H) (depth : Nat) (shell : Shell H)
    (prompt : String) (rawInput : Bool) (screen : S) (turns : List Turn) (t : Turn)
    {w : Worker H S}
    (reached : eventLoop host depth turns (fresh shell prompt rawInput screen) = .ok () w) :
    (¬ LosesOrder t w → ∀ line giver, HandsOver host depth w t line giver →
      giver.editor.paused = true ∧ giver.editor.promptShown = false) ∧
    (LosesOrder t w → ∀ w', turn host depth t.messages t.polled w = .ok () w' →
      ∃ line giver, HandsOver host depth w t line giver ∧
        giver.editor.paused = false ∧ giver.editor.promptShown = true) := by
  have settled : w.Settled :=
    (eventLoop_settles host depth shell prompt rawInput screen turns).of_eq_ok reached
  constructor
  · rintro order line giver ⟨ready, count, taken, -, ran, next⟩
    obtain ⟨coherent, same⟩ := (intake_coherent t.messages t.polled settled.coherent).of_eq_ok taken
    have ordered : 0 < ready.pauseDepth ∨ ready.Orderly := by
      rcases Nat.eq_zero_or_pos ready.pauseDepth with free | paused
      · refine .inr (Classical.byContradiction fun disorder => ?_)
        have overtakes := ((intake_orderly_iff t settled).of_eq_ok taken free).mp disorder
        exact order ⟨overtakes, same.symm.trans free⟩
      · exact .inl paused
    obtain ⟨coherent', order'⟩ := (runLines_keeps_order count coherent ordered).of_eq_ok ran
    have waiting : giver.editor.committed ≠ [] := by
      intro none
      simp [Editor.takeLine, none] at next
    rcases order' with paused | none | ⟨held, -⟩
    · exact coherent'.paused paused
    · exact absurd none waiting
    · exact held
  · rintro ⟨overtakes, free⟩ w' ended
    obtain ⟨_, ready, taken, ended⟩ := bind_eq_ok ended
    obtain ⟨coherent, same⟩ := (intake_coherent t.messages t.polled settled.coherent).of_eq_ok taken
    have zero : ready.pauseDepth = 0 := same.trans free
    have disorder := ((intake_orderly_iff t settled).of_eq_ok taken zero).mpr overtakes
    obtain ⟨count, giver, below, ran, waiting, editing⟩ :=
      (exists_line_under_prompt _ coherent zero disorder (Nat.le_refl _)).of_eq_ok ended
    obtain ⟨line, rest, next⟩ := List.exists_cons_of_ne_nil waiting
    refine ⟨line, giver, ⟨ready, count, taken, below, ran, ?_⟩, editing.1, editing.2⟩
    simp only [Editor.takeLine, next]

/-! ## A schedule with two clients -/

/-- The first client pauses; then `x` and the enter key are typed. -/
def typedWhilePaused : List Turn :=
  [⟨[⟨0, .pause⟩], some (.ok (.ofChar 'x'))⟩, ⟨[], some (.ok (.plain .enter))⟩]

/-- The first client resumes, and nothing else arrives. -/
def resumedOnce : Turn := ⟨[⟨0, .resume⟩], none⟩

/-- The first client resumes. While that is being received, the second one pauses and resumes. -/
def resumedTwice : Turn := ⟨[⟨0, .resume⟩, ⟨1, .pause⟩, ⟨1, .resume⟩], none⟩

/-- A worker whose shell has no commands. -/
def bare : Worker Empty MemoryScreen :=
  fresh ({} : ShellSetup Empty).shell "> " false (.ofWidth 40)

abbrev idle : Host Empty := nofun

theorem handover_of_typedWhilePaused : ∃ w, eventLoop idle 1 typedWhilePaused bare = .ok () w ∧
    (¬ LosesOrder resumedOnce w ∧ (∃ giver, HandsOver idle 1 w resumedOnce "x" giver) ∧
      ∀ line giver, HandsOver idle 1 w resumedOnce line giver →
        giver.editor.paused = true ∧ giver.editor.promptShown = false) ∧
    LosesOrder resumedTwice w ∧ ∃ line giver, HandsOver idle 1 w resumedTwice line giver ∧
      giver.editor.paused = false ∧ giver.editor.promptShown = true := by
  have run : ∃ w, eventLoop idle 1 typedWhilePaused bare = .ok () w ∧
      ¬ LosesOrder resumedOnce w ∧ LosesOrder resumedTwice w ∧
      (∃ ready, intake resumedOnce.messages resumedOnce.polled w = .ok () ready ∧
        ready.editor.committed.head? = some "x") ∧
      ∃ w', turn idle 1 resumedTwice.messages resumedTwice.polled w = .ok () w' ∧ True := by
    decide +kernel
  obtain ⟨w, reached, keeps, loses, ⟨ready, taken, next⟩, w', ended, -⟩ := run
  refine ⟨w, reached, ⟨keeps, ⟨ready, handsOver_of_waiting taken next⟩, ?_⟩, loses, ?_⟩
  · exact (handover_without_prompt_iff idle 1 _ _ _ _ typedWhilePaused resumedOnce reached).1 keeps
  · exact (handover_without_prompt_iff idle 1 _ _ _ _ typedWhilePaused resumedTwice reached).2
      loses w' ended

/-- No client resumes without having paused, and still `x` is run under a live prompt. -/
theorem handover_under_prompt : Courteous (typedWhilePaused ++ [resumedTwice]) ∧
    ∃ w, eventLoop idle 1 typedWhilePaused bare = .ok () w ∧
      ∃ giver, HandsOver idle 1 w resumedTwice "x" giver ∧
        giver.editor.paused = false ∧ giver.editor.promptShown = true := by
  constructor
  · intro client
    match client with
    | 0 | 1 => decide
    | n + 2 => simp [messagesOf, typedWhilePaused, resumedTwice, alternates]
  · have run : ∃ w, eventLoop idle 1 typedWhilePaused bare = .ok () w ∧
        ∃ ready, intake resumedTwice.messages resumedTwice.polled w = .ok () ready ∧
          ready.editor.committed.head? = some "x" ∧ ready.editor.paused = false ∧
            ready.editor.promptShown = true := by decide +kernel
    obtain ⟨w, reached, ready, taken, next, live⟩ := run
    exact ⟨w, reached, ready, handsOver_of_waiting taken next, live⟩

end LineConsole.Worker
