import LineConsole.Proofs.Editor.Fidelity
import LineConsole.Proofs.Screen.ReadingOrder

/-! # Earlier output stays

A line is drawn from its anchor on, and the anchor only goes on in reading order: over the end of a
line that is left, and over a prompt that is printed. So nothing that stands before it is ever
written again. A line that was entered has the next anchor behind it, and hence stays on the screen
with its prompt.
-/

namespace LineConsole

open MemoryScreen (SameBefore FilledTo)

/-- No cell of a line is before the anchor. -/
theorem Editor.cellOf_not_before (e : Editor) (width offset : Nat) :
    ¬ (e.cellOf width offset).Before e.anchor := by
  have divided := Nat.div_add_mod (e.anchor.col + offset) (max width 1)
  unfold cellOf Position.Before
  simp only
  rcases Nat.eq_zero_or_pos ((e.anchor.col + offset) / max width 1) with none | below
  · rw [none, Nat.mul_zero] at divided
    omega
  · omega

/-- The cells of a line are in reading order. -/
theorem Editor.row_cellOf_le (e : Editor) (width : Nat) {i j : Nat} (ordered : i ≤ j) :
    (e.cellOf width i).row ≤ (e.cellOf width j).row :=
  Nat.add_le_add_left (Nat.div_le_div_right (Nat.add_le_add_left ordered _)) _

namespace Session

/-- From the first session to the second, nothing before the anchor changed, and the anchor went on
in reading order. -/
structure Extends (s s' : Session MemoryScreen) : Prop where
  same : SameBefore s.editor.anchor s.screen s'.screen
  onward : ¬ s'.editor.anchor.Before s.editor.anchor

theorem Extends.refl (s : Session MemoryScreen) : s.Extends s :=
  ⟨.refl _ _, s.editor.anchor.not_before_self⟩

theorem Extends.trans {s s' s'' : Session MemoryScreen} (first : s.Extends s')
    (second : s'.Extends s'') : s.Extends s'' :=
  ⟨fun p before => (second.same p (before.of_not_before first.onward)).trans (first.same p before),
    Position.not_before_trans first.onward second.onward⟩

/-- All that `asked` shows up to its cursor, where a prompt was printed, is on the screen as well, and
a line from there on. Both end before the anchor. -/
structure Bears (asked : MemoryScreen) (line : String) (s : Session MemoryScreen) : Prop where
  width : asked.width = s.screen.width
  prompt : SameBefore asked.effective asked s.screen
  before : asked.effective.Before s.editor.anchor
  line : ∀ i, (inside : i < line.toList.length) →
    let p := s.screen.place (s.screen.number asked.effective + i)
    p.Before s.editor.anchor ∧ s.screen.cell? p =
      some ⟨line.toList[i], if ' ' ∈ line.toList.take (i + 1) then .argument else .command⟩

/-- What stands before the anchor stays. -/
theorem Bears.of_extends {asked : MemoryScreen} {line : String} {s s' : Session MemoryScreen}
    (bears : s.Bears asked line) (extended : s.Extends s')
    (width : s'.screen.width = s.screen.width) : s'.Bears asked line := by
  refine ⟨bears.width.trans width.symm, fun p before => ?_,
    bears.before.of_not_before extended.onward, fun i inside => ?_⟩
  · rw [extended.same p (before.trans bears.before)]
    exact bears.prompt p before
  · obtain ⟨before, shown⟩ := bears.line i inside
    simp only [MemoryScreen.place, MemoryScreen.number, width] at *
    exact ⟨before.of_not_before extended.onward, (extended.same _ before).trans shown⟩

/-! ## Keys that edit the line -/

/-- The second session is drawn on the line of the first. -/
structure StaysOnLine (s s' : Session MemoryScreen) : Prop where
  mode : s'.mode = s.mode
  anchor : s'.editor.anchor = s.editor.anchor
  prompt : s'.editor.prompt = s.editor.prompt
  width : s'.screen.width = s.screen.width
  same : SameBefore s.editor.anchor s.screen s'.screen
  cursor : ¬ s'.screen.effective.Before s.editor.anchor

section Drawing

variable {s₀ : Session MemoryScreen}

theorem moveToOffset_stays (offset : Nat) : Maintains (StaysOnLine s₀) (moveToOffset offset) := by
  intro s stays
  refine { stays with cursor := MemoryScreen.effective_not_before ?_ }
  rw [← stays.anchor]
  exact s.editor.cellOf_not_before _ offset

private theorem edit_stays {change : Editor → Editor} (mode : ∀ e, (change e).mode = e.mode)
    (place : ∀ e, (change e).anchor = e.anchor) (prompt : ∀ e, (change e).prompt = e.prompt) :
    Maintains (StaysOnLine s₀) (edit change) :=
  maintains_modify fun s stays =>
    { stays with
      mode := (mode s.editor).trans stays.mode
      anchor := (place s.editor).trans stays.anchor
      prompt := (prompt s.editor).trans stays.prompt }

variable (filled : s₀.screen.FilledTo s₀.editor.anchor)
include filled

private theorem print_stays (text : String) (style : Style) :
    Maintains (StaysOnLine s₀) (onScreen (Screen.print text style)) := by
  intro s stays
  obtain ⟨same, onward⟩ :=
    MemoryScreen.print_behind text style (filled.of_same stays.same) stays.cursor
  exact
    { stays with
      width := MemoryScreen.width_print.trans stays.width
      same := stays.same.trans same
      cursor := onward }

private theorem printAll_stays (pieces : List Piece) :
    Maintains (StaysOnLine s₀) (printAll pieces) := by
  induction pieces with
  | nil => exact fun _ stays => stays
  | cons piece rest ih => exact maintains_bind (print_stays filled _ _) fun _ => ih

private theorem redrawFrom_stays (start stale : Nat) :
    Maintains (StaysOnLine s₀) (redrawFrom start stale) := by
  refine maintains_bind (moveToOffset_stays start) fun _ => maintains_bind maintains_get fun _ =>
    maintains_bind (printAll_stays filled _) fun _ => ?_
  split
  · exact maintains_bind (print_stays filled _ _) fun _ =>
      maintains_bind maintains_get fun _ => moveToOffset_stays _
  · exact maintains_bind maintains_get fun _ => moveToOffset_stays _

private theorem insert_stays (c : Char) : Maintains (StaysOnLine s₀) (insert c) :=
  maintains_bind maintains_get fun _ =>
    maintains_bind (edit_stays (fun _ => rfl) (fun _ => rfl) fun _ => rfl) fun _ =>
      redrawFrom_stays filled _ _

private theorem backspace_stays (word : Bool) : Maintains (StaysOnLine s₀) (backspace word) :=
  maintains_bind maintains_get fun _ => maintains_ite (fun _ stays => stays) <|
    maintains_bind (edit_stays (fun _ => rfl) (fun _ => rfl) fun _ => rfl) fun _ =>
      redrawFrom_stays filled _ _

private theorem delete_stays (word : Bool) : Maintains (StaysOnLine s₀) (delete word) :=
  maintains_bind maintains_get fun _ => maintains_ite (fun _ stays => stays) <|
    maintains_bind (edit_stays (fun _ => rfl) (fun _ => rfl) fun _ => rfl) fun _ =>
      redrawFrom_stays filled _ _

private theorem walkHistory_stays (step : History → Option String × History) :
    Maintains (StaysOnLine s₀) (walkHistory step) := by
  refine maintains_bind maintains_get fun s =>
    maintains_bind (maintains_modify fun _ stays => { stays with }) fun _ => ?_
  cases (step s.history).1 with
  | some line =>
    exact maintains_bind maintains_get fun _ =>
      maintains_bind (edit_stays (fun _ => rfl) (fun _ => rfl) fun _ => rfl) fun _ =>
        redrawFrom_stays filled _ _
  | none => exact fun _ stays => stays

omit filled

private theorem moveCursor_stays (target : Nat) : Maintains (StaysOnLine s₀) (moveCursor target) :=
  maintains_bind (edit_stays (fun _ => rfl) (fun _ => rfl) fun _ => rfl) fun _ =>
    moveToOffset_stays target

end Drawing

/-! ## Prompts and lines that are left -/

/-- In front of the anchor, the screen shows the prompt as it was printed on an earlier screen. -/
def Asked (prompt : String) (s : Session MemoryScreen) : Prop :=
  ∃ earlier : MemoryScreen,
    let asked := earlier.print prompt .prompt
    asked.width = s.screen.width ∧ asked.effective = s.editor.anchor ∧
      SameBefore s.editor.anchor asked s.screen

/-- What is kept since an earlier session. -/
structure Kept (prompt : String) (s₀ s : Session MemoryScreen) : Prop where
  asks : s.editor.prompt = prompt
  extended : s₀.Extends s
  filled : s.screen.FilledTo s.editor.anchor
  cursor : ¬ s.screen.effective.Before s.editor.anchor
  /-- Every line that was entered is on the screen behind the prompt. -/
  borne : ∀ line ∈ s.editor.committed,
    ∃ earlier : MemoryScreen, s.Bears (earlier.print prompt .prompt) line

/-- Between two moves. -/
structure Lasting (prompt : String) (s₀ s : Session MemoryScreen) : Prop
    extends Kept prompt s₀ s where
  asked : s.editor.paused = false → s.Asked prompt
  held : s.editor.paused = true → s.screen.FilledTo s.screen.effective

section Steps

variable {width : Nat} {prompt : String} {s₀ s : Session MemoryScreen}

theorem Kept.extend {s' : Session MemoryScreen} (kept : s₀.Kept prompt s) (extended : s.Extends s')
    (asks : s'.editor.prompt = s.editor.prompt) (width : s'.screen.width = s.screen.width)
    (filled : s'.screen.FilledTo s'.editor.anchor)
    (cursor : ¬ s'.screen.effective.Before s'.editor.anchor)
    (committed : ∀ line ∈ s'.editor.committed, line ∈ s.editor.committed) : s₀.Kept prompt s' := by
  refine ⟨asks.trans kept.asks, kept.extended.trans extended, filled, cursor, fun line there => ?_⟩
  obtain ⟨earlier, bears⟩ := kept.borne line (committed line there)
  exact ⟨earlier, bears.of_extends extended width⟩

/-- What changes neither the anchor nor what stands before it. -/
private theorem Kept.in_place {s' : Session MemoryScreen} (kept : s₀.Kept prompt s)
    (asks : s'.editor.prompt = s.editor.prompt) (anchor : s'.editor.anchor = s.editor.anchor)
    (committed : ∀ line ∈ s'.editor.committed, line ∈ s.editor.committed)
    (width : s'.screen.width = s.screen.width)
    (same : SameBefore s.editor.anchor s.screen s'.screen)
    (cursor : ¬ s'.screen.effective.Before s.editor.anchor) : s₀.Kept prompt s' := by
  have onward : ¬ s'.editor.anchor.Before s.editor.anchor :=
    anchor ▸ s.editor.anchor.not_before_self
  refine kept.extend ⟨same, onward⟩ asks width ?_ ?_ committed
  · rw [anchor]
    exact kept.filled.of_same same
  · rw [anchor]
    exact cursor

private theorem Asked.in_place {s' : Session MemoryScreen} (asked : s.Asked prompt)
    (anchor : s'.editor.anchor = s.editor.anchor) (width : s'.screen.width = s.screen.width)
    (same : SameBefore s.editor.anchor s.screen s'.screen) : s'.Asked prompt := by
  obtain ⟨earlier, width', place, stands⟩ := asked
  refine ⟨earlier, width'.trans width.symm, place.trans anchor.symm, ?_⟩
  rw [anchor]
  exact stands.trans same

/-- A change of the editor that keeps its place. -/
private theorem Lasting.of_editor {e : Editor} {history : History} (lasting : s₀.Lasting prompt s)
    (asks : e.prompt = s.editor.prompt) (anchor : e.anchor = s.editor.anchor)
    (committed : ∀ line ∈ e.committed, line ∈ s.editor.committed)
    (paused : e.paused = s.editor.paused) : s₀.Lasting prompt ⟨e, s.screen, history⟩ := by
  refine ⟨lasting.toKept.in_place asks anchor committed rfl (.refl _ _) lasting.cursor, ?_, ?_⟩
  · exact fun going => (lasting.asked (paused ▸ going)).in_place anchor rfl (.refl _ _)
  · exact fun held => lasting.held (paused ▸ held)

private theorem Lasting.of_going (kept : s₀.Kept prompt s) (asked : s.Asked prompt)
    (going : s.editor.paused = false) : s₀.Lasting prompt s :=
  ⟨kept, fun _ => asked, fun paused => absurd (going.symm.trans paused) Bool.false_ne_true⟩

private theorem Lasting.of_held (kept : s₀.Kept prompt s) (paused : s.editor.paused = true)
    (filled : s.screen.FilledTo s.screen.effective) : s₀.Lasting prompt s :=
  ⟨kept, fun going => absurd (going.symm.trans paused) Bool.false_ne_true, fun _ => filled⟩

/-- What is drawn on the line keeps what stands before it, the prompt included. -/
private theorem Lasting.of_stays {action : Action (Session MemoryScreen) Unit}
    (lasting : s₀.Lasting prompt s) (going : s.editor.paused = false)
    (stays : Maintains s.StaysOnLine action) :
    Ensures action (fun _ => s₀.Lasting prompt) Whatever s := by
  have begins : s.StaysOnLine s := ⟨rfl, rfl, rfl, rfl, .refl _ _, lasting.cursor⟩
  refine (stays s begins).imp (fun _ s' stays => ?_) fun _ _ _ => trivial
  have committed : s'.editor.committed = s.editor.committed :=
    congrArg Editor.Mode.committed stays.mode
  refine .of_going ?_ ((lasting.asked going).in_place stays.anchor stays.width stays.same)
    ((congrArg Editor.Mode.paused stays.mode).trans going)
  exact lasting.toKept.in_place stays.prompt stays.anchor (fun _ there => committed ▸ there)
    stays.width stays.same stays.cursor

/-- A prompt is printed where no cell is missing before it. -/
private theorem showPrompt_lasting (kept : s₀.Kept prompt s) (going : s.editor.paused = false)
    (filled : s.screen.FilledTo s.screen.effective) :
    Ensures showPrompt (fun _ s' => s₀.Lasting prompt s' ∧ s'.editor.paused = false) Whatever s := by
  obtain ⟨same, onward⟩ := MemoryScreen.print_behind s.editor.prompt .prompt kept.filled kept.cursor
  let asked := s.screen.print s.editor.prompt .prompt
  let s' : Session MemoryScreen :=
    ⟨{ s.editor with anchor := asked.effective, promptShown := true }, asked, s.history⟩
  have shown : s₀.Kept prompt s' := by
    refine kept.extend ⟨same, onward⟩ rfl MemoryScreen.width_print ?_ ?_ fun _ there => there
    · exact MemoryScreen.print_filled s.editor.prompt .prompt filled
    · exact asked.effective.not_before_self
  refine ⟨.of_going shown ⟨s.screen, ?_⟩ going, going⟩
  rw [← kept.asks]
  exact ⟨rfl, rfl, .refl _ _⟩

/-- A line is left for a row of its own, behind all of its cells. -/
private theorem leave_kept {e : Editor} {offset : Nat} {ok : Unit → Session MemoryScreen → Prop}
    (kept : s₀.Kept prompt s) (asks : e.prompt = s.editor.prompt)
    (anchor : e.anchor = s.editor.anchor) (committed : e.committed = s.editor.committed)
    (left : ∀ screen : MemoryScreen, screen.width = s.screen.width →
      (∀ p, screen.cell? p = s.screen.cell? p) → screen.FilledTo screen.effective →
      (∀ i ≤ offset, (s.editor.cellOf s.screen.width i).Before screen.effective) →
      s₀.Kept prompt ⟨e, screen, s.history⟩ → ok () ⟨e, screen, s.history⟩) :
    Ensures (moveToOffset offset)
      (fun _ s' => Ensures (onScreen Screen.newline) ok Whatever s') Whatever
      ⟨e, s.screen, s.history⟩ := by
  let moved : MemoryScreen := { s.screen with position := e.cellOf s.screen.width offset }
  have same (p : Position) : moved.newline.cell? p = s.screen.cell? p :=
    MemoryScreen.cell?_newline
  have place : e.cellOf s.screen.width = s.editor.cellOf s.screen.width := by
    funext offset
    rw [Editor.cellOf, Editor.cellOf, anchor]
  have behind : ∀ i ≤ offset,
      (s.editor.cellOf s.screen.width i).Before moved.newline.effective := by
    intro i inside
    have below : moved.position.row < moved.newline.effective.row := MemoryScreen.row_lt_newline
    refine .inl (Nat.lt_of_le_of_lt (s.editor.row_cellOf_le s.screen.width inside) ?_)
    rw [← place]
    exact below
  have onward : ¬ moved.newline.effective.Before s.editor.anchor := fun back =>
    s.editor.cellOf_not_before _ 0 ((behind 0 (Nat.zero_le _)).trans back)
  refine left moved.newline rfl same MemoryScreen.newline_filled behind ?_
  exact kept.in_place asks anchor (fun _ there => committed ▸ there) rfl (fun p _ => same p) onward

/-! ## Keys -/

private theorem interrupt_lasting (lasting : s₀.Lasting prompt s)
    (going : s.editor.paused = false) :
    Ensures interrupt (fun _ => s₀.Lasting prompt) Whatever s := by
  simp only [interrupt, leaveLine, edit, ensures_bind, ensures_get, ensures_modify]
  refine leave_kept lasting.toKept rfl rfl rfl fun screen width' _ filled _ kept => ?_
  have emptied : s₀.Kept prompt
      ⟨{ s.editor with buffer := [], cursor := 0 }, screen, s.history⟩ :=
    kept.in_place rfl rfl (fun _ there => there) rfl (.refl _ _) kept.cursor
  exact (showPrompt_lasting emptied going filled).imp_ok fun _ _ shown => shown.1

/-- A line that is rendered behind its prompt is borne once the anchor has gone on behind it. -/
private theorem exists_bears {s' : Session MemoryScreen} (rendered : s.Rendered width)
    (asked : s.Asked prompt) (width' : s'.screen.width = s.screen.width)
    (same : ∀ p, s'.screen.cell? p = s.screen.cell? p)
    (behind : ∀ i ≤ s.editor.buffer.length,
      (s.editor.cellOf s.screen.width i).Before s'.editor.anchor) :
    ∃ earlier : MemoryScreen, s'.Bears (earlier.print prompt .prompt) s.editor.text := by
  have wide : 0 < s.screen.width := rendered.1.wide
  obtain ⟨earlier, width, place, stands⟩ := asked
  refine ⟨earlier, width.trans width'.symm, fun p before => ?_, ?_, fun i inside => ?_⟩
  · rw [same]
    exact stands p (place ▸ before)
  · rw [place]
    exact Position.before_of_not_before (s.editor.cellOf_not_before _ 0) (behind 0 (Nat.zero_le _))
  · simp only [Editor.text, String.toList_ofList] at inside ⊢
    have cell : s'.screen.place (s'.screen.number s.editor.anchor + i) =
        s.editor.cellOf s.screen.width i := by
      have counted := MemoryScreen.number_cellOf wide s.editor i
      rw [← (MemoryScreen.place_eq_iff (MemoryScreen.cellOf_col_lt wide s.editor i)).mpr
        counted.symm]
      simp only [MemoryScreen.place, MemoryScreen.number, width']
    have shown := (faithful_of_rendered rendered).line i inside
    rw [place, cell, same]
    refine ⟨behind i (Nat.le_of_lt inside), ?_⟩
    rw [← shown, ← cell]
    simp only [MemoryScreen.place, MemoryScreen.number, width', origin]

private theorem enter_lasting (rendered : s.Rendered width) (lasting : s₀.Lasting prompt s) :
    Ensures enter (fun _ => s₀.Lasting prompt) Whatever s := by
  have going : s.editor.paused = false := rendered.2.1.1
  simp only [enter, edit, ensures_bind, ensures_get, ensures_modify]
  refine leave_kept lasting.toKept rfl rfl rfl fun screen width' same filled behind kept => ?_
  rw [ensures_ite]
  split
  · have emptied : s₀.Kept prompt
        ⟨{ s.editor with buffer := [], cursor := 0, promptShown := false }, screen, s.history⟩ :=
      kept.in_place rfl rfl (fun _ there => there) rfl (.refl _ _) kept.cursor
    exact (showPrompt_lasting emptied going filled).imp_ok fun _ _ shown => shown.1
  · let s' : Session MemoryScreen :=
      ⟨{ s.editor with
        buffer := [], cursor := 0, promptShown := false, anchor := screen.effective
        committed := s.editor.committed ++ [s.editor.text], paused := true }, screen, s.history⟩
    have enters : s.Extends s' := ⟨fun p _ => same p, kept.cursor⟩
    have borne : ∀ line ∈ s'.editor.committed,
        ∃ earlier : MemoryScreen, s'.Bears (earlier.print prompt .prompt) line := by
      intro line there
      rcases List.mem_append.mp there with old | new
      · obtain ⟨earlier, bears⟩ := lasting.borne line old
        exact ⟨earlier, bears.of_extends enters width'⟩
      · obtain rfl := List.mem_singleton.mp new
        exact exists_bears rendered (lasting.asked going) width' same behind
    have entered : s₀.Kept prompt s' := ⟨lasting.asks, lasting.extended.trans enters, filled,
      screen.effective.not_before_self, borne⟩
    exact .of_held entered rfl filled

private theorem apply_lasting (event : KeyEvent) (rendered : s.Rendered width)
    (lasting : s₀.Lasting prompt s) :
    Ensures (apply event) (fun _ => s₀.Lasting prompt) Whatever s := by
  have going : s.editor.paused = false := rendered.2.1.1
  have filled := lasting.filled
  unfold apply
  rw [ensures_ite]
  split
  · exact interrupt_lasting lasting going
  · simp only [ensures_bind, ensures_get]
    split
    · split
      · exact lasting.of_stays going (insert_stays filled _)
      · exact lasting
    · exact lasting.of_stays going (backspace_stays filled _)
    · exact lasting.of_stays going (delete_stays filled _)
    · exact lasting.of_stays going (moveCursor_stays _)
    · exact lasting.of_stays going (moveCursor_stays _)
    · exact lasting.of_stays going (moveCursor_stays _)
    · exact lasting.of_stays going (moveCursor_stays _)
    · exact lasting.of_stays going (walkHistory_stays filled _)
    · exact lasting.of_stays going (walkHistory_stays filled _)
    · exact enter_lasting rendered lasting
    all_goals exact lasting

/-! ## Moves -/

/-- By induction on the queue, each key that is replayed being applied to a line that is shown. -/
private theorem replay_lasting (queue : List KeyEvent) (sound : s.Sound width)
    (lasting : s₀.Lasting prompt s) :
    Ensures (replay queue) (fun _ => s₀.Lasting prompt) Whatever s := by
  induction queue generalizing s with
  | nil => exact lasting
  | cons event rest ih =>
    simp only [replay, ensures_bind, ensures_get]
    rcases sound with ⟨tidy, editing, shows⟩ | ⟨-, held, -⟩
    · rw [if_neg (Bool.eq_false_iff.mp editing.1)]
      simp only [edit, ensures_bind, ensures_modify]
      have rendered' : Rendered width { s with editor := { s.editor with queue := rest } } :=
        ⟨tidy.of_eq rfl rfl rfl rfl, editing, shows⟩
      have lasting' : s₀.Lasting prompt { s with editor := { s.editor with queue := rest } } :=
        lasting.of_editor rfl rfl (fun _ there => there) rfl
      refine ((apply_sound event rendered').and (apply_lasting event rendered' lasting')).imp_ok ?_
      exact fun _ _ both => ih both.1 both.2
    · rw [if_pos held.1]
      exact lasting

private theorem start_lasting (kept : s₀.Kept prompt s) (going : s.editor.paused = false)
    (filled : s.screen.FilledTo s.screen.effective) :
    Ensures start (fun _ => s₀.Lasting prompt) Whatever s := by
  simp only [start, ensures_bind]
  exact (showPrompt_lasting kept going filled).imp_ok fun _ _ shown => shown.1

private theorem pause_lasting (sound : s.Sound width) (lasting : s₀.Lasting prompt s) :
    Ensures pause (fun _ => s₀.Lasting prompt) Whatever s := by
  simp only [pause, ensures_bind, ensures_get]
  rcases sound with ⟨-, editing, -⟩ | ⟨-, held, -⟩
  · rw [if_neg (Bool.eq_false_iff.mp editing.1)]
    simp only [edit, ensures_bind, ensures_modify]
    rw [if_pos editing.2]
    simp only [leaveLine, ensures_bind, ensures_get, ensures_modify]
    refine leave_kept lasting.toKept rfl rfl rfl fun screen width' _ filled _ kept => ?_
    have left : s₀.Kept prompt
        ⟨{ s.editor with paused := true, promptShown := false }, screen, s.history⟩ :=
      kept.in_place rfl rfl (fun _ there => there) rfl (.refl _ _) kept.cursor
    exact .of_held left rfl filled
  · rw [if_pos held.1]
    exact lasting

private theorem resume_lasting (sound : s.Sound width) (lasting : s₀.Lasting prompt s) :
    Ensures resume (fun _ => s₀.Lasting prompt) Whatever s := by
  rcases sound with ⟨-, editing, -⟩ | ⟨tidy, held, fresh⟩
  · exact (ensures_resume_of_going editing.1).mpr lasting
  · refine ensures_resume_of_paused held.1 fun screen same => ?_
    obtain rfl : screen = s.screen := same.elim id fun ⟨_, same⟩ => same
    have tidy' : Tidy width { s with editor := { s.editor with paused := false } } :=
      tidy.of_eq rfl rfl rfl rfl
    have kept' : s₀.Kept prompt { s with editor := { s.editor with paused := false } } :=
      lasting.toKept.in_place rfl rfl (fun _ there => there) rfl (.refl _ _) lasting.cursor
    simp only [ensures_bind]
    refine ((shown_anew_rendered tidy' fresh rfl).and
      (showPrompt_lasting kept' rfl (lasting.held held.1))).imp_ok fun _ middle both => ?_
    obtain ⟨drawn, shown, going⟩ := both
    have redrawn := shown.of_stays going (redrawFrom_stays shown.filled 0 0)
    refine (drawn.and redrawn).imp_ok fun _ _ both => ?_
    exact (replay_lasting s.editor.queue (.inl both.1) both.2).imp_ok fun _ _ lasting' => lasting'

private theorem receive_lasting (event : KeyEvent) (sound : s.Sound width)
    (lasting : s₀.Lasting prompt s) :
    Ensures (receive event) (fun _ => s₀.Lasting prompt) Whatever s := by
  simp only [receive, ensures_bind, ensures_get]
  rcases sound with rendered | ⟨-, held, -⟩
  · rw [if_neg (Bool.eq_false_iff.mp rendered.2.1.1), ensures_bind]
    exact (apply_lasting event rendered lasting).imp_ok fun _ _ lasting' => lasting'
  · rw [if_pos held.1]
    exact lasting.of_editor rfl rfl (fun _ there => there) rfl

private theorem handleKey_lasting (event : KeyEvent) (sound : s.Sound width)
    (lasting : s₀.Lasting prompt s) :
    Ensures (handleKey event) (fun _ => s₀.Lasting prompt) Whatever s := by
  simp only [handleKey, ensures_bind, ensures_get]
  cases s.editor.decoder with
  | none => exact receive_lasting event sound lasting
  | some decoder =>
    let fed : Editor := { s.editor with decoder := (decoder.feed event).2 }
    have sound' : Sound width { s with editor := fed } := sound.of_editor rfl rfl rfl rfl rfl
    have lasting' : s₀.Lasting prompt { s with editor := fed } :=
      lasting.of_editor rfl rfl (fun _ there => there) rfl
    simp only [edit, ensures_bind, ensures_modify]
    split
    · exact receive_lasting _ sound' lasting'
    · exact lasting'
    -- A bell moves nothing.
    · refine ⟨?_, fun going => ?_, lasting'.held⟩
      · exact lasting'.toKept.in_place rfl rfl (fun _ there => there) rfl (.refl _ _) lasting'.cursor
      · exact (lasting'.asked going).in_place rfl rfl (.refl _ _)

/-- Output goes behind all that was printed, and is followed by more output or by a prompt. -/
private theorem Lasting.of_output {screen : MemoryScreen} (lasting : s₀.Lasting prompt s)
    (paused : s.editor.paused = true) (width : screen.width = s.screen.width)
    (same : SameBefore s.editor.anchor s.screen screen)
    (onward : ¬ screen.effective.Before s.editor.anchor)
    (filled : screen.FilledTo screen.effective) : s₀.Lasting prompt { s with screen } := by
  refine .of_held ?_ paused filled
  exact lasting.toKept.in_place rfl rfl (fun _ there => there) width same onward

private theorem perform_lasting (move : Move) (sound : s.Sound width)
    (lasting : s₀.Lasting prompt s) :
    Ensures (perform move) (fun _ => s₀.Lasting prompt) Whatever s := by
  cases move with
  | key event => exact handleKey_lasting event sound lasting
  | pause => exact pause_lasting sound lasting
  | resume => exact resume_lasting sound lasting
  | print text style =>
    simp only [perform, ensures_bind, ensures_get, ensures_ite]
    split
    · rename_i paused
      obtain ⟨same, onward⟩ := MemoryScreen.print_behind text style lasting.filled lasting.cursor
      exact lasting.of_output paused MemoryScreen.width_print same onward
        (MemoryScreen.print_filled text style (lasting.held paused))
    · exact lasting
  | newline =>
    simp only [perform, ensures_bind, ensures_get, ensures_ite]
    split
    · rename_i paused
      exact lasting.of_output paused rfl (fun _ _ => MemoryScreen.cell?_newline)
        (MemoryScreen.newline_onward lasting.cursor) MemoryScreen.newline_filled
    · exact lasting
  | take =>
    change s₀.Lasting prompt { s with editor := s.editor.takeLine.2 }
    rw [Editor.takeLine_snd]
    exact lasting.of_editor rfl rfl (fun _ there => List.mem_of_mem_tail there) rfl
  | swap history => exact lasting.of_editor rfl rfl (fun _ there => there) rfl

private theorem performAll_lasting (moves : List Move) (visible : ∀ move ∈ moves, move.Visible)
    (sound : s.Sound width) (lasting : s₀.Lasting prompt s) :
    Ensures (performAll moves) (fun _ => s₀.Lasting prompt) Whatever s := by
  induction moves generalizing s with
  | nil => exact lasting
  | cons move rest ih =>
    obtain ⟨first, others⟩ := List.forall_mem_cons.mp visible
    simp only [performAll, ensures_bind]
    refine ((perform_sound move first sound).and (perform_lasting move sound lasting)).imp_ok ?_
    exact fun _ _ both => ih others both.1 both.2

end Steps

/-- On an empty screen nothing stands before the line. -/
private theorem kept_new (width : Nat) (prompt : String) (rawInput : Bool) (history : History) :
    let s : Session MemoryScreen := ⟨Editor.new prompt rawInput, .ofWidth width, history⟩
    s.Kept prompt s ∧ s.screen.FilledTo s.screen.effective := by
  intro s
  have first : s.screen.effective = ⟨0, 0⟩ :=
    if_neg (Nat.not_le_of_lt (Nat.lt_of_lt_of_le Nat.one_pos (Nat.le_max_right width 1)))
  have filled : s.screen.FilledTo ⟨0, 0⟩ := fun col inside => absurd inside (Nat.not_lt_zero col)
  refine ⟨⟨rfl, .refl s, filled, ?_, nofun⟩, first ▸ filled⟩
  rw [first]
  exact Position.not_before_self _

/-- Whatever happens to an editor on a screen in memory of any width, no call changes a cell before
the anchor or leads the anchor back, and every line that was entered stays where it stands behind its
prompt. -/
theorem output_stays (width : Nat) (prompt : String) (rawInput : Bool) (history : History)
    (moves later : List Move) (historyVisible : history.Visible)
    (movesVisible : ∀ move ∈ moves ++ later, move.Visible) :
    ∃ s s', play moves ⟨Editor.new prompt rawInput, .ofWidth width, history⟩ = .ok () s ∧
      performAll later s = .ok () s' ∧ s.Extends s' ∧
      ∀ line ∈ s.editor.committed, ∃ earlier : MemoryScreen,
        s.Bears (earlier.print prompt .prompt) line ∧
          s'.Bears (earlier.print prompt .prompt) line := by
  obtain ⟨now, after⟩ := List.forall_mem_append.mp movesVisible
  obtain ⟨kept, filled⟩ := kept_new width prompt rawInput history
  let s₀ : Session MemoryScreen := ⟨Editor.new prompt rawInput, .ofWidth width, history⟩
  have begun : Ensures (play moves) (fun _ s => s.Sound (max width 1) ∧ s₀.Lasting prompt s)
      Impossible s₀ := by
    simp only [play, ensures_bind]
    refine ((start_sound (tidy_new width prompt rawInput historyVisible)
      (MemoryScreen.fresh_ofWidth width) rfl rfl rfl).and (start_lasting kept rfl filled)).imp_ok ?_
    rintro _ s ⟨sound, lasting⟩
    exact (performAll_sound moves now sound).and (performAll_lasting moves now sound lasting)
  obtain ⟨_, s, played, sound, lasting⟩ := ensures_impossible_iff.mp begun
  have anew : s.Lasting prompt s := { lasting with extended := .refl s }
  obtain ⟨_, s', performed, sound', lasting'⟩ := ensures_impossible_iff.mp
    ((performAll_sound later after sound).and (performAll_lasting later after sound anew))
  refine ⟨s, s', played, performed, lasting'.extended, fun line there => ?_⟩
  obtain ⟨earlier, bears⟩ := lasting.borne line there
  exact ⟨earlier, bears, bears.of_extends lasting'.extended
    (sound'.tidy.width.trans sound.tidy.width.symm)⟩

/-- A line that wraps is entered. -/
def enteredOverRows : List Move :=
  [.key (.ofChar 'l'), .key (.ofChar 's'), .key (.ofChar ' '), .key (.ofChar 'x'),
    .key (.plain .enter)]

/-- Then its output is printed, the next line is begun, edited and given up, and another is held for
output. -/
def outputBehind : List Move :=
  [.take, .print "a\nb" .info, .newline, .resume, .key (.ofChar 'c'), .key (.plain .up),
    .key (.plain .backspace), .key .interrupt, .key (.ofChar 'd'), .pause, .print "e" .info,
    .newline, .resume]

theorem output_stays_behind : ∃ s s',
    play enteredOverRows ⟨Editor.new "> " false, .ofWidth 4, ⟨["pwd"], 1, 3⟩⟩ = .ok () s ∧
      s.editor.committed = ["ls x"] ∧ s.screen.lines = ["> ls", " x", ""] ∧
      performAll outputBehind s = .ok () s' ∧
      s'.screen.lines = ["> ls", " x", "a", "b", "> pw", "", "> d", "e", "> d"] ∧ s.Extends s' ∧
      ∃ earlier : MemoryScreen, s'.Bears (earlier.print "> " .prompt) "ls x" := by
  have ran : ∃ s, play enteredOverRows ⟨Editor.new "> " false, .ofWidth 4, ⟨["pwd"], 1, 3⟩⟩ =
        .ok () s ∧ s.editor.committed = ["ls x"] ∧ s.screen.lines = ["> ls", " x", ""] ∧
      ∃ s', performAll outputBehind s = .ok () s' ∧
        s'.screen.lines = ["> ls", " x", "a", "b", "> pw", "", "> d", "e", "> d"] := by
    decide +kernel
  have known : History.Visible ⟨["pwd"], 1, 3⟩ := by decide
  have unchanged : ∀ move ∈ enteredOverRows ++ outputBehind, move.Visible := by decide
  obtain ⟨s, played, entered, first, s', performed, last⟩ := ran
  obtain ⟨t, t', played', performed', extended, stays⟩ :=
    output_stays 4 "> " false ⟨["pwd"], 1, 3⟩ enteredOverRows outputBehind known unchanged
  cases played.symm.trans played'
  cases performed.symm.trans performed'
  obtain ⟨earlier, -, bears⟩ := stays "ls x" (by simp [entered])
  exact ⟨s, s', played, entered, first, performed, last, extended, earlier, bears⟩

end Session

end LineConsole
