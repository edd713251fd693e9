import LineConsole.Proofs.Editor.Requests
import LineConsole.Proofs.Screen.Journal

/-! # Keys for a paused editor

A paused editor decodes the events that arrive and leaves the keys that they amount to for later: a key
goes to the back of the queue and nothing else of the editor changes. The screen is left alone with one
exception. An escape sequence that stands for no key is told of at once, by the bell.
-/

namespace LineConsole

/-- The event shows that the characters behind an escape stand for no key: the second is no arrow and
does not begin the delete key, or the third does not complete it. -/
def KeyEvent.EndsUnknown (event : KeyEvent) : Option SequenceDecoder → Prop
  | some (.one first) => ∃ c, event.ch = some c ∧ SequenceDecoder.arrow? first c = none ∧
      ¬ (first = '[' ∧ c = '3')
  | some .bracketThree => ∃ c, event.ch = some c ∧ c ≠ '~'
  | some .outside | some .begun | none => False

namespace SequenceDecoder

/-- Outside a sequence every character means something. -/
theorem decodePlain_ne_unknown (event : KeyEvent) (c : Char) :
    (decodePlain event c).1 ≠ .unknown := by
  fun_cases decodePlain event c <;> exact Decoded.noConfusion

theorem feed_eq_unknown_iff {event : KeyEvent} {decoder : SequenceDecoder} :
    (decoder.feed event).1 = .unknown ↔ event.EndsUnknown (some decoder) := by
  cases written : event.ch with
  | none =>
    have known : (decoder.feed event).1 ≠ .unknown := by
      simp only [feed, written]
      split <;> exact Decoded.noConfusion
    refine iff_of_false known ?_
    cases decoder <;> simp [KeyEvent.EndsUnknown, written]
  | some c =>
    cases decoder with
    | outside =>
      simp only [feed, written]
      exact iff_of_false (decodePlain_ne_unknown event c) id
    | begun =>
      simp only [feed, written]
      exact iff_of_false Decoded.noConfusion id
    | one first =>
      simp only [feed, written, KeyEvent.EndsUnknown, Option.some.injEq, exists_eq_left']
      split
      · rename_i delete
        exact iff_of_false Decoded.noConfusion fun unknown => unknown.2 delete
      · rename_i other
        cases arrow : arrow? first c with
        | some key => exact iff_of_false Decoded.noConfusion fun unknown => nomatch unknown.1
        | none => exact iff_of_true rfl ⟨rfl, other⟩
    | bracketThree =>
      simp only [feed, written, KeyEvent.EndsUnknown, Option.some.injEq, exists_eq_left']
      split
      · rename_i last
        exact iff_of_false Decoded.noConfusion fun other => other last
      · exact iff_of_true rfl ‹_›

end SequenceDecoder

namespace Session

open KeyEvent

variable {S : Type} [Screen S]

/-- The session with the key that an event amounts to, if any, at the back of the queue. -/
def queued (event : KeyEvent) (s : Session S) : Session S :=
  { s with editor :=
    { s.editor with
      queue := s.editor.queue ++ (event.decode s.editor.decoder).1.toList
      decoder := (event.decode s.editor.decoder).2 } }

omit [Screen S] in
/-- What amounts to no key changes the decoder alone. -/
theorem queued_of_none {event : KeyEvent} {decoder : Option SequenceDecoder} {s : Session S}
    (decoded : event.decode s.editor.decoder = (none, decoder)) :
    s.queued event = { s with editor := { s.editor with decoder } } := by
  rw [queued, decoded, Option.toList_none, List.append_nil]

/-- Rings the bell at once. -/
def ringBell : Action (Session S) Unit := do
  onScreen Screen.bell
  onScreen Screen.flush

theorem receive_of_paused {key : KeyEvent} {s : Session S} (paused : s.editor.paused = true) :
    receive key s = .ok () { s with editor := { s.editor with queue := s.editor.queue ++ [key] } } := by
  obtain ⟨⟨_, _, _, _, _, held, _, _, _⟩, _, _⟩ := s
  obtain rfl : held = true := paused
  rfl

/-- An event for a paused editor: it waits, or the bell is rung. -/
theorem handleKey_of_queueing (event : KeyEvent) {s : Session S} (paused : s.editor.paused = true) :
    handleKey event s = .ok () (s.queued event) ∧ ¬ event.EndsUnknown s.editor.decoder ∨
    handleKey event s = ringBell (s.queued event) ∧ event.EndsUnknown s.editor.decoder ∧
      (event.decode s.editor.decoder).1 = none := by
  have known {key : KeyEvent} {decoder : Option SequenceDecoder}
      (decoded : event.decode s.editor.decoder = (some key, decoder)) :
      handleKey event s = .ok () (s.queued event) := by
    rw [handleKey_of_key decoded, queued, decoded]
    exact receive_of_paused paused
  cases raw : s.editor.decoder with
  | none =>
    have decoded : event.decode s.editor.decoder = (some event, none) := by rw [raw]; rfl
    exact .inl ⟨known decoded, id⟩
  | some decoder =>
    rcases fed : decoder.feed event with ⟨decoded, next⟩
    have handled := handleKey_of_decoder raw fed
    rw [← SequenceDecoder.feed_eq_unknown_iff, fed]
    cases decoded with
    | key key =>
      have decoded : event.decode s.editor.decoder = (some key, some next) := by
        rw [raw, decode, fed]
      exact .inl ⟨known decoded, Decoded.noConfusion⟩
    | pending =>
      have decoded : event.decode s.editor.decoder = (none, some next) := by rw [raw, decode, fed]
      rw [queued_of_none decoded]
      exact .inl ⟨handled, Decoded.noConfusion⟩
    | unknown =>
      have decoded : event.decode s.editor.decoder = (none, some next) := by rw [raw, decode, fed]
      rw [queued_of_none decoded, ← raw, decoded]
      exact .inr ⟨handled, rfl, rfl⟩

/-- The bell rang, and then the screen was flushed unless the bell failed. -/
private def Rung (s after : Session (WatchedScreen S)) : Prop :=
  after.offScreen = s.offScreen ∧ ∃ calls, calls ≠ [] ∧ calls <+: [.bell, .flush] ∧
    after.screen.journal = s.screen.journal ++ calls.map .call

private theorem ringBell_rings (s : Session (WatchedScreen S)) :
    Ensures ringBell (fun _ => s.Rung) (fun _ => s.Rung) s := by
  simp only [ringBell, ensures_bind, ensures_onScreen]
  refine (WatchedScreen.pass_journal .bell _ s.screen).imp (fun _ rung journal => ?_)
    fun _ _ journal => ⟨rfl, [.bell], by decide, by decide, journal⟩
  have both (screen : WatchedScreen S) (behind : screen.journal = rung.journal ++ [.call .flush]) :
      s.Rung { s with screen } := by
    refine ⟨rfl, [.bell, .flush], by decide, by decide, ?_⟩
    rw [behind, journal, List.append_assoc]
    rfl
  exact (WatchedScreen.pass_journal .flush _ rung).imp (fun _ => both) fun _ => both

/-- An event for a paused editor, on any screen: the key that it amounts to, if any, goes to the back of
the queue, and apart from that and the decoder the editor and its history stay as they are. The screen is
not called and nothing fails, unless the event shows that an escape sequence stands for no key. Then
no key is queued, and the bell rings. -/
theorem paused_editor_queues {s : Session (WatchedScreen S)} (paused : s.editor.paused = true)
    (event : KeyEvent) :
    (leftBy (handleKey event) s).editor = { s.editor with
      queue := s.editor.queue ++ (event.decode s.editor.decoder).1.toList
      decoder := (event.decode s.editor.decoder).2 } ∧
    (leftBy (handleKey event) s).history = s.history ∧
    (¬ event.EndsUnknown s.editor.decoder →
      handleKey event s = .ok () (leftBy (handleKey event) s) ∧
        (leftBy (handleKey event) s).screen = s.screen) ∧
    (event.EndsUnknown s.editor.decoder → (event.decode s.editor.decoder).1 = none ∧
      ∃ calls, calls ≠ [] ∧ calls <+: [.bell, .flush] ∧
        (leftBy (handleKey event) s).screen.journal = s.screen.journal ++ calls.map .call) := by
  rcases handleKey_of_queueing event paused with ⟨handled, known⟩ | ⟨handled, unknown, none⟩
  · have left : leftBy (handleKey event) s = s.queued event := by rw [leftBy, handled]
    rw [left]
    exact ⟨rfl, rfl, fun _ => ⟨handled, rfl⟩, fun unknown => absurd unknown known⟩
  · have left : leftBy (handleKey event) s = leftBy ringBell (s.queued event) := by
      rw [leftBy, leftBy, handled]
    obtain ⟨same, calls⟩ := leftBy_of_ensures (ringBell_rings (s.queued event))
    obtain ⟨editor, history⟩ := Prod.mk.inj same
    rw [left]
    exact ⟨editor, history, fun known => absurd unknown known, fun _ => ⟨none, calls⟩⟩

/-- A paused editor for which the first two characters of a sequence have arrived. -/
def midSequence : Session (WatchedScreen MemoryScreen) :=
  leftBy (carryOutAll [.start, .pause, .key (.ofChar '\x1b'), .key (.ofChar '[')])
    ⟨Editor.new "> " true, .ofScreen (.ofWidth 40) 0, .ofCapacity 1⟩

theorem paused_editor_queues_arrow : midSequence.editor.paused = true ∧
    (leftBy (handleKey (.ofChar 'A')) midSequence).editor.queue = [.plain .up] ∧
    (leftBy (handleKey (.ofChar 'A')) midSequence).screen = midSequence.screen := by
  have paused : midSequence.editor.paused = true := by decide +kernel
  have decoder : midSequence.editor.decoder = some (.one '[') := by decide +kernel
  have empty : midSequence.editor.queue = [] := by decide +kernel
  obtain ⟨editor, -, quiet, -⟩ := paused_editor_queues paused (.ofChar 'A')
  have known : ¬ EndsUnknown (.ofChar 'A') midSequence.editor.decoder := by
    rw [decoder]
    rintro ⟨c, written, no, -⟩
    cases written
    cases no
  refine ⟨paused, ?_, (quiet known).2⟩
  rw [editor, empty, decoder]
  rfl

/-- Other characters do not complete the sequence, and the bell rings although the editor is paused. -/
theorem paused_editor_rings : midSequence.editor.paused = true ∧
    (leftBy (handleKey (.ofChar 'Z')) midSequence).screen.journal =
      midSequence.screen.journal ++ [.call .bell, .call .flush] := by
  decide +kernel

end Session

end LineConsole
