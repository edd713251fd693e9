import LineConsole.Proofs.Editor.Pausing

/-! # No key is lost in the queue

The keys that wait in the queue of an editor amount to lines that it will enter and to a draft that
they will leave. Pausing, resuming and replaying change none of that: they only move keys from the
queue into the draft and lines out of it. A key that arrives counts behind all that waits, whether it
is queued or applied.
-/

namespace LineConsole

namespace KeyEvent

/-- The key that an event amounts to, if it is not part of a longer sequence, and the decoder behind
it. Without a decoder every event is a key. -/
def decode (event : KeyEvent) : Option SequenceDecoder → Option KeyEvent × Option SequenceDecoder
  | none => (some event, none)
  | some decoder =>
    match decoder.feed event with
    | (.key key, next) => (some key, some next)
    | (.pending, next) | (.unknown, next) => (none, some next)

/-- The keys that a stream of events amounts to. -/
def decodeAll (decoder : Option SequenceDecoder) : List KeyEvent → List KeyEvent
  | [] => []
  | event :: rest => (event.decode decoder).1.toList ++ decodeAll (event.decode decoder).2 rest

/-- The decoder behind a stream of events. -/
def decoderAfter (decoder : Option SequenceDecoder) (events : List KeyEvent) :
    Option SequenceDecoder :=
  events.foldl (fun decoder event => (event.decode decoder).2) decoder

theorem decodeAll_append (decoder : Option SequenceDecoder) (before behind : List KeyEvent) :
    decodeAll decoder (before ++ behind) =
      decodeAll decoder before ++ decodeAll (decoderAfter decoder before) behind := by
  induction before generalizing decoder with
  | nil => rfl
  | cons event rest ih =>
    rw [List.cons_append, decodeAll, decodeAll, ih, List.append_assoc]
    rfl

theorem decodeAll_singleton (decoder : Option SequenceDecoder) (event : KeyEvent) :
    decodeAll decoder [event] = (event.decode decoder).1.toList :=
  List.append_nil _

end KeyEvent

namespace Session

open KeyEvent

variable {S : Type}

/-- The lines that wait and those that the queued keys will enter, oldest first. -/
def lines (s : Session S) : List String := s.editor.committed ++ s.draft.entered s.editor.queue

/-- The draft that the queued keys will leave. -/
def ahead (s : Session S) : Draft := s.draft.after s.editor.queue

/-- The keys to come: those in the queue, and those that the events amount to. -/
def toCome (s : Session S) (events : List KeyEvent) : List KeyEvent :=
  s.editor.queue ++ decodeAll s.editor.decoder events

/-- The lines to come: those that wait, and those that the keys to come will enter. -/
def owed (s : Session S) (events : List KeyEvent) : List String :=
  s.editor.committed ++ s.draft.entered (s.toCome events)

theorem owed_eq (s : Session S) (events : List KeyEvent) :
    s.owed events = s.lines ++ s.ahead.entered (decodeAll s.editor.decoder events) := by
  rw [owed, toCome, Draft.entered_append, ← List.append_assoc]
  rfl

/-- From one session to the other these events were taken in, behind all that was there. -/
structure TakesIn (events : List KeyEvent) (s s' : Session S) : Prop where
  lines : s'.lines = s.lines ++ s.ahead.entered (decodeAll s.editor.decoder events)
  ahead : s'.ahead = s.ahead.after (decodeAll s.editor.decoder events)
  decoder : s'.editor.decoder = decoderAfter s.editor.decoder events
  queue : s'.editor.queue ⊆ s.toCome events

/-- No event was taken in, and all that was there still counts. -/
abbrev GoesOn (s s' : Session S) : Prop := TakesIn [] s s'

/-- Events that amount to no key change nothing but the decoder. -/
private theorem takesIn_of_eq {events : List KeyEvent} {s s' : Session S}
    (nothing : decodeAll s.editor.decoder events = []) (draft : s'.draft = s.draft)
    (committed : s'.editor.committed = s.editor.committed)
    (queue : s'.editor.queue = s.editor.queue)
    (decoder : s'.editor.decoder = decoderAfter s.editor.decoder events) : s.TakesIn events s' := by
  refine ⟨?_, ?_, decoder, ?_⟩
  · rw [nothing, lines, draft, committed, queue]
    exact (List.append_nil _).symm
  · rw [nothing, ahead, draft, queue]
    rfl
  · rw [queue]
    exact List.subset_append_left _ _

theorem goesOn_of_eq {s s' : Session S} (draft : s'.draft = s.draft)
    (committed : s'.editor.committed = s.editor.committed)
    (queue : s'.editor.queue = s.editor.queue) (decoder : s'.editor.decoder = s.editor.decoder) :
    s.GoesOn s' :=
  takesIn_of_eq rfl draft committed queue decoder

section Coming

variable {events : List KeyEvent} {s s' : Session S}

theorem TakesIn.toCome_subset (takesIn : s.TakesIn events s') (later : List KeyEvent) :
    s'.toCome later ⊆ s.toCome (events ++ later) := by
  rw [toCome, toCome, decodeAll_append, ← takesIn.decoder, ← List.append_assoc]
  intro key there
  rcases List.mem_append.mp there with waits | arrives
  · exact List.mem_append_left _ (takesIn.queue waits)
  · exact List.mem_append_right _ arrives

theorem TakesIn.trans {before behind : List KeyEvent} {s'' : Session S}
    (first : s.TakesIn before s') (second : s'.TakesIn behind s'') :
    s.TakesIn (before ++ behind) s'' := by
  have decoded := decodeAll_append s.editor.decoder before behind
  rw [← first.decoder] at decoded
  refine ⟨?_, ?_, ?_, ?_⟩
  · rw [second.lines, first.lines, first.ahead, decoded, Draft.entered_append, List.append_assoc]
  · rw [second.ahead, first.ahead, decoded, Draft.after_append]
  · rw [second.decoder, first.decoder]
    exact List.foldl_append.symm
  · exact List.Subset.trans second.queue (first.toCome_subset behind)

/-- Taking events in changes nothing about the lines to come. -/
theorem TakesIn.owed_eq (takesIn : s.TakesIn events s') (later : List KeyEvent) :
    s'.owed later = s.owed (events ++ later) := by
  rw [Session.owed_eq, Session.owed_eq, decodeAll_append, ← takesIn.decoder, takesIn.lines,
    takesIn.ahead, Draft.entered_append, List.append_assoc]

/-- Where no key waits before and none behind, the events have done all that they amount to. -/
theorem TakesIn.done (takesIn : s.TakesIn events s') (before : s.editor.queue = [])
    (behind : s'.editor.queue = []) :
    s'.editor.committed =
      s.editor.committed ++ s.draft.entered (decodeAll s.editor.decoder events) ∧
    s'.draft = s.draft.after (decodeAll s.editor.decoder events) := by
  obtain ⟨lines, ahead, -, -⟩ := takesIn
  simp only [Session.lines, Session.ahead, before, behind, Draft.entered, Draft.after,
    List.append_nil, List.foldl_nil] at lines ahead
  exact ⟨lines, ahead⟩

/-- Keys that do not walk leave the history where it is. -/
theorem TakesIn.history_eq (takesIn : s.TakesIn events s')
    (straight : ∀ key ∈ s.toCome events, ¬ key.Walks) : s'.history = s.history := by
  have arriving : ∀ key ∈ decodeAll s.editor.decoder events, ¬ key.Walks :=
    fun key there => straight key (List.mem_append_right _ there)
  have waiting : ∀ key ∈ s.editor.queue, ¬ key.Walks :=
    fun key there => straight key (List.mem_append_left _ there)
  have left : ∀ key ∈ s'.editor.queue, ¬ key.Walks :=
    fun key there => straight key (takesIn.queue there)
  calc s'.history = s'.ahead.history := (Draft.history_after s'.draft left).symm
    _ = (s.ahead.after (decodeAll s.editor.decoder events)).history := by rw [takesIn.ahead]
    _ = s.ahead.history := Draft.history_after _ arriving
    _ = s.history := Draft.history_after s.draft waiting

end Coming

/-- A key that was waiting in front of the queue is applied. -/
private theorem goesOn_of_pressed {event : KeyEvent} {rest : List KeyEvent} {s s' : Session S}
    (queued : s.editor.queue = event :: rest)
    (pressed : Pressed event { s with editor := { s.editor with queue := rest } } s') :
    s.GoesOn s' := by
  obtain ⟨draft, committed, queue, decoder, -, -, -⟩ := pressed
  refine ⟨?_, ?_, decoder, ?_⟩
  · have same : s'.lines = s.lines := by
      rw [lines, lines, draft, committed, queue, queued, List.append_assoc]
      rfl
    rw [same]
    exact (List.append_nil _).symm
  · rw [ahead, ahead, draft, queue, queued]
    rfl
  · rw [queue, toCome, queued]
    exact fun key there => List.mem_append_left _ (List.mem_cons_of_mem _ there)

/-- A key that arrives while the queue is empty is applied. -/
private theorem lines_of_pressed {event : KeyEvent} {s s' : Session S}
    (empty : s.editor.queue = []) (pressed : s.Pressed event s') :
    s'.lines = s.lines ++ s.ahead.entered [event] ∧ s'.ahead = s.ahead.after [event] := by
  obtain ⟨draft, committed, queue, -, -, -, -⟩ := pressed
  rw [lines, lines, ahead, ahead, draft, committed, queue, empty]
  refine ⟨?_, rfl⟩
  simp [Draft.entered, Draft.after]

variable [Screen S]

theorem start_goesOn {s : Session S} : Ensures start (fun _ => s.GoesOn) Whatever s := by
  simp only [start, ensures_bind]
  apply showPrompt_ensures
  intro _ _
  exact ensures_of_offScreen (onScreen_keeps _) fun _ _ => goesOn_of_eq rfl rfl rfl rfl

theorem pause_goesOn {s : Session S} : Ensures pause (fun _ => s.GoesOn) Whatever s := by
  simp only [pause, edit, ensures_bind, ensures_get, ensures_ite, ensures_modify]
  split
  · exact goesOn_of_eq rfl rfl rfl rfl
  · split
    · apply ensures_of_offScreen leaveLine_keeps
      intro _ _
      exact ensures_of_offScreen (onScreen_keeps _) fun _ _ => goesOn_of_eq rfl rfl rfl rfl
    · exact ensures_of_offScreen (onScreen_keeps _) fun _ _ => goesOn_of_eq rfl rfl rfl rfl

/-- By induction on the queue: each key that is replayed goes from the queue into the draft. -/
theorem replay_goesOn (queue : List KeyEvent) {s : Session S} (queued : s.editor.queue = queue) :
    Ensures (replay queue) (fun _ => s.GoesOn) Whatever s := by
  induction queue generalizing s with
  | nil => exact goesOn_of_eq rfl rfl rfl rfl
  | cons event rest ih =>
    simp only [replay, edit, ensures_bind, ensures_get, ensures_ite, ensures_modify]
    split
    · exact goesOn_of_eq rfl rfl rfl rfl
    · apply (apply_presses event).imp_ok
      intro _ s' pressed
      exact (ih pressed.queue).imp_ok fun _ s'' => (goesOn_of_pressed queued pressed).trans

theorem resume_goesOn {s : Session S} : Ensures resume (fun _ => s.GoesOn) Whatever s := by
  cases paused : s.editor.paused with
  | false =>
    exact (ensures_resume_of_going paused).mpr (goesOn_of_eq rfl rfl rfl rfl)
  | true =>
    apply ensures_resume paused
    intro _ _
    refine Ensures.imp_ok (replay_goesOn s.editor.queue rfl) fun _ _ goesOn _ => ?_
    exact ⟨goesOn.lines, goesOn.ahead, goesOn.decoder, goesOn.queue⟩

/-- A key counts behind all that waits: it is queued, or nothing is in the queue. -/
private theorem receive_takesIn (key : KeyEvent) {s : Session S}
    (direct : s.editor.paused = false → s.editor.queue = []) :
    Ensures (receive key) (fun _ s' => s'.lines = s.lines ++ s.ahead.entered [key] ∧
      s'.ahead = s.ahead.after [key] ∧ s'.editor.decoder = s.editor.decoder ∧
      s'.editor.queue ⊆ s.editor.queue ++ [key]) Whatever s := by
  simp only [receive, edit, ensures_bind, ensures_get, ensures_ite, ensures_modify]
  split
  · refine ⟨?_, ?_, trivial, List.Subset.refl _⟩
    · rw [lines, lines, List.append_assoc]
      exact congrArg _ (Draft.entered_append _ _ _)
    · exact Draft.after_append _ _ _
  · rename_i going
    have empty := direct (Bool.eq_false_iff.mpr going)
    apply (apply_presses key).imp_ok
    intro _ s' pressed
    obtain ⟨lines, ahead⟩ := lines_of_pressed empty pressed
    apply ensures_of_offScreen (onScreen_keeps _)
    intro _ _
    refine ⟨lines, ahead, pressed.decoder, ?_⟩
    exact pressed.queue ▸ List.subset_append_left _ _

omit [Screen S] in
private theorem takesIn_of_key {event key : KeyEvent} {next : Option SequenceDecoder}
    {s s' : Session S} (decoded : event.decode s.editor.decoder = (some key, next))
    (lines : s'.lines = s.lines ++ s.ahead.entered [key]) (ahead : s'.ahead = s.ahead.after [key])
    (decoder : s'.editor.decoder = next) (queue : s'.editor.queue ⊆ s.editor.queue ++ [key]) :
    s.TakesIn [event] s' := by
  have keys : decodeAll s.editor.decoder [event] = [key] := by
    rw [decodeAll_singleton, decoded]
    rfl
  rw [← keys] at lines ahead queue
  refine ⟨lines, ahead, ?_, queue⟩
  rw [decoder, decoderAfter, List.foldl_cons, List.foldl_nil, decoded]

omit [Screen S] in
private theorem takesIn_of_none {event : KeyEvent} {next : Option SequenceDecoder}
    {s s' : Session S} (decoded : event.decode s.editor.decoder = (none, next))
    (draft : s'.draft = s.draft) (committed : s'.editor.committed = s.editor.committed)
    (queue : s'.editor.queue = s.editor.queue) (decoder : s'.editor.decoder = next) :
    s.TakesIn [event] s' := by
  have nothing : decodeAll s.editor.decoder [event] = [] := by
    rw [decodeAll_singleton, decoded]
    rfl
  refine takesIn_of_eq nothing draft committed queue ?_
  rw [decoder, decoderAfter, List.foldl_cons, List.foldl_nil, decoded]

/-- A decoder is fed first; what it makes of the event says how that goes on. -/
theorem handleKey_of_decoder {event : KeyEvent} {decoder next : SequenceDecoder}
    {decoded : Decoded} {s : Session S} (raw : s.editor.decoder = some decoder)
    (fed : decoder.feed event = (decoded, next)) :
    handleKey event s = (match decoded with
      | .key event => receive event
      | .pending => pure ()
      | .unknown => onScreen Screen.bell >>= fun _ => onScreen Screen.flush)
        { s with editor := { s.editor with decoder := some next } } := by
  obtain rfl : (decoder.feed event).1 = decoded := congrArg Prod.fst fed
  obtain rfl : (decoder.feed event).2 = next := congrArg Prod.snd fed
  obtain ⟨⟨_, _, _, _, _, _, _, _, known⟩, _, _⟩ := s
  obtain rfl : known = some decoder := raw
  rfl

/-- An event that completes a key has that key received. -/
theorem handleKey_of_key {event key : KeyEvent} {decoder : Option SequenceDecoder} {s : Session S}
    (decoded : event.decode s.editor.decoder = (some key, decoder)) :
    handleKey event s = receive key { s with editor := { s.editor with decoder } } := by
  cases raw : s.editor.decoder with
  | none =>
    rw [raw] at decoded
    cases decoded
    obtain ⟨⟨_, _, _, _, _, _, _, _, known⟩, _, _⟩ := s
    obtain rfl : known = none := raw
    rfl
  | some known =>
    rw [raw, decode] at decoded
    split at decoded
    all_goals cases decoded
    exact handleKey_of_decoder raw ‹_›

/-- An event that completes no key changes the decoder; if it ends no known sequence, bells ring. -/
theorem handleKey_of_none {event : KeyEvent} {decoder : Option SequenceDecoder} {s : Session S}
    (decoded : event.decode s.editor.decoder = (none, decoder)) :
    handleKey event s = .ok () { s with editor := { s.editor with decoder } } ∨
    handleKey event s = (onScreen Screen.bell >>= fun _ => onScreen Screen.flush)
      { s with editor := { s.editor with decoder } } := by
  cases raw : s.editor.decoder with
  | none =>
    rw [raw] at decoded
    cases decoded
  | some known =>
    rw [raw, decode] at decoded
    split at decoded
    all_goals cases decoded
    · exact .inl (handleKey_of_decoder raw ‹_›)
    · exact .inr (handleKey_of_decoder raw ‹_›)

theorem handleKey_takesIn (event : KeyEvent) {s : Session S}
    (direct : s.editor.paused = false → s.editor.queue = []) :
    Ensures (handleKey event) (fun _ => s.TakesIn [event]) Whatever s := by
  rcases decoded : event.decode s.editor.decoder with ⟨_ | key, next⟩
  · have unchanged : ∀ screen,
        s.TakesIn [event] ⟨{ s.editor with decoder := next }, screen, s.history⟩ :=
      fun _ => takesIn_of_none decoded rfl rfl rfl rfl
    rcases handleKey_of_none decoded with silent | rings
    · rw [ensures_of_eq_ok silent]
      exact unchanged _
    · rw [ensures_congr rings, ensures_bind]
      apply ensures_of_offScreen (onScreen_keeps _)
      intro _ _
      exact ensures_of_offScreen (onScreen_keeps _) fun _ _ => unchanged _
  · rw [ensures_congr (handleKey_of_key decoded)]
    refine Ensures.imp_ok (receive_takesIn key direct) fun _ s' holds => ?_
    obtain ⟨lines, ahead, decoder, queue⟩ := holds
    exact takesIn_of_key decoded lines ahead decoder queue

end Session

end LineConsole
