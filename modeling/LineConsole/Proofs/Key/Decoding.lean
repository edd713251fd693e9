import LineConsole.Key.Sequence

/-! # Decoding takes a stream apart

The characters of a stream fall into readings: single characters, and sequences that begin with the
escape character and end two or three characters behind it. A decoder waits until the last character
of a reading, says there which key it is, if it is one, and is outside a sequence again. Only the end
of the stream can cut a sequence short. The written form of a key is a reading of that key, so what
is decoded of a text that keys were written into are those keys.
-/

namespace LineConsole

namespace SequenceDecoder

/-- What characters come to that arrive one by one, and where the decoder then stands. -/
def feedAll (d : SequenceDecoder) : List Char → List Decoded × SequenceDecoder
  | [] => ([], d)
  | c :: cs =>
    let (decoded, next) := d.feed (.ofChar c)
    let (others, last) := next.feedAll cs
    (decoded :: others, last)

theorem feedAll_append (d : SequenceDecoder) (front back : List Char) :
    d.feedAll (front ++ back) =
      ((d.feedAll front).1 ++ ((d.feedAll front).2.feedAll back).1,
        ((d.feedAll front).2.feedAll back).2) := by
  induction front generalizing d with
  | nil => rfl
  | cons c cs ih => simp only [List.cons_append, feedAll, ih]

/-- Outside a sequence, any character but the escape is a key. -/
theorem decodePlain_eq_key (event : KeyEvent) {c : Char} (plain : c ≠ '\x1b') :
    ∃ key, decodePlain event c = (.key key, .outside) := by
  unfold decodePlain
  rw [if_neg plain]
  repeat' split
  all_goals exact ⟨_, rfl⟩

end SequenceDecoder

/-! ## Readings -/

/-- Characters that are decoded together. -/
inductive Reading where
  | single (c : Char) (plain : c ≠ '\x1b')
  /-- Two characters behind the escape that do not begin a longer sequence. -/
  | short (first second : Char) (ends : ¬ (first = '[' ∧ second = '3'))
  /-- One character behind `[3`. -/
  | long (third : Char)

namespace Reading

open SequenceDecoder

def chars : Reading → List Char
  | .single c _ => [c]
  | .short first second _ => ['\x1b', first, second]
  | .long third => ['\x1b', '[', '3', third]

/-- What a reading comes to. -/
def decoded : Reading → Decoded
  | .single c _ => (decodePlain (.ofChar c) c).1
  | .short first second _ =>
    match arrow? first second with
    | some key => .key (.plain key)
    | none => .unknown
  | .long third => if third = '~' then .key (.plain .delete) else .unknown

/-- What the characters of a reading come to one by one. -/
def results (r : Reading) : List Decoded :=
  List.replicate (r.chars.length - 1) .pending ++ [r.decoded]

/-- A reading is one key, or it is unknown. -/
theorem decoded_cases (r : Reading) : (∃ key, r.decoded = .key key) ∨ r.decoded = .unknown := by
  cases r with
  | single c plain =>
    obtain ⟨key, same⟩ := decodePlain_eq_key (.ofChar c) plain
    exact .inl ⟨key, congrArg Prod.fst same⟩
  | short first second ends =>
    simp only [decoded]
    cases arrow? first second with
    | some key => exact .inl ⟨.plain key, rfl⟩
    | none => exact .inr rfl
  | long third =>
    simp only [decoded]
    split
    · exact .inl ⟨_, rfl⟩
    · exact .inr rfl

/-- A sequence ends at most three characters behind its escape. -/
theorem chars_cases (r : Reading) : (∃ c, c ≠ '\x1b' ∧ r.chars = [c]) ∨
    ∃ tail, r.chars = '\x1b' :: tail ∧ tail.length ≤ 3 := by
  cases r with
  | single c plain => exact .inl ⟨c, plain, rfl⟩
  | short first second ends => exact .inr ⟨[first, second], rfl, Nat.le_succ 2⟩
  | long third => exact .inr ⟨['[', '3', third], rfl, Nat.le_refl 3⟩

/-- A decoder outside a sequence waits for the last character of a reading and is then outside one
again. -/
theorem feedAll_chars (r : Reading) : feedAll .outside r.chars = (r.results, .outside) := by
  cases r with
  | single c plain =>
    obtain ⟨key, same⟩ := decodePlain_eq_key (.ofChar c) plain
    have fed : SequenceDecoder.feed .outside (.ofChar c) = (.key key, .outside) := same
    simp only [chars, feedAll, fed, results, decoded, same]
    rfl
  | short first second ends =>
    have fed : SequenceDecoder.feed (.one first) (.ofChar second) =
        ((Reading.short first second ends).decoded, .outside) := by
      simp only [feed, KeyEvent.ofChar, if_neg ends, decoded]
      cases arrow? first second <;> rfl
    change (Decoded.pending :: .pending :: [(SequenceDecoder.feed (.one first) (.ofChar second)).1],
      (SequenceDecoder.feed (.one first) (.ofChar second)).2) = _
    rw [fed]
    rfl
  | long third => rfl

/-- What is waited for does not count. -/
theorem filter_results (readings : List Reading) :
    (readings.flatMap results).filter (· ≠ .pending) = readings.map decoded := by
  induction readings with
  | nil => rfl
  | cons r rest ih =>
    have counts : r.decoded ≠ .pending := by
      rcases r.decoded_cases with ⟨key, same⟩ | same <;> simp [same]
    rw [List.flatMap_cons, List.filter_append, ih, results, List.filter_append, List.map_cons]
    simp [counts]

theorem feedAll_flatMap (readings : List Reading) :
    feedAll .outside (readings.flatMap chars) = (readings.flatMap results, .outside) := by
  induction readings with
  | nil => rfl
  | cons r rest ih =>
    simp only [List.flatMap_cons, feedAll_append, feedAll_chars, ih]

/-- Behind each other, readings can be told apart. -/
theorem chars_append_inj {r r' : Reading} {cs cs' : List Char}
    (same : r.chars ++ cs = r'.chars ++ cs') : r = r' ∧ cs = cs' := by
  cases r <;> cases r' <;> simp only [chars, List.cons_append, List.nil_append, List.cons.injEq] at same <;>
    grind

end Reading

/-- Too few characters for a sequence that has begun, or none. -/
inductive Unfinished : List Char → Prop where
  | none : Unfinished []
  | escape : Unfinished ['\x1b']
  | one (first : Char) : Unfinished ['\x1b', first]
  | bracketThree : Unfinished ['\x1b', '[', '3']

namespace Unfinished

open SequenceDecoder

variable {rest : List Char}

theorem ne_chars_append (unfinished : Unfinished rest) (r : Reading) (cs : List Char) :
    rest ≠ r.chars ++ cs := by
  intro same
  cases unfinished <;> cases r <;>
    simp only [Reading.chars, List.cons_append, List.nil_append, List.cons.injEq] at same <;> grind

/-- The decoder waits for what is missing. -/
theorem feedAll_eq (unfinished : Unfinished rest) :
    ∃ d, feedAll .outside rest = (List.replicate rest.length .pending, d) ∧
      (d.inSequence = true ↔ rest ≠ []) := by
  cases unfinished with
  | none => exact ⟨_, rfl, by decide⟩
  | escape => exact ⟨_, rfl, by decide⟩
  | one first => exact ⟨.one first, rfl, by simp [inSequence]⟩
  | bracketThree => exact ⟨_, rfl, by decide⟩

end Unfinished

/-- The text is these readings, one behind the other, and then the beginning of a sequence or
nothing. -/
structure FallsInto (cs : List Char) (readings : List Reading) (rest : List Char) : Prop where
  joined : cs = readings.flatMap Reading.chars ++ rest
  unfinished : Unfinished rest

namespace FallsInto

variable {cs rest : List Char} {readings : List Reading}

theorem cons (falls : FallsInto cs readings rest) (r : Reading) :
    FallsInto (r.chars ++ cs) (r :: readings) rest :=
  ⟨by rw [List.flatMap_cons, List.append_assoc, ← falls.joined], falls.unfinished⟩

theorem of_unfinished (unfinished : Unfinished cs) : FallsInto cs [] cs := ⟨rfl, unfinished⟩

/-- By induction on the length: the first reading ends where its characters say. -/
theorem exists_readings (cs : List Char) : ∃ readings rest, FallsInto cs readings rest := by
  match cs with
  | [] => exact ⟨_, _, of_unfinished .none⟩
  | c :: cs =>
    by_cases begins : c = '\x1b'
    · subst begins
      match cs with
      | [] => exact ⟨_, _, of_unfinished .escape⟩
      | [first] => exact ⟨_, _, of_unfinished (.one first)⟩
      | first :: second :: cs =>
        by_cases goesOn : first = '[' ∧ second = '3'
        · obtain ⟨rfl, rfl⟩ := goesOn
          match cs with
          | [] => exact ⟨_, _, of_unfinished .bracketThree⟩
          | third :: cs =>
            obtain ⟨readings, rest, falls⟩ := exists_readings cs
            exact ⟨_, _, falls.cons (.long third)⟩
        · obtain ⟨readings, rest, falls⟩ := exists_readings cs
          exact ⟨_, _, falls.cons (.short first second goesOn)⟩
    · obtain ⟨readings, rest, falls⟩ := exists_readings cs
      exact ⟨_, _, falls.cons (.single c begins)⟩
termination_by cs.length

/-- A text falls into readings in one way only. -/
theorem unique {readings' : List Reading} {rest' : List Char} (falls : FallsInto cs readings rest)
    (falls' : FallsInto cs readings' rest') : readings' = readings ∧ rest' = rest := by
  have same := falls.joined.symm.trans falls'.joined
  have unfinished := falls.unfinished
  have unfinished' := falls'.unfinished
  clear falls falls'
  induction readings generalizing readings' with
  | nil =>
    cases readings' with
    | nil => exact ⟨rfl, same.symm⟩
    | cons r' readings' =>
      rw [List.flatMap_cons, List.append_assoc] at same
      exact absurd same (unfinished.ne_chars_append r' _)
  | cons r readings ih =>
    rw [List.flatMap_cons, List.append_assoc] at same
    cases readings' with
    | nil => exact absurd same.symm (unfinished'.ne_chars_append r _)
    | cons r' readings' =>
      rw [List.flatMap_cons, List.append_assoc] at same
      obtain ⟨rfl, behind⟩ := Reading.chars_append_inj same
      obtain ⟨rfl, rfl⟩ := ih behind
      exact ⟨rfl, rfl⟩

end FallsInto

/-! ## Written keys -/

/-- The keys that a terminal in raw mode writes into its stream. -/
inductive TerminalKey where
  | char (c : Char) (visible : Text.isControl c = false)
  | enter | tab | backspace | wordBackspace | interrupt | up | down | left | right | delete

namespace TerminalKey

open SequenceDecoder

def event : TerminalKey → KeyEvent
  | .char c _ => .ofChar c
  | .enter => .plain .enter
  | .tab => .plain .tab
  | .backspace => .plain .backspace
  | .wordBackspace => .word .backspace
  | .interrupt => .interrupt
  | .up => .plain .up
  | .down => .plain .down
  | .left => .plain .left
  | .right => .plain .right
  | .delete => .plain .delete

def written : TerminalKey → List Char
  | .char c _ => [c]
  | .enter => ['\r']
  | .tab => ['\t']
  | .backspace => ['\x7f']
  | .wordBackspace => ['\x08']
  | .interrupt => ['\x03']
  | .up => ['\x1b', '[', 'A']
  | .down => ['\x1b', '[', 'B']
  | .left => ['\x1b', '[', 'D']
  | .right => ['\x1b', '[', 'C']
  | .delete => ['\x1b', '[', '3', '~']

private theorem decodePlain_of_visible {event : KeyEvent} {c : Char}
    (visible : Text.isControl c = false) : decodePlain event c = (.key event, .outside) := by
  have other {d : Char} (control : Text.isControl d = true) : c ≠ d := by
    rintro rfl
    exact Bool.false_ne_true (visible.symm.trans control)
  unfold decodePlain
  rw [if_neg (other (by decide)), if_neg (other (by decide)), if_neg (other (by decide)),
    if_neg (other (by decide)), if_neg (not_or.mpr ⟨other (by decide), other (by decide)⟩),
    if_neg (other (by decide)), if_neg (Bool.eq_false_iff.mp visible)]

/-- The written form of a key is a reading of it. -/
theorem exists_reading (key : TerminalKey) :
    ∃ r : Reading, r.chars = key.written ∧ r.decoded = .key key.event := by
  cases key with
  | char c visible =>
    have plain : c ≠ '\x1b' := by
      rintro rfl
      cases visible
    exact ⟨.single c plain, rfl, congrArg Prod.fst (decodePlain_of_visible visible)⟩
  | enter => exact ⟨.single '\r' (by decide), rfl, rfl⟩
  | tab => exact ⟨.single '\t' (by decide), rfl, rfl⟩
  | backspace => exact ⟨.single '\x7f' (by decide), rfl, rfl⟩
  | wordBackspace => exact ⟨.single '\x08' (by decide), rfl, rfl⟩
  | interrupt => exact ⟨.single '\x03' (by decide), rfl, rfl⟩
  | up => exact ⟨.short '[' 'A' (by decide), rfl, rfl⟩
  | down => exact ⟨.short '[' 'B' (by decide), rfl, rfl⟩
  | left => exact ⟨.short '[' 'D' (by decide), rfl, rfl⟩
  | right => exact ⟨.short '[' 'C' (by decide), rfl, rfl⟩
  | delete => exact ⟨.long '~', rfl, rfl⟩

theorem exists_readings (keys : List TerminalKey) :
    ∃ readings : List Reading, readings.flatMap Reading.chars = keys.flatMap written ∧
      readings.map Reading.decoded = keys.map (.key ·.event) := by
  induction keys with
  | nil => exact ⟨[], rfl, rfl⟩
  | cons key keys ih =>
    obtain ⟨r, chars, decoded⟩ := key.exists_reading
    obtain ⟨readings, joined, results⟩ := ih
    refine ⟨r :: readings, ?_, ?_⟩
    · rw [List.flatMap_cons, List.flatMap_cons, chars, joined]
    · rw [List.map_cons, List.map_cons, decoded, results]

end TerminalKey

namespace SequenceDecoder

/-- What is decoded of a text that keys were written into are those keys, in their order, and the
decoder ends outside a sequence. Any text whatever falls in one way into readings and what may be the
beginning of a sequence: each reading is one key or unknown, which is said at its last character, and
has no more than three characters behind an escape; behind each of them the decoder is outside a
sequence, and at the end of the text it is inside one only if the last has just begun. -/
theorem decoding_inverts_writing :
    (∀ keys : List TerminalKey,
      ((feedAll .outside (keys.flatMap TerminalKey.written)).1.filter (· ≠ .pending) =
          keys.map (.key ·.event)) ∧
        (feedAll .outside (keys.flatMap TerminalKey.written)).2 = .outside) ∧
    ∀ cs : List Char, ∃ readings rest, FallsInto cs readings rest ∧
      (∀ readings' rest', FallsInto cs readings' rest' → readings' = readings ∧ rest' = rest) ∧
      (∀ r ∈ readings, ((∃ key, r.decoded = .key key) ∨ r.decoded = .unknown) ∧
        ((∃ c, c ≠ '\x1b' ∧ r.chars = [c]) ∨
          ∃ tail, r.chars = '\x1b' :: tail ∧ tail.length ≤ 3)) ∧
      (∀ count, feedAll .outside ((readings.take count).flatMap Reading.chars) =
        ((readings.take count).flatMap Reading.results, .outside)) ∧
      (feedAll .outside cs).1 =
        readings.flatMap Reading.results ++ List.replicate rest.length .pending ∧
      ((feedAll .outside cs).2.inSequence = true ↔ rest ≠ []) := by
  refine ⟨fun keys => ?_, fun cs => ?_⟩
  · obtain ⟨readings, joined, decoded⟩ := TerminalKey.exists_readings keys
    rw [← joined, Reading.feedAll_flatMap]
    exact ⟨(Reading.filter_results readings).trans decoded, rfl⟩
  · obtain ⟨readings, rest, falls⟩ := FallsInto.exists_readings cs
    obtain ⟨d, waits, inside⟩ := falls.unfinished.feedAll_eq
    have fed : feedAll .outside cs =
        (readings.flatMap Reading.results ++ List.replicate rest.length .pending, d) := by
      rw [falls.joined, feedAll_append, Reading.feedAll_flatMap, waits]
    refine ⟨readings, rest, falls, fun _ _ => falls.unique, fun r _ => ?_, fun count => ?_, ?_, ?_⟩
    · exact ⟨r.decoded_cases, r.chars_cases⟩
    · exact Reading.feedAll_flatMap _
    · rw [fed]
    · rw [fed]
      exact inside

/-- A sequence that is no key, a character, and the beginning of the delete key. -/
example : feedAll .outside ['\x1b', '\x1b', '[', 'x', '\x1b', '[', '3'] =
    ([.pending, .pending, .unknown, .key (.ofChar 'x'), .pending, .pending, .pending],
      .bracketThree) := rfl

end SequenceDecoder

end LineConsole
