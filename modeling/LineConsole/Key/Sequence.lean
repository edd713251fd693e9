import LineConsole.Key

/-! # Escape sequences

A terminal in raw mode sends control characters and escape sequences for the keys that write no
character. A decoder takes one event at a time. After the escape character it collects the arrows and
the delete key; what is no such sequence is dropped as soon as that is certain.
-/

namespace LineConsole

/-- Where a decoder stands. -/
inductive SequenceDecoder where
  | outside
  | begun
  /-- One character behind the escape. -/
  | one (c : Char)
  /-- Behind `[3`. -/
  | bracketThree
  deriving DecidableEq, Repr

inductive Decoded where
  | key (event : KeyEvent)
  | pending
  | unknown
  deriving DecidableEq, Repr

namespace SequenceDecoder

def inSequence (d : SequenceDecoder) : Bool := d ≠ .outside

/-- The key of a sequence of two characters behind the escape. -/
def arrow? : Char → Char → Option Key
  | '[', 'A' => some .up
  | '[', 'B' => some .down
  | '[', 'C' => some .right
  | '[', 'D' => some .left
  | _, _ => none

/-- An event with a character outside a sequence. -/
def decodePlain (event : KeyEvent) (c : Char) : Decoded × SequenceDecoder :=
  if c = '\x1b' then (.pending, .begun)
  else if c = '\x03' then (.key .interrupt, .outside)
  else if c = '\x7f' then (.key (.plain .backspace), .outside)
  else if c = '\x08' then (.key (.word .backspace), .outside)
  else if c = '\r' ∨ c = '\n' then (.key (.plain .enter), .outside)
  else if c = '\t' then (.key (.plain .tab), .outside)
  else if Text.isControl c then (.key (.plain .other), .outside)
  else (.key event, .outside)

/-- One event. An event without a character is decoded already, unless it begins a sequence. -/
def feed (d : SequenceDecoder) (event : KeyEvent) : Decoded × SequenceDecoder :=
  match event.ch with
  | none => if event.key = .escape then (.pending, .begun) else (.key event, d)
  | some c =>
    match d with
    | .outside => decodePlain event c
    | .begun => (.pending, .one c)
    | .one first =>
      if first = '[' ∧ c = '3' then (.pending, .bracketThree)
      else
        match arrow? first c with
        | some key => (.key (.plain key), .outside)
        | none => (.unknown, .outside)
    | .bracketThree => (if c = '~' then .key (.plain .delete) else .unknown, .outside)

end SequenceDecoder

end LineConsole
