/-! # UTF-8

A decoder takes one byte at a time and stands either between two characters or inside one, where it
knows how many bytes are still to come and in which range the next one lies. It refuses a byte at
once when no character continues with it.
-/

namespace LineConsole.Text

/-- Where a decoder stands inside a character. -/
structure Utf8Partial where
  /-- The bits read so far. -/
  value : Nat
  /-- How many bytes follow the next one. -/
  after : Nat
  /-- The range of the next byte. -/
  low : Nat
  high : Nat
  deriving DecidableEq, Repr

/-- What one byte leads to. -/
inductive Utf8Step where
  | char (c : Char)
  | inside (state : Utf8Partial)
  | invalid
  deriving DecidableEq, Repr

/-- The first byte of a character fixes its length and the range of the second. -/
def utf8First (byte : UInt8) : Utf8Step :=
  let b := byte.toNat
  if b < 0x80 then .char (Char.ofNat b)
  else if b < 0xc2 then .invalid
  else if b < 0xe0 then .inside ⟨b - 0xc0, 0, 0x80, 0xbf⟩
  else if b = 0xe0 then .inside ⟨0, 1, 0xa0, 0xbf⟩
  else if b = 0xed then .inside ⟨0xd, 1, 0x80, 0x9f⟩
  else if b < 0xf0 then .inside ⟨b - 0xe0, 1, 0x80, 0xbf⟩
  else if b = 0xf0 then .inside ⟨0, 2, 0x90, 0xbf⟩
  else if b < 0xf4 then .inside ⟨b - 0xf0, 2, 0x80, 0xbf⟩
  else if b = 0xf4 then .inside ⟨4, 2, 0x80, 0x8f⟩
  else .invalid

/-- A further byte adds six bits. -/
def Utf8Partial.next (state : Utf8Partial) (byte : UInt8) : Utf8Step :=
  let b := byte.toNat
  if state.low ≤ b ∧ b ≤ state.high then
    let value := state.value * 64 + (b - 0x80)
    match state.after with
    | 0 => .char (Char.ofNat value)
    | after + 1 => .inside ⟨value, after, 0x80, 0xbf⟩
  else .invalid

/-- One byte, from between two characters (`none`) or from inside one. -/
def utf8Step (state : Option Utf8Partial) (byte : UInt8) : Utf8Step :=
  match state with
  | none => utf8First byte
  | some state => state.next byte

/-- The characters of a byte sequence that starts at `state` and ends between two characters. -/
def utf8From (state : Option Utf8Partial) : List UInt8 → Option (List Char)
  | [] => if state.isNone then some [] else none
  | b :: rest =>
    match utf8Step state b with
    | .char c => (utf8From none rest).map (c :: ·)
    | .inside state => utf8From (some state) rest
    | .invalid => none

/-- The text that the bytes are the UTF-8 form of, if they are one. -/
def decodeUtf8 (bytes : List UInt8) : Option String := (utf8From none bytes).map String.ofList

def encodeUtf8 (s : String) : List UInt8 := s.toList.flatMap String.utf8EncodeChar

/-- Decodes a live stream: a byte that no character continues with yields one replacement
character, and what was pending is dropped together with it. -/
def replacingStep (state : Option Utf8Partial) (byte : UInt8) : Option Utf8Partial × List Char :=
  match utf8Step state byte with
  | .char c => (none, [c])
  | .inside state => (some state, [])
  | .invalid => (none, [Char.ofNat 0xfffd])

/-- The characters of a live stream from `state`, with the state it ends in. -/
def replacingFrom (state : Option Utf8Partial) : List UInt8 → Option Utf8Partial × List Char
  | [] => (state, [])
  | b :: rest =>
    let (next, out) := replacingStep state b
    let (last, more) := replacingFrom next rest
    (last, out ++ more)

end LineConsole.Text
