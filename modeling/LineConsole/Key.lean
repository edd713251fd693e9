import LineConsole.Text.Blank

/-! # Key events

A key event is a key with the modifiers held down and, for most keys that write something, the
character.
-/

namespace LineConsole

structure Modifiers where
  control : Bool := false
  shift : Bool := false
  alt : Bool := false
  deriving DecidableEq, Repr

inductive Key where
  /-- A key that writes the event's character. -/
  | char
  | enter | backspace | delete | left | right | up | down | home | endOfLine | tab | escape | other
  deriving DecidableEq, Repr

structure KeyEvent where
  ch : Option Char
  key : Key
  modifiers : Modifiers
  deriving DecidableEq, Repr

namespace KeyEvent

def new (key : Key) (modifiers : Modifiers) : KeyEvent := ⟨none, key, modifiers⟩

/-- A key without modifiers. -/
def plain (key : Key) : KeyEvent := new key {}

def ofChar (c : Char) : KeyEvent := ⟨some c, .char, {}⟩

/-- A key that acts on words. -/
def word (key : Key) : KeyEvent := new key { control := true }

/-- Control and C. -/
def interrupt : KeyEvent := ⟨some 'c', .char, { control := true }⟩

def isInterrupt (e : KeyEvent) : Bool :=
  e.key = .char && e.modifiers.control && (e.ch = some 'c' || e.ch = some 'C')

/-- Whether the key acts on words: control or alt is held. -/
def isWord (e : KeyEvent) : Bool := e.modifiers.control || e.modifiers.alt

/-- The character that the event writes into a text, if it does. -/
def written? (e : KeyEvent) : Option Char :=
  if e.modifiers.control then none else e.ch.filter (!Text.isControl ·)

/-- No key writes a line feed. -/
theorem written_ne_newline (e : KeyEvent) {c : Char} (written : e.written? = some c) : c ≠ '\n' := by
  rintro rfl
  unfold written? at written
  split at written
  · cases written
  · exact absurd (Option.filter_eq_some_iff.mp written).2 (by decide)

/-- Typed text: every line feed is the enter key. -/
def ofText (text : String) : List KeyEvent :=
  text.toList.map fun c => if c = '\n' then plain .enter else ofChar c

end KeyEvent

end LineConsole
