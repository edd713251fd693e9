/-! # A place in a YAML text

A cursor stands between two characters and knows its line and column, because the layout of a YAML
text has a meaning. Behind the end of the text a cursor sees the character NUL, which no YAML text
may hold.
-/

namespace LineConsole.Yaml

/-- A space or a tab. -/
def isGap (c : Char) : Bool := c == ' ' || c == '\t'

/-- The characters that end a line. -/
def isBreak (c : Char) : Bool :=
  c == '\n' || c == '\r' || c == '\u0085' || c == '\u2028' || c == '\u2029'

/-- What can follow an indicator: a gap, the end of a line or the end of the text. -/
def isStop (c : Char) : Bool := isGap c || isBreak c || c == '\x00'

/-- The characters of names. -/
def isWordChar (c : Char) : Bool := c.isAlphanum || c == '_' || c == '-'

structure Cursor where
  rest : List Char
  line : Nat
  column : Nat
  /-- How many characters lie before the cursor. -/
  offset : Nat
  deriving DecidableEq, Repr

namespace Cursor

def start (text : List Char) : Cursor := ⟨text, 0, 0, 0⟩

/-- The character a number of places ahead. -/
def ahead (c : Cursor) (n : Nat) : Char := c.rest.getD n '\x00'

def head (c : Cursor) : Char := c.ahead 0

def skip (c : Cursor) (n : Nat) : Cursor :=
  { c with rest := c.rest.drop n, column := c.column + n, offset := c.offset + n }

/-- Behind the end of a line. A carriage return and a line feed are one end. -/
def skipBreak (c : Cursor) : Cursor :=
  let n := if c.head == '\r' && c.ahead 1 == '\n' then 2 else if isBreak c.head then 1 else 0
  if n = 0 then c else ⟨c.rest.drop n, c.line + 1, 0, c.offset + n⟩

/-- What the end of a line counts as in a text. -/
def breakText (c : Cursor) : List Char :=
  if c.head == '\u2028' || c.head == '\u2029' then [c.head]
  else if isBreak c.head then ['\n'] else []

/-- The three signs at the start of a line that begin or end a document. -/
def isAtMark (c : Cursor) (sign : Char) : Bool :=
  c.column == 0 && c.head == sign && c.ahead 1 == sign && c.ahead 2 == sign && isStop (c.ahead 3)

def isAtAnyMark (c : Cursor) : Bool := c.isAtMark '-' || c.isAtMark '.'

end Cursor

/-- Reading forward from a cursor, or failing. -/
abbrev Scan := StateT Cursor Option

namespace Scan

def skip (n : Nat) : Scan Unit := modify (·.skip n)

def skipBreak : Scan Unit := modify (·.skipBreak)

/-- The characters up to the first that does not belong. -/
def takeWhile (belongs : Char → Bool) : Scan (List Char) := do
  let taken := (← get).rest.takeWhile belongs
  skip taken.length
  return taken

def skipWhile (belongs : Char → Bool) : Scan Unit := do
  let _ ← takeWhile belongs

/-- Goes on only if the next character is as it has to be. -/
def require (holds : Char → Bool) : Scan Unit := do
  if holds (← get).head then pure () else failure

/-- A comment and the gap in front of it; then the line has to end. -/
def skipLineRest : Scan Unit := do
  skipWhile isGap
  if (← get).head == '#' then skipWhile (!isBreak ·)
  require fun c => isBreak c || c == '\x00'
  skipBreak

end Scan

end LineConsole.Yaml
