/-! # Lines

A text falls into lines at each line feed. A carriage return right before that line feed belongs to
the line's end; one at the end of a last line without a line feed is part of the line. The rule is
the same for characters and for bytes, so both ends are parameters.
-/

namespace LineConsole.Text

variable {α : Type} [DecidableEq α]

/-- A line that ended in a line feed, without the carriage return before it. -/
def dropReturn (cr : α) (line : List α) : List α :=
  if line.getLast? = some cr then line.dropLast else line

/-- Splits at `lf`; `line` holds what stands on the line so far, last first. -/
def linesFrom (lf cr : α) (line : List α) : List α → List (List α)
  | [] => if line.isEmpty then [] else [line.reverse]
  | c :: rest =>
    if c = lf then dropReturn cr line.reverse :: linesFrom lf cr [] rest
    else linesFrom lf cr (c :: line) rest

/-- The lines of a text; what follows the last line feed is a line unless it is empty. -/
def lines (cs : List Char) : List (List Char) := linesFrom '\n' '\r' [] cs

/-- The lines of a file's bytes. -/
def byteLines (bytes : List UInt8) : List (List UInt8) := linesFrom 10 13 [] bytes

/-- Gives each line feed a carriage return in front of it that has none, `previous` being the byte
before the first. -/
def returnBeforeFeed (previous : Option UInt8) : List UInt8 → List UInt8
  | [] => []
  | b :: rest =>
    if b = 10 ∧ previous ≠ some 13 then 13 :: 10 :: returnBeforeFeed (some b) rest
    else b :: returnBeforeFeed (some b) rest

/-- The bytes with every line feed written as carriage return and line feed. -/
def crlf (bytes : List UInt8) : List UInt8 := returnBeforeFeed none bytes

/-- Writes every carriage return and line feed pair as a single line feed, in one pass. -/
def unifyLineEnds : List Char → List Char
  | '\r' :: '\n' :: rest => '\n' :: unifyLineEnds rest
  | c :: rest => c :: unifyLineEnds rest
  | [] => []

end LineConsole.Text
