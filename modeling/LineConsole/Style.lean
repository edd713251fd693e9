import LineConsole.Text.Lines

/-! # Styled output

Output is a sequence of pieces of text, each with a style that says what the text is for. How a style
looks is left to whatever shows it. A transcript keeps the pieces in the order of writing.
-/

namespace LineConsole

inductive Style where
  | plain | command | argument | info | success | warning | error | usage | prompt
  deriving DecidableEq, Repr

structure Piece where
  text : String
  style : Style
  deriving DecidableEq, Repr

/-- What has been written, oldest first. -/
abbrev Transcript := List Piece

namespace Transcript

def write (t : Transcript) (text : String) (style : Style) : Transcript := t ++ [⟨text, style⟩]

/-- A line is its text and then a plain line feed. -/
def writeLine (t : Transcript) (text : String) (style : Style) : Transcript :=
  (t.write text style).write "\n" .plain

/-- All the text, without styles. -/
def text (t : Transcript) : String := String.join (t.map (·.text))

def lines (t : Transcript) : List String := (Text.lines t.text.toList).map String.ofList

/-- The pieces written in one style. -/
def styled (t : Transcript) (style : Style) : List String :=
  (t.filter (·.style = style)).map (·.text)

theorem text_write (t : Transcript) (text : String) (style : Style) :
    (t.write text style).text = t.text ++ text := by
  simp [write, Transcript.text, String.join_append]

theorem text_writeLine (t : Transcript) (text : String) (style : Style) :
    (t.writeLine text style).text = t.text ++ text ++ "\n" := by
  rw [writeLine, text_write, text_write]

end Transcript

end LineConsole
