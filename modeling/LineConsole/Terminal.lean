import LineConsole.Key
import LineConsole.Screen.Journal
import LineConsole.Text.Utf8

/-! # Terminals

What is sent to a terminal in raw mode for styled output and for the calls of a screen, and how the
bytes that come from it become key events.
-/

namespace LineConsole.Terminal

/-- The number of a style's colour among the terminal's colours; plain text has none. -/
def colour? : Style → Option Nat
  | .plain => none
  | .command => some 14
  | .argument => some 15
  | .info => some 12
  | .success => some 10
  | .warning => some 11
  | .error => some 9
  | .usage => some 13
  | .prompt => some 2

/-- Text between setting its colour and resetting it. -/
def styled (text : String) (style : Style) : String :=
  match colour? style with
  | none => text
  | some n => "\x1b[38;5;" ++ Decimal.natText n ++ "m" ++ text ++ "\x1b[0m"

/-- Written output: each line is coloured by itself, and the cursor goes to the left edge in between.
A line without text sets no colour. -/
def output (text : String) (style : Style) : String :=
  "\r\n".intercalate <| (text.toList.splitOn '\n').map fun line =>
    if line = [] then "" else styled (String.ofList line) style

/-- A coordinate is sent counting from one, in sixteen bits. -/
def coordinate (n : Nat) : String := Decimal.natText ((min n 65535 + 1) % 65536)

/-- What a call of the screen sends. -/
def callText : ScreenCall → String
  | .cursor => ""
  | .moveTo p => "\x1b[" ++ coordinate p.row ++ ";" ++ coordinate p.col ++ "H"
  | .print style text => styled text style
  | .newline => "\r\n"
  | .bell => "\x07"
  | .flush => ""

/-- The key events of a stream of bytes. When the stream ends, the input is closed. -/
def rawEvents (bytes : List UInt8) : List KeyEvent :=
  (Text.replacingFrom none bytes).2.map KeyEvent.ofChar

end LineConsole.Terminal
