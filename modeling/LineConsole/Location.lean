import LineConsole.Decimal.Integer

/-! # Places in a text

A location counts the line feeds before a place and the characters since the last of them. A
diagnostic is a remark about the text at a location.
-/

namespace LineConsole

/-- Both counts start at zero. -/
structure Location where
  line : Nat
  column : Nat
  deriving DecidableEq, Repr

namespace Location

def start : Location := ⟨0, 0⟩

/-- The location behind one character. -/
def after (l : Location) (c : Char) : Location :=
  if c = '\n' then ⟨l.line + 1, 0⟩ else ⟨l.line, l.column + 1⟩

/-- The location behind a text. -/
def advance (l : Location) (cs : List Char) : Location := cs.foldl after l

/-- The location of an offset in a text; past the end, columns go on counting. -/
def ofOffset (cs : List Char) (offset : Nat) : Location :=
  let l := start.advance (cs.take offset)
  ⟨l.line, l.column + (offset - cs.length)⟩

/-- Lines and columns are shown counting from one. -/
def text (l : Location) : String :=
  Decimal.natText (l.line + 1) ++ ":" ++ Decimal.natText (l.column + 1)

theorem advance_append (l : Location) (a b : List Char) :
    l.advance (a ++ b) = (l.advance a).advance b := List.foldl_append

end Location

inductive Severity where
  | warning | error
  deriving DecidableEq, Repr

structure Diagnostic where
  severity : Severity
  message : String
  location : Location
  deriving DecidableEq, Repr

def Diagnostic.text (d : Diagnostic) : String := d.message ++ " at " ++ d.location.text

end LineConsole
