import LineConsole.Screen
import LineConsole.Text.Blank

/-! # A screen in memory

A grid that grows downwards as rows are written. A cursor behind the last column stays there until
the next character, which then goes to the row below. No call fails.
-/

namespace LineConsole

structure Cell where
  char : Char
  style : Style
  deriving DecidableEq, Repr

structure MemoryScreen where
  width : Nat
  rows : List (List Cell)
  position : Position
  bells : Nat
  deriving DecidableEq, Repr

namespace MemoryScreen

/-- An empty screen is at least one column wide and has one row. -/
def ofWidth (width : Nat) : MemoryScreen := ⟨max width 1, [[]], ⟨0, 0⟩, 0⟩

def blank : Cell := ⟨' ', .plain⟩

/-- Writes a cell into a row, with blanks before it if the row is too short. -/
def putInRow (row : List Cell) (col : Nat) (cell : Cell) : List Cell :=
  (row ++ List.replicate (col + 1 - row.length) blank).set col cell

/-- Adds rows until there is one of this index. -/
def growTo (rows : List (List Cell)) (row : Nat) : List (List Cell) :=
  rows ++ List.replicate (row + 1 - rows.length) []

/-- Where the next character goes: the cursor, or the next row if that is behind the last column. -/
def effective (s : MemoryScreen) : Position :=
  if s.width ≤ s.position.col then ⟨0, s.position.row + 1⟩ else s.position

def newline (s : MemoryScreen) : MemoryScreen :=
  { s with position := ⟨0, s.position.row + 1⟩, rows := growTo s.rows (s.position.row + 1) }

def put (s : MemoryScreen) (style : Style) (c : Char) : MemoryScreen :=
  if c = '\n' then s.newline
  else
    let place := s.effective
    { s with
      rows := (growTo s.rows place.row).modify place.row (putInRow · place.col ⟨c, style⟩)
      position := ⟨place.col + 1, place.row⟩ }

def print (s : MemoryScreen) (text : String) (style : Style) : MemoryScreen :=
  text.toList.foldl (put · style) s

/-- The text of a row without the blanks at its end. -/
def rowText (row : List Cell) : String := String.ofList (Text.trimEnd (row.map (·.char)))

def lines (s : MemoryScreen) : List String := s.rows.map rowText

def cell? (s : MemoryScreen) (p : Position) : Option Cell := (s.rows[p.row]?).bind (·[p.col]?)

instance : Screen MemoryScreen where
  width s := s.width
  cursor := fun s => .ok s.effective s
  moveTo p := fun s => .ok () { s with position := p }
  print text style := fun s => .ok () (s.print text style)
  newline := fun s => .ok () s.newline
  bell := fun s => .ok () { s with bells := s.bells + 1 }
  flush := fun s => .ok () s

end MemoryScreen

end LineConsole
