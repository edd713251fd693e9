import LineConsole.Fault
import LineConsole.LogRecord
import LineConsole.Style

/-! # Screens

A screen is a grid of cells with a cursor. Text that reaches the last column goes on in the next row.
Every call may fail, and what a failing call leaves behind is up to the screen.
-/

namespace LineConsole

/-- A cell; both counts start at zero. -/
structure Position where
  col : Nat
  row : Nat
  deriving DecidableEq, Repr

/-- An action on a state that may fail and then still leaves a state. -/
abbrev Action (σ α : Type) := EStateM IoFault σ α

class Screen (S : Type) where
  width : S → Nat
  cursor : Action S Position
  moveTo : Position → Action S Unit
  print : String → Style → Action S Unit
  newline : Action S Unit
  bell : Action S Unit
  flush : Action S Unit
  /-- A screen that is watched sees what is noted between its calls; others take no notice. -/
  witness : LogRecord → S → S := fun _ screen => screen

end LineConsole
