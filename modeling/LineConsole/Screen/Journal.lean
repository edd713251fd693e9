import LineConsole.Screen

/-! # Watched screens

A screen together with a journal of the calls made on it and of what was noted between them. One call
may be set to fail; it then leaves the screen behind it as it was.
-/

namespace LineConsole

inductive ScreenCall where
  | cursor
  | moveTo (position : Position)
  | print (style : Style) (text : String)
  | newline
  | bell
  | flush
  deriving DecidableEq, Repr

inductive JournalEntry where
  | call (call : ScreenCall)
  | record (record : LogRecord)
  deriving DecidableEq, Repr

structure WatchedScreen (S : Type) where
  screen : S
  /-- Oldest first. -/
  journal : List JournalEntry
  calls : Nat
  /-- Which call fails, counting from one. -/
  failing : Nat

namespace WatchedScreen

variable {S : Type}

def ofScreen (screen : S) (failing : Nat) : WatchedScreen S := ⟨screen, [], 0, failing⟩

/-- Notes a call and passes it on unless it is the one to fail. -/
def pass {α : Type} (call : ScreenCall) (action : Action S α) : Action (WatchedScreen S) α :=
  fun w =>
    let noted := { w with journal := w.journal ++ [.call call], calls := w.calls + 1 }
    if noted.calls = w.failing then .error (.other "screen failure") noted
    else
      match action w.screen with
      | .ok a screen => .ok a { noted with screen }
      | .error fault screen => .error fault { noted with screen }

instance [Screen S] : Screen (WatchedScreen S) where
  width w := Screen.width w.screen
  cursor := pass .cursor Screen.cursor
  moveTo p := pass (.moveTo p) (Screen.moveTo p)
  print text style := pass (.print style text) (Screen.print text style)
  newline := pass .newline Screen.newline
  bell := pass .bell Screen.bell
  flush := pass .flush Screen.flush
  witness record w := { w with journal := w.journal ++ [.record record] }

end WatchedScreen

end LineConsole
