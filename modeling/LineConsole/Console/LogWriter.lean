import LineConsole.Console
import LineConsole.Text.Lines

/-! # Log records beside a console

A log record arrives in chunks and is written at once. Next to a console it goes out while the worker
is paused, and with the line ends that a terminal in raw mode needs; without a console it goes out as
it is. A record without bytes is not written at all.
-/

namespace LineConsole

/-- The bytes of a record, beside a console or without one. -/
def recordBytes (attached : Bool) (chunks : List (List UInt8)) : List UInt8 :=
  if attached then Text.crlf chunks.flatten else chunks.flatten

/-- Writes a record around a console. The bytes go past the screen, so the pause is all that the
console shows of it. -/
def Console.aroundRecord {H S : Type} [Screen S] (host : Host H) (depth : Nat) (c : Console H S)
    (chunks : List (List UInt8)) : Console H S :=
  if chunks.flatten.isEmpty then c else c.withPaused host depth .outside id

end LineConsole
