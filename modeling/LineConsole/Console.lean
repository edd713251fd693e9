import LineConsole.Console.Worker

/-! # Consoles

A console is a worker with the keys that wait for it. Whoever wants to write to the screen pauses the
worker and resumes it afterwards. Only a caller outside can wait for that: the worker itself and a
runtime that must not block are refused, and so is everyone once the worker has stopped.
-/

namespace LineConsole

structure Console (H S : Type) where
  worker : Worker H S
  /-- Why the worker stopped, if it did. -/
  stop : Option Stop
  /-- Keys that the worker has not taken, oldest first. -/
  unread : List KeyEvent

/-- Who asks for a pause. -/
inductive Caller where
  | worker | runtime | outside
  deriving DecidableEq, Repr

namespace Console

variable {H S : Type} [Screen S]

def isRunning (c : Console H S) : Bool := c.stop.isNone

/-- Lets the worker work, unless it has stopped. -/
def work (c : Console H S) (action : Work H S Unit) : Console H S :=
  if c.isRunning then
    match action c.worker with
    | .ok _ worker => { c with worker }
    | .error stop worker => { c with worker, stop := some stop }
  else c

/-- Starts a worker, which shows its prompt. -/
def spawn (shell : Shell H) (editor : Editor) (screen : S) : Console H S :=
  Console.work ⟨⟨shell, editor, screen, 0⟩, none, []⟩ (Worker.onEditor Session.start)

/-- Lets the worker take one key after the other until it stops. -/
def takeKeys (host : Host H) (depth : Nat) (c : Console H S) : List KeyEvent → Console H S
  | [] => { c with unread := [] }
  | event :: rest =>
    if c.isRunning then
      takeKeys host depth (c.work (Worker.turn host depth [] (some (.ok event)))) rest
    else { c with unread := event :: rest }

/-- Sends keys and waits until the worker has taken all it will take. -/
def send (host : Host H) (depth : Nat) (c : Console H S) (events : List KeyEvent) : Console H S :=
  takeKeys host depth c (c.unread ++ events)

/-- The input fails once no key is left. -/
def failInput (host : Host H) (depth : Nat) (c : Console H S) (fault : IoFault) : Console H S :=
  c.work (Worker.turn host depth [] (some (.error fault)))

/-- Whether a pause that a caller asks for takes place, and the console after it. -/
def pause (host : Host H) (depth : Nat) (c : Console H S) (caller : Caller) : Bool × Console H S :=
  if caller = .outside && c.isRunning then
    let after := c.work (Worker.turn host depth [.pause] none)
    (after.isRunning, after)
  else (false, c)

def resume (host : Host H) (depth : Nat) (c : Console H S) : Console H S :=
  c.work (Worker.turn host depth [.resume] none)

/-- Acts while the worker is paused, or in any case if it cannot be. -/
def withPaused (host : Host H) (depth : Nat) (c : Console H S) (caller : Caller)
    (act : Console H S → Console H S) : Console H S :=
  let (paused, c) := c.pause host depth caller
  if paused then (act c).resume host depth else act c

/-- Acts on the screen directly; a call that fails there changes what it changed. -/
def draw (c : Console H S) (action : Action S Unit) : Console H S :=
  match action c.worker.screen with
  | .ok _ screen | .error _ screen => { c with worker := { c.worker with screen } }

/-- The code that a command asked to leave with. -/
def exitCode? (c : Console H S) : Option Int32 :=
  match c.stop with
  | some (.exit code) => some code
  | _ => none

/-- The failure of screen or input that stopped the worker. -/
def fault? (c : Console H S) : Option IoFault :=
  match c.stop with
  | some (.failed fault) => some fault
  | _ => none

end Console

end LineConsole
