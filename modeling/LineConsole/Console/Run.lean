import LineConsole.Console.Worker

/-! # Runs of a worker

What a worker meets is up to its surroundings: a run is a list of turns, each with the messages that
arrive before the worker has received all that are there, and with what the input has. Messages come
from clients. A client resumes only after its own pause, so that its messages alternate.
-/

namespace LineConsole

/-- A message and who sent it. -/
structure ClientMessage where
  client : Nat
  message : Message
  deriving DecidableEq, Repr

structure Turn where
  /-- In the order in which they are received; some may arrive while others are being received. -/
  received : List ClientMessage
  polled : Option (Except IoFault KeyEvent)

def Turn.messages (t : Turn) : List Message := t.received.map (·.message)

/-- A pause, its resume, the next pause, and so on. -/
def alternates : List Message → Bool
  | [] | [.pause] => true
  | .pause :: .resume :: rest => alternates rest
  | _ => false

/-- What one client asks for in the course of the turns. -/
def messagesOf (turns : List Turn) (client : Nat) : List Message :=
  ((turns.flatMap (·.received)).filter (·.client = client)).map (·.message)

/-- No client resumes before its own pause was received, and none resumes twice for one pause. -/
def Courteous (turns : List Turn) : Prop := ∀ client, alternates (messagesOf turns client)

namespace Worker

variable {H S : Type} [Screen S]

/-- A worker that has not begun. -/
def fresh (shell : Shell H) (prompt : String) (rawInput : Bool) (screen : S) : Worker H S :=
  ⟨shell, Editor.new prompt rawInput, screen, 0⟩

/-- Turn after turn. -/
def loop (host : Host H) (depth : Nat) : List Turn → Work H S Unit
  | [] => pure ()
  | t :: rest => do
    turn host depth t.messages t.polled
    loop host depth rest

/-- Shows the prompt and goes through the turns. -/
def eventLoop (host : Host H) (depth : Nat) (turns : List Turn) : Work H S Unit := do
  onEditor Session.start
  loop host depth turns

/-- In a turn that `w` begins, `giver` is the worker that takes `line` and hands it to the shell:
it has finished the intake and run some of the lines that it will run. -/
def HandsOver (host : Host H) (depth : Nat) (w : Worker H S) (t : Turn) (line : String)
    (giver : Worker H S) : Prop :=
  ∃ ready count, intake t.messages t.polled w = .ok () ready ∧
    count < ready.editor.committed.length + ready.editor.queue.length ∧
    runLines host depth count ready = .ok () giver ∧ giver.editor.takeLine.1 = some line

end Worker

end LineConsole
