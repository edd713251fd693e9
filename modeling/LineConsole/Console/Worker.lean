import LineConsole.Editor
import LineConsole.Shell.Execution

/-! # The console's worker

One worker owns the editor and the shell. In each turn of its loop it takes the messages that have
arrived, then at most one key, and then runs the lines that were entered. While others have it
paused, keys are queued and no line is entered; the editor is resumed when the last of them lets go.
-/

namespace LineConsole

/-- What others ask of the worker. -/
inductive Message where
  | pause | resume
  deriving DecidableEq, Repr

/-- Why a worker stopped. -/
inductive Stop where
  | exit (code : Int32)
  | failed (fault : IoFault)
  /-- Handlers nest deeper than is allowed for. -/
  | tooDeep
  deriving DecidableEq, Repr

structure Worker (H S : Type) where
  shell : Shell H
  editor : Editor
  screen : S
  /-- How many have it paused. -/
  pauseDepth : Nat

/-- Work that goes on until something stops the worker. -/
abbrev Work (H S α : Type) := EStateM Stop (Worker H S) α

namespace Worker

variable {H S : Type} [Screen S]

/-- Lets the editor act, on the shell's history. -/
def onEditor (action : Action (Session S) Unit) : Work H S Unit := fun w =>
  let back (s : Session S) : Worker H S :=
    { w with editor := s.editor, screen := s.screen, shell := { w.shell with history := s.history } }
  match action ⟨w.editor, w.screen, w.shell.history⟩ with
  | .ok _ s => .ok () (back s)
  | .error fault s => .error (.failed fault) (back s)

/-- The first who pauses pauses the editor, and the last who resumes resumes it. -/
def receive : Message → Work H S Unit
  | .pause => do
    if (← get).pauseDepth = 0 then onEditor Session.pause
    modify fun w => { w with pauseDepth := w.pauseDepth + 1 }
  | .resume => do
    modify fun w => { w with pauseDepth := w.pauseDepth - 1 }
    if (← get).pauseDepth = 0 then onEditor Session.resume

def receiveAll : List Message → Work H S Unit
  | [] => pure ()
  | message :: rest => do
    receive message
    receiveAll rest

/-- Runs one line on the shell. -/
def runLine (host : Host H) (depth : Nat) (line : String) : Work H S Unit := fun w =>
  match w.shell.runLine host depth line with
  | none => .error .tooDeep w
  | some (shell, some code) => .error (.exit code) { w with shell }
  | some (shell, none) => .ok () { w with shell }

/-- Runs a line that was taken; the editor goes on unless others have it paused. -/
def runTaken (host : Host H) (depth : Nat) (line : String) : Work H S Unit := do
  runLine host depth line
  if (← get).pauseDepth = 0 then onEditor Session.resume

/-- Runs the lines that were entered, those among the replayed keys included. Each line that is run
was waiting or takes a queued key, so `fuel` steps suffice if there are that many of both. -/
def runLines (host : Host H) (depth : Nat) : Nat → Work H S Unit
  | 0 => pure ()
  | fuel + 1 => do
    let (line, editor) := (← get).editor.takeLine
    match line with
    | none => pure ()
    | some line =>
      modify fun w => { w with editor }
      runTaken host depth line
      runLines host depth fuel

def runCommitted (host : Host H) (depth : Nat) : Work H S Unit := do
  let e := (← get).editor
  runLines host depth (e.committed.length + e.queue.length)

/-- The messages that arrived and what polling the input came to. -/
def intake (messages : List Message) (polled : Option (Except IoFault KeyEvent)) :
    Work H S Unit := do
  receiveAll messages
  match polled with
  | none => pure ()
  | some (.error fault) => throw (.failed fault)
  | some (.ok event) => onEditor (Session.handleKey event)

/-- One turn: what arrived, and then the lines entered. -/
def turn (host : Host H) (depth : Nat) (messages : List Message)
    (polled : Option (Except IoFault KeyEvent)) : Work H S Unit := do
  intake messages polled
  runCommitted host depth

end Worker

end LineConsole
