import LineConsole.History
import LineConsole.Key.Sequence
import LineConsole.Screen

/-! # Line editor

The editor owns the line that is being typed and the place on the screen where it begins, its anchor.
Every key changes the line and redraws no more than what changed. A paused editor only queues keys.
Entering a line pauses the editor, so that whoever runs the line can write to the screen; resuming
shows the line anew and then replays the queue.
-/

namespace LineConsole

structure Editor where
  prompt : String
  buffer : List Char
  cursor : Nat
  anchor : Position
  promptShown : Bool
  paused : Bool
  /-- Keys that arrived while paused, oldest first. -/
  queue : List KeyEvent
  /-- Lines that were entered and not yet taken, oldest first. -/
  committed : List String
  /-- Present if keys arrive as raw characters. -/
  decoder : Option SequenceDecoder
  deriving DecidableEq, Repr

namespace Editor

def new (prompt : String) (rawInput : Bool) : Editor :=
  { prompt, buffer := [], cursor := 0, anchor := ⟨0, 0⟩, promptShown := false, paused := false
    queue := [], committed := [], decoder := if rawInput then some .outside else none }

def text (e : Editor) : String := String.ofList e.buffer

/-- The next line that was entered. -/
def takeLine (e : Editor) : Option String × Editor :=
  match e.committed with
  | [] => (none, e)
  | line :: rest => (some line, { e with committed := rest })

/-- Behind the last space before the character left of the cursor, or the start. -/
def wordStart (e : Editor) : Nat :=
  (e.cursor - 1) - ((e.buffer.take (e.cursor - 1)).reverse.takeWhile (· != ' ')).length

/-- The next space behind the character under the cursor, or the end. -/
def wordEnd (e : Editor) : Nat :=
  if e.buffer.length ≤ e.cursor then e.buffer.length
  else e.cursor + 1 + ((e.buffer.drop (e.cursor + 1)).takeWhile (· != ' ')).length

/-- Where a step to the left leads. -/
def leftOf (e : Editor) (word : Bool) : Nat := if word then e.wordStart else e.cursor - 1

/-- Where a step to the right leads. -/
def rightOf (e : Editor) (word : Bool) : Nat :=
  if word then e.wordEnd else min (e.cursor + 1) e.buffer.length

/-- Takes out the characters from `start` up to `stop` and puts the cursor there. -/
def remove (e : Editor) (start stop : Nat) : Editor :=
  { e with buffer := e.buffer.take start ++ e.buffer.drop stop, cursor := start }

def insertChar (e : Editor) (c : Char) : Editor :=
  { e with buffer := e.buffer.take e.cursor ++ c :: e.buffer.drop e.cursor, cursor := e.cursor + 1 }

/-- Replaces the line and puts the cursor behind it. -/
def replace (e : Editor) (line : String) : Editor :=
  { e with buffer := line.toList, cursor := line.toList.length }

/-- The cell `offset` places behind the anchor. -/
def cellOf (e : Editor) (width offset : Nat) : Position :=
  let linear := e.anchor.col + offset
  ⟨linear % max width 1, e.anchor.row + linear / max width 1⟩

/-- What is drawn from an offset on: the rest of the command's name, then the rest of the line. -/
def pieces (e : Editor) (start : Nat) : List Piece :=
  let shown := e.buffer.drop start
  let stop := (e.buffer.takeWhile (· != ' ')).length
  [⟨String.ofList (shown.take (stop - start)), .command⟩,
    ⟨String.ofList (shown.drop (stop - start)), .argument⟩].filter (!·.text.isEmpty)

theorem takeLine_snd (e : Editor) : e.takeLine.2 = { e with committed := e.committed.tail } := by
  obtain ⟨_, _, _, _, _, _, _, committed, _⟩ := e
  cases committed <;> rfl

theorem wordStart_le_cursor (e : Editor) : e.wordStart ≤ e.cursor := by
  simp only [wordStart]
  omega

theorem leftOf_le_cursor (e : Editor) (word : Bool) : e.leftOf word ≤ e.cursor := by
  cases word
  · exact Nat.sub_le ..
  · exact e.wordStart_le_cursor

theorem wordEnd_le_length (e : Editor) : e.wordEnd ≤ e.buffer.length := by
  unfold wordEnd
  split
  · exact Nat.le_refl _
  · have := (List.takeWhile_sublist (· != ' ') (l := e.buffer.drop (e.cursor + 1))).length_le
    rw [List.length_drop] at this
    omega

theorem rightOf_le_length (e : Editor) (word : Bool) : e.rightOf word ≤ e.buffer.length := by
  cases word
  · exact Nat.min_le_right ..
  · exact e.wordEnd_le_length

/-- A step to the right does not lead back. -/
theorem cursor_le_rightOf (e : Editor) (word : Bool) (inside : e.cursor < e.buffer.length) :
    e.cursor ≤ e.rightOf word := by
  cases word
  · exact Nat.le_min.mpr ⟨Nat.le_succ _, Nat.le_of_lt inside⟩
  · change e.cursor ≤ e.wordEnd
    rw [wordEnd, if_neg (Nat.not_le_of_lt inside)]
    omega

theorem length_insertChar (e : Editor) (c : Char) :
    (e.insertChar c).buffer.length = e.buffer.length + 1 := by
  simp only [insertChar, List.length_append, List.length_take, List.length_cons, List.length_drop]
  omega

theorem length_remove (e : Editor) {start stop : Nat} (ordered : start ≤ stop)
    (inside : stop ≤ e.buffer.length) :
    (e.remove start stop).buffer.length = e.buffer.length - (stop - start) := by
  simp only [remove, List.length_append, List.length_take, List.length_drop]
  omega

end Editor

/-- An editor at work: with its screen and the history that it walks through. -/
structure Session (S : Type) where
  editor : Editor
  screen : S
  history : History

namespace Session

variable {S : Type} [Screen S]

/-- A call of the screen. -/
def onScreen {α : Type} (action : Action S α) : Action (Session S) α := fun s =>
  match action s.screen with
  | .ok a screen => .ok a { s with screen }
  | .error fault screen => .error fault { s with screen }

/-- A change of the editor alone. -/
def edit (change : Editor → Editor) : Action (Session S) Unit :=
  modify fun s => { s with editor := change s.editor }

def note (record : LogRecord) : Action (Session S) Unit :=
  modify fun s => { s with screen := Screen.witness record s.screen }

/-- Moves the screen's cursor to an offset in the line. -/
def moveToOffset (offset : Nat) : Action (Session S) Unit := do
  let s ← get
  onScreen (Screen.moveTo (s.editor.cellOf (Screen.width s.screen) offset))

def printAll : List Piece → Action (Session S) Unit
  | [] => pure ()
  | piece :: rest => do
    onScreen (Screen.print piece.text piece.style)
    printAll rest

/-- Draws the line from an offset to its end, blanks `stale` cells behind it and puts the screen's
cursor back to the editor's. -/
def redrawFrom (start stale : Nat) : Action (Session S) Unit := do
  moveToOffset start
  printAll ((← get).editor.pieces start)
  if 0 < stale then
    onScreen (Screen.print (String.ofList (List.replicate stale ' ')) .plain)
  moveToOffset (← get).editor.cursor

/-- Prints the prompt; the line begins where that leaves the screen's cursor. -/
def showPrompt : Action (Session S) Unit := do
  onScreen (Screen.print (← get).editor.prompt .prompt)
  let anchor ← onScreen Screen.cursor
  edit fun e => { e with anchor, promptShown := true }

/-- Leaves the line for a fresh row. -/
def leaveLine : Action (Session S) Unit := do
  moveToOffset (← get).editor.buffer.length
  onScreen Screen.newline

/-- Begins editing where the screen's cursor is. -/
def start : Action (Session S) Unit := do
  showPrompt
  onScreen Screen.flush

/-- Stops handling keys and leaves the screen's cursor on a fresh row. -/
def pause : Action (Session S) Unit := do
  let s ← get
  if s.editor.paused then return
  edit fun e => { e with paused := true }
  if s.editor.promptShown then
    leaveLine
    edit fun e => { e with promptShown := false }
  onScreen Screen.flush

def moveCursor (target : Nat) : Action (Session S) Unit := do
  edit fun e => { e with cursor := target }
  moveToOffset target

def insert (c : Char) : Action (Session S) Unit := do
  let start := (← get).editor.cursor
  edit (·.insertChar c)
  redrawFrom start 0

def backspace (word : Bool) : Action (Session S) Unit := do
  let e := (← get).editor
  if e.cursor = 0 then return
  let start := e.leftOf word
  edit (·.remove start e.cursor)
  redrawFrom start (e.cursor - start)

def delete (word : Bool) : Action (Session S) Unit := do
  let e := (← get).editor
  if e.buffer.length ≤ e.cursor then return
  let stop := e.rightOf word
  edit (·.remove e.cursor stop)
  redrawFrom e.cursor (stop - e.cursor)

/-- Puts a line of the history in place of the one being typed. -/
def recallLine (line : String) : Action (Session S) Unit := do
  let before := (← get).editor.buffer.length
  edit (·.replace line)
  redrawFrom 0 (before - line.toList.length)

/-- Walks through the history. -/
def walkHistory (step : History → Option String × History) : Action (Session S) Unit := do
  let (line, history) := step (← get).history
  modify fun s => { s with history }
  match line with
  | some line => recallLine line
  | none => pure ()

/-- Enters the line. A blank one only gives way to a new prompt; any other waits to be taken and
pauses the editor. -/
def enter : Action (Session S) Unit := do
  let line := (← get).editor.buffer
  edit fun e => { e with buffer := [] }
  moveToOffset line.length
  onScreen Screen.newline
  edit fun e => { e with cursor := 0, promptShown := false }
  if line.all Text.isBlank then showPrompt
  else
    note (.lineCommitted (String.ofList line))
    let anchor ← onScreen Screen.cursor
    edit fun e =>
      { e with anchor, committed := e.committed ++ [String.ofList line], paused := true }

/-- Gives the line up for a new prompt. -/
def interrupt : Action (Session S) Unit := do
  leaveLine
  edit fun e => { e with buffer := [], cursor := 0 }
  showPrompt

/-- What a key does to an editor that is not paused. -/
def apply (event : KeyEvent) : Action (Session S) Unit := do
  if event.isInterrupt then interrupt
  else
    let e := (← get).editor
    let word := event.isWord
    match event.key with
    | .char =>
      match event.written? with
      | some c => insert c
      | none => pure ()
    | .backspace => backspace word
    | .delete => delete word
    | .left => moveCursor (e.leftOf word)
    | .right => moveCursor (e.rightOf word)
    | .home => moveCursor 0
    | .endOfLine => moveCursor e.buffer.length
    | .up => walkHistory History.previous
    | .down => walkHistory History.next
    | .enter => enter
    | .tab | .escape | .other => pure ()

/-- Applies queued keys until one pauses the editor; the rest stays queued. -/
def replay : List KeyEvent → Action (Session S) Unit
  | [] => pure ()
  | event :: rest => do
    if (← get).editor.paused then return
    edit fun e => { e with queue := rest }
    apply event
    replay rest

/-- Shows prompt and line anew and replays what was queued. -/
def resume : Action (Session S) Unit := do
  let e := (← get).editor
  if !e.paused then return
  edit fun e => { e with paused := false }
  if !e.queue.isEmpty then note (.replayingKeys e.queue.length)
  showPrompt
  redrawFrom 0 0
  replay e.queue
  onScreen Screen.flush

/-- A key that was decoded: queued while paused, else applied. -/
def receive (event : KeyEvent) : Action (Session S) Unit := do
  if (← get).editor.paused then edit fun e => { e with queue := e.queue ++ [event] }
  else
    apply event
    onScreen Screen.flush

/-- Feeds one key event, which may be part of a sequence. -/
def handleKey (event : KeyEvent) : Action (Session S) Unit := do
  match (← get).editor.decoder with
  | none => receive event
  | some decoder =>
    let (decoded, next) := decoder.feed event
    edit fun e => { e with decoder := some next }
    match decoded with
    | .key event => receive event
    | .pending => pure ()
    | .unknown =>
      onScreen Screen.bell
      onScreen Screen.flush

end Session

end LineConsole
