import LineConsole.Document.Yaml.Token

/-! # From a YAML text to its tokens

Block collections begin and end with their indentation. Whether a scalar is a key shows only at the
colon behind it, on the same line and at most 1024 characters later; the tokens that make it a key are
then put in front of it.
-/

namespace LineConsole.Yaml

/-- A node that a colon would make a key. -/
structure KeyCandidate where
  /-- How many tokens come before it. -/
  position : Nat
  line : Nat
  column : Nat
  offset : Nat
  /-- Whether nothing but a key can stand there. -/
  isRequired : Bool
  deriving DecidableEq, Repr

structure Layout where
  cursor : Cursor
  tokens : Array Token
  /-- The column of the innermost block collection; below zero outside of all. -/
  indent : Int
  /-- The columns of the block collections around it, innermost first. -/
  outerIndents : List Int
  /-- Whether a key can begin here. -/
  allowsKey : Bool
  candidate : Option KeyCandidate
  /-- One candidate for each flow collection that is open, for the level around it. -/
  outerCandidates : List (Option KeyCandidate)

abbrev Lay := StateT Layout Option

namespace Lay

def scan {α : Type} (s : Scan α) : Lay α := do
  let l ← get
  let some (a, cursor) := s l.cursor | failure
  set { l with cursor }
  return a

def emit (token : Token) : Lay Unit := modify fun l => { l with tokens := l.tokens.push token }

def allowKey (allows : Bool) : Lay Unit := modify fun l => { l with allowsKey := allows }

def cursor : Lay Cursor := do return (← get).cursor

def inFlow : Lay Bool := do return !(← get).outerCandidates.isEmpty

/-! ## Candidates -/

/-- Gives up the candidate of this level, which must not be required. -/
def dropCandidate : Lay Unit := do
  match (← get).candidate with
  | some candidate => if candidate.isRequired then failure
  | none => pure ()
  modify fun l => { l with candidate := none }

/-- Makes what follows a candidate if a key can begin here. -/
def markCandidate : Lay Unit := do
  let l ← get
  let c := l.cursor
  if l.allowsKey then
    let isRequired := l.outerCandidates.isEmpty && l.indent == (c.column : Int)
    dropCandidate
    modify fun l => { l with
      candidate := some ⟨l.tokens.size, c.line, c.column, c.offset, isRequired⟩ }

def isStale (c : Cursor) (candidate : KeyCandidate) : Bool :=
  candidate.line < c.line || candidate.offset + 1024 < c.offset

/-- Gives up the candidates that are too far behind. -/
def dropStale : Lay Unit := do
  let l ← get
  let stale := (l.candidate :: l.outerCandidates).filterMap fun candidate =>
    candidate.filter (isStale l.cursor)
  if stale.any (·.isRequired) then failure
  let kept := fun candidate : Option KeyCandidate => candidate.filter (!isStale l.cursor ·)
  set { l with candidate := kept l.candidate, outerCandidates := l.outerCandidates.map kept }

/-! ## Indentation -/

/-- Begins a block collection at a column, unless one is open there. Its token goes to the given
position. -/
def openBlock (column position : Nat) (token : Token) : Lay Unit := do
  let l ← get
  if l.outerCandidates.isEmpty && l.indent < column then
    set { l with
      indent := column
      outerIndents := l.indent :: l.outerIndents
      tokens := l.tokens.insertIdxIfInBounds position token }

/-- Ends the block collections right of a column. -/
def closeBlocks (column : Int) : Lay Unit := do
  let l ← get
  if l.outerCandidates.isEmpty then
    let closed := (l.indent :: l.outerIndents).takeWhile (column < ·)
    let rest := (l.indent :: l.outerIndents).dropWhile (column < ·)
    set { l with
      indent := rest.headD (-1)
      outerIndents := rest.tail
      tokens := l.tokens ++ (closed.map fun _ => Token.blockEnd).toArray }

/-! ## Tokens -/

/-- Up to the next token. A tab in front of a key would hide its indentation, so it is no gap where a
key can begin. -/
def skipToToken : Nat → Lay Unit
  | 0 => pure ()
  | fuel + 1 => do
    let tabs := (← inFlow) || !(← get).allowsKey
    scan (Scan.skipWhile fun c => c == ' ' || (tabs && c == '\t'))
    if (← cursor).head == '#' then scan (Scan.skipWhile (!isBreak ·))
    if isBreak (← cursor).head then
      scan Scan.skipBreak
      if !(← inFlow) then allowKey true
      skipToToken fuel

/-- A token that stands between documents. -/
def between (token : Scan Token) : Lay Unit := do
  closeBlocks (-1)
  dropCandidate
  allowKey false
  emit (← scan token)

/-- A sign that is a token of its own. -/
def sign (token : Token) (width : Nat) : Scan Token := do
  Scan.skip width
  return token

def openFlow (token : Token) : Lay Unit := do
  markCandidate
  modify fun l => { l with
    candidate := none, outerCandidates := l.candidate :: l.outerCandidates }
  allowKey true
  emit (← scan (sign token 1))

def closeFlow (token : Token) : Lay Unit := do
  dropCandidate
  modify fun l =>
    match l.outerCandidates with
    | [] => l
    | candidate :: rest => { l with candidate, outerCandidates := rest }
  allowKey false
  emit (← scan (sign token 1))

def flowEntry : Lay Unit := do
  dropCandidate
  allowKey true
  emit (← scan (sign .flowEntry 1))

/-- A block collection that begins with a sign of its own. -/
def openAtSign (token : Token) : Lay Unit := do
  let l ← get
  if l.outerCandidates.isEmpty then
    if l.allowsKey then openBlock l.cursor.column l.tokens.size token else failure

def entry : Lay Unit := do
  openAtSign .blockSequence
  dropCandidate
  allowKey true
  emit (← scan (sign .entry 1))

def key : Lay Unit := do
  openAtSign .blockMapping
  dropCandidate
  allowKey !(← inFlow)
  emit (← scan (sign .key 1))

/-- A colon makes the candidate a key; without one it follows a key that has a sign of its own. -/
def value : Lay Unit := do
  let l ← get
  match l.candidate with
  | some candidate =>
    modify fun l => { l with tokens := l.tokens.insertIdxIfInBounds candidate.position .key }
    openBlock candidate.column candidate.position .blockMapping
    modify fun l => { l with candidate := none }
    allowKey false
  | none =>
    openAtSign .blockMapping
    allowKey !(← inFlow)
  emit (← scan (sign .value 1))

/-- The start of a node, which can be a key. -/
def nodeStart (token : Scan Token) : Lay Unit := do
  markCandidate
  allowKey false
  emit (← scan token)

def blockScalar (literal : Bool) : Lay Unit := do
  dropCandidate
  allowKey true
  let margin := ((← get).indent + 1).toNat
  emit (.scalar (← scan (scanBlock literal margin)) (if literal then .literal else .folded))

def plainScalar : Lay Unit := do
  markCandidate
  allowKey false
  let margin := ((← get).indent + 1).toNat
  let (text, broken) ← scan (scanPlain (← inFlow) margin)
  if broken then allowKey true
  emit (.scalar text .plain)

/-- The signs that cannot begin a plain scalar. The first three can if no gap follows. -/
def reserved : List Char :=
  ['-', '?', ':', ',', '[', ']', '{', '}', '#', '&', '*', '!', '|', '>', '\'', '"', '%', '@',
    Char.ofNat 0x60]

def beginsPlain (inFlow : Bool) (c : Cursor) : Bool :=
  (!isStop c.head && !reserved.contains c.head) || (c.head == '-' && !isGap (c.ahead 1)) ||
    (!inFlow && (c.head == '?' || c.head == ':') && !isStop (c.ahead 1))

/-- The next token, the cursor standing on it. -/
def token : Lay Unit := do
  let c ← cursor
  let inFlow ← inFlow
  let stops := isStop (c.ahead 1)
  if c.column == 0 && c.head == '%' then between scanDirective
  else if c.isAtMark '-' then between (sign .documentStart 3)
  else if c.isAtMark '.' then between (sign .documentEnd 3)
  else if c.head == '[' then openFlow .flowSequence
  else if c.head == '{' then openFlow .flowMapping
  else if c.head == ']' then closeFlow .flowSequenceEnd
  else if c.head == '}' then closeFlow .flowMappingEnd
  else if c.head == ',' then flowEntry
  else if c.head == '-' && stops then entry
  else if c.head == '?' && (inFlow || stops) then key
  else if c.head == ':' && (inFlow || stops) then value
  else if c.head == '*' then nodeStart do return .reference (← scanName)
  else if c.head == '&' then nodeStart do return .anchor (← scanName)
  else if c.head == '!' then nodeStart (scanTag inFlow)
  else if c.head == '|' && !inFlow then blockScalar true
  else if c.head == '>' && !inFlow then blockScalar false
  else if c.head == '\'' || c.head == '"' then
    nodeStart do return .scalar (← scanQuoted) .quoted
  else if beginsPlain inFlow c then plainScalar
  else failure

/-- The end of the text ends the last line and all block collections. -/
def finish : Lay Unit := do
  modify fun l => { l with cursor := { l.cursor with line := l.cursor.line + 1, column := 0 } }
  closeBlocks (-1)
  dropCandidate

/-- All tokens up to the end of the text. -/
def tokens : Nat → Lay Unit
  | 0 => failure
  | fuel + 1 => do
    skipToToken ((← cursor).rest.length + 1)
    dropStale
    closeBlocks (← cursor).column
    if (← cursor).rest.isEmpty then finish
    else
      token
      tokens fuel

end Lay

/-- The characters that a YAML text may hold. -/
def isAllowed (c : Char) : Bool :=
  let n := c.toNat
  n == 0x09 || n == 0x0a || n == 0x0d || (0x20 ≤ n && n ≤ 0x7e) || n == 0x85 ||
    (0xa0 ≤ n && n ≤ 0xfffd && n != 0xfeff) || 0x10000 ≤ n

/-- The tokens of a text; a byte order mark at its start does not count. -/
def tokens? (text : String) : Option (List Token) := do
  let cs := match text.toList with
    | '\ufeff' :: rest => rest
    | cs => cs
  if !cs.all isAllowed then failure
  let start : Layout := ⟨Cursor.start cs, #[], -1, [], true, none, []⟩
  let (_, l) ← (Lay.tokens (cs.length + 2)).run start
  return l.tokens.toList

end LineConsole.Yaml
