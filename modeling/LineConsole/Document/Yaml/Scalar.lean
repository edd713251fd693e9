import LineConsole.Document.Yaml.Cursor
import LineConsole.Text.Hexadecimal

/-! # YAML scalars

The three ways of writing a text. In a plain or quoted scalar a line end is a space and every further
line end stays one; blanks around it do not count. A block scalar keeps its lines or folds them, and
its first line or a digit says how far it is indented.
-/

namespace LineConsole.Yaml

/-- What stands between two words: blanks, or line ends with the blanks around them left out. -/
structure Gap where
  blanks : List Char
  /-- The first line end, unless it is escaped. -/
  first : List Char
  others : List Char
  isBroken : Bool
  deriving DecidableEq, Repr

namespace Gap

def none : Gap := ⟨[], [], [], false⟩

/-- A gap that starts with an escaped line end. -/
def escaped : Gap := { none with isBroken := true }

def addBlank (g : Gap) (c : Char) : Gap :=
  if g.isBroken then g else { g with blanks := g.blanks ++ [c] }

def addBreak (g : Gap) (text : List Char) : Gap :=
  if g.isBroken then { g with others := g.others ++ text }
  else { g with blanks := [], first := text, isBroken := true }

/-- What a gap counts as. -/
def text (g : Gap) : List Char :=
  if !g.isBroken then g.blanks
  else if g.first = ['\n'] then (if g.others = [] then [' '] else g.others)
  else g.first ++ g.others

end Gap

/-- Goes on with a gap. Left of the column `margin` a line must not be indented by tabs. -/
def scanGap (margin : Nat) : Nat → Gap → Scan Gap
  | 0, gap => pure gap
  | fuel + 1, gap => do
    let c ← get
    if isGap c.head then
      if gap.isBroken && c.column < margin && c.head == '\t' then failure
      Scan.skip 1
      scanGap margin fuel (gap.addBlank c.head)
    else if isBreak c.head then
      Scan.skipBreak
      scanGap margin fuel (gap.addBreak c.breakText)
    else pure gap

/-! ## Quoted scalars -/

/-- What follows the backslash of an escape stands for a character, if a single sign names it. -/
def namedEscape? : Char → Option Char
  | '0' => some '\x00' | 'a' => some '\x07' | 'b' => some '\x08' | 't' | '\t' => some '\t'
  | 'n' => some '\n' | 'v' => some '\x0b' | 'f' => some '\x0c' | 'r' => some '\r'
  | 'e' => some '\x1b' | ' ' => some ' ' | '"' => some '"' | '/' => some '/' | '\\' => some '\\'
  | 'N' => some '\u0085' | '_' => some '\u00a0' | 'L' => some '\u2028' | 'P' => some '\u2029'
  | _ => none

/-- How many hexadecimal digits follow. -/
def escapeWidth? : Char → Option Nat
  | 'x' => some 2 | 'u' => some 4 | 'U' => some 8
  | _ => none

/-- The character of an escape; the cursor stands on the backslash. -/
def scanEscape : Scan Char := do
  let sign := (← get).ahead 1
  Scan.skip 2
  match namedEscape? sign, escapeWidth? sign with
  | some c, _ => return c
  | none, some width =>
    let digits := (← get).rest.take width
    if digits.length < width then failure
    let some value := Text.hexNumber? digits | failure
    if !value.isValidChar then failure
    Scan.skip width
    return Char.ofNat value
  | none, none => failure

/-- The characters up to a gap or the closing quote, and whether an escaped line end follows. -/
def scanQuotedWord (quote : Char) : Nat → List Char → Scan (List Char × Bool)
  | 0, _ => failure
  | fuel + 1, word => do
    let c ← get
    if isStop c.head then return (word, false)
    else if quote == '\'' && c.head == '\'' && c.ahead 1 == '\'' then
      Scan.skip 2
      scanQuotedWord quote fuel (word ++ ['\''])
    else if c.head == quote then return (word, false)
    else if quote == '"' && c.head == '\\' && isBreak (c.ahead 1) then
      Scan.skip 1
      Scan.skipBreak
      return (word, true)
    else if quote == '"' && c.head == '\\' then
      let escaped ← scanEscape
      scanQuotedWord quote fuel (word ++ [escaped])
    else
      Scan.skip 1
      scanQuotedWord quote fuel (word ++ [c.head])

/-- The words and gaps up to the closing quote. -/
def scanQuotedFrom (quote : Char) : Nat → List Char → Scan (List Char)
  | 0, _ => failure
  | fuel + 1, text => do
    let c ← get
    if c.isAtAnyMark || c.head == '\x00' then failure
    let (word, escaped) ← scanQuotedWord quote (c.rest.length + 1) []
    if (← get).head == quote then
      Scan.skip 1
      return text ++ word
    let gap ← scanGap 0 c.rest.length (if escaped then Gap.escaped else Gap.none)
    scanQuotedFrom quote fuel (text ++ word ++ gap.text)

/-- A quoted scalar; the cursor stands on its quote. -/
def scanQuoted : Scan String := do
  let c ← get
  Scan.skip 1
  return String.ofList (← scanQuotedFrom c.head (c.rest.length + 1) [])

/-! ## Plain scalars -/

/-- The indicators of flow collections end a plain scalar inside of one. -/
def isFlowSign (c : Char) : Bool := c == ',' || c == '[' || c == ']' || c == '{' || c == '}'

/-- A word ends where a value begins and, inside a flow collection, at its indicators. -/
def endsPlainWord (inFlow : Bool) (c : Cursor) : Bool :=
  isStop c.head || (c.head == ':' && isStop (c.ahead 1)) || (inFlow && isFlowSign c.head)

def scanPlainWord (inFlow : Bool) : Nat → List Char → Scan (List Char)
  | 0, word => pure word
  | fuel + 1, word => do
    let c ← get
    if inFlow && c.head == ':' && (isFlowSign (c.ahead 1) || c.ahead 1 == '?') then failure
    else if endsPlainWord inFlow c then return word
    else
      Scan.skip 1
      scanPlainWord inFlow fuel (word ++ [c.head])

/-- The words and gaps of a plain scalar, and whether a line end was met behind the last word.
Outside flow collections a further line has to reach the column `margin`. -/
def scanPlainFrom (inFlow : Bool) (margin : Nat) : Nat → List Char → Gap → Scan (List Char × Bool)
  | 0, _, _ => failure
  | fuel + 1, text, gap => do
    let c ← get
    if c.isAtAnyMark || c.head == '#' then return (text, gap.isBroken)
    let word ← scanPlainWord inFlow c.rest.length []
    let (text, gap) := if word = [] then (text, gap) else (text ++ gap.text ++ word, Gap.none)
    let c ← get
    if !(isGap c.head || isBreak c.head) then return (text, gap.isBroken)
    let gap ← scanGap margin c.rest.length gap
    if !inFlow && (← get).column < margin then return (text, gap.isBroken)
    scanPlainFrom inFlow margin fuel text gap

def scanPlain (inFlow : Bool) (margin : Nat) : Scan (String × Bool) := do
  let (text, broken) ← scanPlainFrom inFlow margin ((← get).rest.length + 1) [] Gap.none
  return (String.ofList text, broken)

/-! ## Block scalars -/

/-- What happens to the line ends behind the last line. -/
inductive Chomping where
  | strip | clip | keep
  deriving DecidableEq, Repr

def scanChomping? : Scan (Option Chomping) := do
  let sign := (← get).head
  if sign == '+' || sign == '-' then
    Scan.skip 1
    return some (if sign == '+' then .keep else .strip)
  else return none

def scanIndent? : Scan (Option Nat) := do
  let digit := (← get).head
  if digit.isDigit then
    if digit == '0' then failure
    Scan.skip 1
    return some (digit.toNat - 48)
  else return none

/-- The two indicators behind the sign of a block scalar, in either order. -/
def scanBlockHeader : Scan (Chomping × Option Nat) := do
  match ← scanChomping? with
  | some chomping => return (chomping, ← scanIndent?)
  | none =>
    let indent ← scanIndent?
    let chomping ← if indent.isSome then scanChomping? else pure none
    return (chomping.getD .clip, indent)

/-- The line ends of empty lines up to a line with text. `indent` is zero as long as it is not known;
then the deepest indentation met is the result, at least `least`. -/
def scanBlockBreaks (least : Nat) : Nat → Nat → Nat → List Char → Scan (Nat × List Char)
  | 0, _, _, _ => failure
  | fuel + 1, indent, deepest, breaks => do
    let c ← get
    let room := if indent = 0 then c.rest.length else indent - c.column
    Scan.skip ((c.rest.take room).takeWhile (· == ' ')).length
    let c ← get
    let deepest := max deepest c.column
    if c.head == '\t' && (indent = 0 || c.column < indent) then failure
    if isBreak c.head then
      Scan.skipBreak
      scanBlockBreaks least fuel indent deepest (breaks ++ c.breakText)
    else return (if indent = 0 then max deepest least else indent, breaks)

/-- The lines of a block scalar. Between two lines that do not start with a blank, a folded scalar
turns a single line end into a space and leaves out the first of several. -/
def scanBlockLines (literal : Bool) (chomping : Chomping) (indent : Nat) :
    Nat → List Char → Bool → List Char → List Char → Scan (List Char)
  | 0, _, _, _, _ => failure
  | fuel + 1, text, afterBlank, lineEnd, breaks => do
    let c ← get
    if c.column = indent ∧ c.head ≠ '\x00' then
      let startsBlank := isGap c.head
      let folds := !literal && lineEnd = ['\n'] && !afterBlank && !startsBlank
      let joined := if folds then (if breaks = [] then [' '] else []) else lineEnd
      let line ← Scan.takeWhile fun ch => !isBreak ch
      let ending := (← get).breakText
      Scan.skipBreak
      let (_, further) ← scanBlockBreaks indent (c.rest.length + 1) indent 0 []
      scanBlockLines literal chomping indent fuel (text ++ joined ++ breaks ++ line) startsBlank
        ending further
    else
      match chomping with
      | .strip => return text
      | .clip => return text ++ lineEnd
      | .keep => return text ++ lineEnd ++ breaks

/-- A block scalar; the cursor stands on its sign. `margin` is the least column of its lines. -/
def scanBlock (literal : Bool) (margin : Nat) : Scan String := do
  Scan.skip 1
  let (chomping, digit) ← scanBlockHeader
  Scan.skipLineRest
  let fuel := (← get).rest.length + 1
  let fixed := match digit with
    | some n => (margin - 1) + n
    | none => 0
  let (indent, breaks) ← scanBlockBreaks (max margin 1) fuel fixed 0 []
  return String.ofList (← scanBlockLines literal chomping indent fuel [] false [] breaks)

end LineConsole.Yaml
