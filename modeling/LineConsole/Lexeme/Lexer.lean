import LineConsole.Fault
import LineConsole.Lexeme
import LineConsole.Text.Lines

/-! # Lexing

The text is taken with unified line ends and one NUL behind it, which is the last lexeme's content.
Each step takes the longest lexeme at the front of what is left. Oddities are recorded as warnings;
a quote that is not closed on its line is an error and ends the stream.
-/

namespace LineConsole

namespace Lexeme

/-- A remark about the character `offset` places behind the start of the lexeme. -/
structure Remark where
  offset : Nat
  message : String
  deriving DecidableEq, Repr

/-- The characters up to and with the closing quote and those behind it, or nothing if the line ends
first. A backslash takes the next character with it. -/
def quotedRun (quote : Char) : List Char → Option (List Char × List Char)
  | [] => none
  | '\n' :: _ => none
  | ['\\'] => none
  | '\\' :: '\n' :: _ => none
  | '\\' :: c :: rest => (quotedRun quote rest).map fun (run, left) => ('\\' :: c :: run, left)
  | c :: rest =>
    if c = quote then some ([c], rest)
    else (quotedRun quote rest).map fun (run, left) => (c :: run, left)

/-- The backslash pairs without a meaning up to the closing quote or the end of the line. -/
def quotedRemarks (quote : Char) (offset : Nat) : List Char → List Remark
  | [] => []
  | '\n' :: _ => []
  | ['\\'] => []
  | '\\' :: '\n' :: _ => []
  | '\\' :: c :: rest =>
    let later := quotedRemarks quote (offset + 2) rest
    if isKnownEscape c then later
    else ⟨offset, String.ofList ("unrecognized escape sequence '\\".toList ++ [c, '\''])⟩ :: later
  | c :: rest => if c = quote then [] else quotedRemarks quote (offset + 1) rest

/-- The NULs inside a word. -/
def wordRemarks (word : List Char) : List Remark :=
  (word.zipIdx.filter (·.1 = '\x00')).map fun (_, offset) => ⟨offset, "embedded NUL character"⟩

def wordKind (word : List Char) : LexemeKind :=
  if keywords.contains (String.ofList word) then .keyword else .string

/-- What stands at the front of a text. -/
inductive Front where
  | lexeme (kind : LexemeKind) (content rest : List Char) (remarks : List Remark)
  | unterminated (remarks : List Remark)
  deriving DecidableEq, Repr

/-- The longest lexeme at the front; an empty text is followed by the closing NUL. -/
def front : List Char → Front
  | [] => .lexeme .endOfFile ['\x00'] [] []
  | c :: rest =>
    if c = '\n' then .lexeme .newLine [c] rest []
    else if isSpace c then .lexeme .whitespace (c :: rest.takeWhile isSpace) (rest.dropWhile isSpace) []
    else if let some kind := symbol? c then .lexeme kind [c] rest []
    else if let some op := operator? c then
      if rest.head? = some op.upgrade then .lexeme op.double [c, op.upgrade] rest.tail []
      else .lexeme op.single [c] rest []
    else if isQuote c then
      match quotedRun c rest with
      | some (run, left) => .lexeme .quotedString (c :: run) left (quotedRemarks c 1 rest)
      | none => .unterminated (quotedRemarks c 1 rest)
    else
      let word := (c :: rest).takeWhile (!isBoundary ·)
      .lexeme (wordKind word) word ((c :: rest).dropWhile (!isBoundary ·)) (wordRemarks word)

/-- Nothing is lost where a quoted run ends. -/
theorem quotedRun_append {quote : Char} {cs run left : List Char}
    (found : quotedRun quote cs = some (run, left)) : run ++ left = cs := by
  fun_induction quotedRun quote cs generalizing run <;>
    simp_all [Option.map_eq_some_iff] <;> grind

/-- Nothing is lost between a lexeme and what follows it. -/
theorem front_append {c : Char} {cs content rest : List Char} {kind : LexemeKind}
    {remarks : List Remark} (found : front (c :: cs) = .lexeme kind content rest remarks) :
    content ++ rest = c :: cs := by
  simp only [front] at found
  repeat' split at found
  all_goals simp only [Front.lexeme.injEq, reduceCtorEq] at found
  all_goals obtain ⟨-, rfl, rfl, -⟩ := found
  · simp
  · simp [List.takeWhile_append_dropWhile]
  · simp
  · rename_i op _ next
    cases cs with
    | nil => simp at next
    | cons d cs => simp_all
  · simp
  · rename_i closed
    simp [quotedRun_append closed]
  · exact List.takeWhile_append_dropWhile ..

end Lexeme

/-- A text on the way to its lexemes. -/
structure Lexer where
  /-- What is left, without the closing NUL. -/
  rest : List Char
  location : Location
  /-- Warnings and errors so far, oldest first. -/
  diagnostics : List Diagnostic
  finished : Bool
  deriving DecidableEq, Repr

namespace Lexer

/-- The text that is lexed, without the closing NUL: one that is there already is that NUL. -/
def body (source : String) : List Char :=
  let cs := Text.unifyLineEnds source.toList
  if cs.getLast? = some '\x00' then cs.dropLast else cs

/-- The text whose lexemes are read. -/
def normalized (source : String) : List Char := body source ++ ['\x00']

def ofSource (source : String) : Lexer := ⟨body source, .start, [], false⟩

/-- A remark about the lexeme at the front, as a warning. -/
def warning (l : Lexer) (remark : Lexeme.Remark) : Diagnostic :=
  ⟨.warning, remark.message, l.location.advance (l.rest.take remark.offset)⟩

/-- The next lexeme, an error once, or nothing after the end. -/
def next? (l : Lexer) : Option (Except Fault Lexeme) × Lexer :=
  if l.finished then (none, l)
  else
    match Lexeme.front l.rest with
    | .lexeme kind content rest remarks =>
      let stop := l.location.advance content
      (some (.ok ⟨kind, l.location, stop, String.ofList content⟩),
        { rest, location := stop, diagnostics := l.diagnostics ++ remarks.map l.warning
          finished := kind = .endOfFile })
    | .unterminated remarks =>
      let error : Diagnostic := ⟨.error, "unterminated quoted string", l.location⟩
      (some (.error (.lexical error)),
        { l with diagnostics := l.diagnostics ++ remarks.map l.warning ++ [error]
                 finished := true })

/-- At most `count` items and the lexer behind them. -/
def take (l : Lexer) : Nat → List (Except Fault Lexeme) × Lexer
  | 0 => ([], l)
  | count + 1 =>
    match l.next? with
    | (none, l) => ([], l)
    | (some item, l) =>
      let (items, last) := l.take count
      (item :: items, last)

/-- All items: every lexeme but the last has a character of its own. -/
def run (l : Lexer) : List (Except Fault Lexeme) × Lexer := l.take (l.rest.length + 1)

end Lexer

/-- The lexemes of a text, or its first error. -/
def Lexeme.ofSource (source : String) : Except Fault (List Lexeme) :=
  (Lexer.ofSource source).run.1.mapM id

end LineConsole
