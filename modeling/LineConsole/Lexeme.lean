import LineConsole.Location
import LineConsole.Text.Blank

/-! # Lexemes

A lexeme is a stretch of a text with its kind. Symbols stand for themselves; an operator character
may be upgraded by the character behind it; words are runs of characters that begin nothing else.
-/

namespace LineConsole

inductive LexemeKind where
  | whitespace | newLine | endOfFile
  | leftParen | rightParen | leftBrace | rightBrace | plus | minus | star | slash | semicolon
  | hash | comma | dollar | at | question | colon
  | and | andAlso | or | orElse | not | notEqual | assign | equal | less | lessEqual
  | greater | greaterEqual
  | keyword | quotedString | string
  deriving DecidableEq, Repr

def LexemeKind.name : LexemeKind → String
  | .whitespace => "Whitespace" | .newLine => "NewLine" | .endOfFile => "EndOfFile"
  | .leftParen => "LeftParen" | .rightParen => "RightParen"
  | .leftBrace => "LeftBrace" | .rightBrace => "RightBrace"
  | .plus => "Plus" | .minus => "Minus" | .star => "Star" | .slash => "Slash"
  | .semicolon => "Semicolon" | .hash => "Hash" | .comma => "Comma" | .dollar => "Dollar"
  | .at => "At" | .question => "Question" | .colon => "Colon"
  | .and => "And" | .andAlso => "AndAlso" | .or => "Or" | .orElse => "OrElse"
  | .not => "Not" | .notEqual => "NotEqual" | .assign => "Assign" | .equal => "Equal"
  | .less => "Less" | .lessEqual => "LessEqual"
  | .greater => "Greater" | .greaterEqual => "GreaterEqual"
  | .keyword => "Keyword" | .quotedString => "QuotedString" | .string => "String"

structure Lexeme where
  kind : LexemeKind
  start : Location
  stop : Location
  content : String
  deriving DecidableEq, Repr

namespace Lexeme

/-- Words with a kind of their own. -/
def keywords : List String :=
  ["function", "true", "false", "null", "return", "if", "else", "for", "from", "to", "while"]

def symbol? : Char → Option LexemeKind
  | '(' => some .leftParen | ')' => some .rightParen
  | '{' => some .leftBrace | '}' => some .rightBrace
  | '+' => some .plus | '-' => some .minus | '*' => some .star | '/' => some .slash
  | ';' => some .semicolon | '#' => some .hash | ',' => some .comma | '$' => some .dollar
  | '@' => some .at | '?' => some .question | ':' => some .colon
  | _ => none

/-- An operator alone, the character that upgrades it, and what it becomes. -/
structure Operator where
  single : LexemeKind
  upgrade : Char
  double : LexemeKind
  deriving DecidableEq, Repr

def operator? : Char → Option Operator
  | '&' => some ⟨.and, '&', .andAlso⟩
  | '|' => some ⟨.or, '|', .orElse⟩
  | '!' => some ⟨.not, '=', .notEqual⟩
  | '=' => some ⟨.assign, '=', .equal⟩
  | '<' => some ⟨.less, '=', .lessEqual⟩
  | '>' => some ⟨.greater, '=', .greaterEqual⟩
  | _ => none

/-- A blank within a line. -/
def isSpace (c : Char) : Bool := c != '\n' && Text.isBlank c

def isQuote (c : Char) : Bool := c == '"' || c == '\''

/-- A character that ends a word. -/
def isBoundary (c : Char) : Bool :=
  c == '\n' || isSpace c || (symbol? c).isSome || (operator? c).isSome

/-- The character that a backslash and `c` stand for. -/
def unescaped : Char → Char
  | 'n' => '\n'
  | 't' => '\t'
  | 'r' => '\r'
  | '0' => '\x00'
  | c => c

/-- The characters after a backslash that have a meaning. -/
def isKnownEscape (c : Char) : Bool := ['\\', '"', '\'', 'n', 't', 'r', '0', '$'].contains c

/-- Replaces every backslash pair by the character it stands for. -/
def unescape : List Char → List Char
  | '\\' :: c :: rest => unescaped c :: unescape rest
  | c :: rest => c :: unescape rest
  | [] => []

/-- A quoted string without its quotes and escapes; any other lexeme as written. -/
def value (l : Lexeme) : String :=
  if l.kind = .quotedString then String.ofList (unescape (l.content.toList.drop 1).dropLast)
  else l.content

end Lexeme

end LineConsole
