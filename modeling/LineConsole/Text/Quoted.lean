import LineConsole.Text.Printable

/-! # Quoted text

A text in double quotes in which quotes, backslashes, line ends, tabs and NUL are written with a
backslash, and every other character that cannot be shown by its code point in braces.
-/

namespace LineConsole.Text

/-- The code point in hexadecimal, without leading zeros. -/
def codePoint (c : Char) : String := String.ofList (Nat.toDigits 16 c.toNat)

def quotedChar (c : Char) : List Char :=
  match c with
  | '\x00' => ['\\', '0']
  | '\t' => ['\\', 't']
  | '\r' => ['\\', 'r']
  | '\n' => ['\\', 'n']
  | '"' => ['\\', '"']
  | '\\' => ['\\', '\\']
  | c => if isShown c then [c] else "\\u\x7b".toList ++ (codePoint c).toList ++ ['\x7d']

def quoted (s : String) : String :=
  String.ofList ('"' :: s.toList.flatMap quotedChar ++ ['"'])

end LineConsole.Text
