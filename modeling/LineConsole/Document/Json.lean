import LineConsole.Document

/-! # JSON documents

The tree that a JSON text stands for. Blanks may stand between all parts, nothing is left out and
nothing may follow. Inside a string a line end has to be escaped. -/

namespace LineConsole.Json

def isBlank (c : Char) : Bool := c == ' ' || c == '\n' || c == '\t' || c == '\r'

def skipBlanks (cs : List Char) : List Char := cs.dropWhile isBlank

/-! ## Strings -/

/-- What an escaped sign stands for. -/
def namedEscape? : Char → Option Char
  | '"' => some '"' | '\\' => some '\\' | '/' => some '/' | 'b' => some '\x08'
  | 'f' => some '\x0c' | 'n' => some '\n' | 'r' => some '\r' | 't' => some '\t'
  | _ => none

/-- The UTF-16 units of a string up to its closing quote, and what follows. -/
def readUnits : List Char → Option (List (Char ⊕ Nat) × List Char)
  | '"' :: rest => some ([], rest)
  | '\\' :: 'u' :: a :: b :: c :: d :: rest => do
    let unit ← Text.hexNumber? [a, b, c, d]
    let (units, rest) ← readUnits rest
    return (.inr unit :: units, rest)
  | '\\' :: sign :: rest => do
    let c ← namedEscape? sign
    let (units, rest) ← readUnits rest
    return (.inl c :: units, rest)
  | c :: rest => do
    if c.toNat < 0x20 then none
    let (units, rest) ← readUnits rest
    return (.inl c :: units, rest)
  | [] => none

def isHighUnit (n : Nat) : Bool := 0xd800 ≤ n && n < 0xdc00

def isLowUnit (n : Nat) : Bool := 0xdc00 ≤ n && n < 0xe000

/-- The characters that written characters and escaped units stand for. Two escaped units that form a
pair are one character; no text holds half of a pair. -/
def charsOf : List (Char ⊕ Nat) → Option (List Char)
  | [] => some []
  | .inl c :: rest => (charsOf rest).map (c :: ·)
  | .inr unit :: rest =>
    if isHighUnit unit then
      match rest with
      | .inr low :: rest =>
        if isLowUnit low then
          (charsOf rest).map (Char.ofNat (0x10000 + (unit - 0xd800) * 1024 + (low - 0xdc00)) :: ·)
        else none
      | _ => none
    else if isLowUnit unit then none
    else (charsOf rest).map (Char.ofNat unit :: ·)

/-- A string behind its opening quote. -/
def readString (cs : List Char) : Option (Leaf × List Char) := do
  let (units, rest) ← readUnits cs
  return (.string ((charsOf units).map String.ofList), rest)

/-! ## Numbers -/

/-- At least one digit. -/
def skipDigits (cs : List Char) : Option (List Char) :=
  if (cs.takeWhile Char.isDigit).isEmpty then none else some (cs.dropWhile Char.isDigit)

/-- The digits in front of the decimal point: a zero stands alone. -/
def skipWhole : List Char → Option (List Char)
  | '0' :: rest => if (rest.head?.map Char.isDigit).getD false then none else some rest
  | cs => skipDigits cs

def skipFraction : List Char → Option (List Char)
  | '.' :: rest => skipDigits rest
  | cs => some cs

def skipExponent (cs : List Char) : Option (List Char) :=
  match cs with
  | e :: rest =>
    if e == 'e' || e == 'E' then
      match rest with
      | '+' :: rest | '-' :: rest => skipDigits rest
      | rest => skipDigits rest
    else some cs
  | [] => some []

/-- A number; it has a value here if it is written with digits alone. -/
def readNumber (cs : List Char) : Option (Leaf × List Char) := do
  let isNegative := cs.head? == some '-'
  let digits := if isNegative then cs.tail else cs
  let afterWhole ← skipWhole digits
  let rest ← (skipFraction afterWhole).bind skipExponent
  let isNatural := !isNegative && rest.length == afterWhole.length
  let value := if isNatural then Text.baseNumber? 10 (digits.takeWhile Char.isDigit) else none
  return (.number value, rest)

/-! ## Values -/

/-- A word that is a value. -/
def readWord (cs : List Char) : Option (Leaf × List Char) :=
  match cs with
  | 't' :: 'r' :: 'u' :: 'e' :: rest => some (.truth true, rest)
  | 'f' :: 'a' :: 'l' :: 's' :: 'e' :: rest => some (.truth false, rest)
  | 'n' :: 'u' :: 'l' :: 'l' :: rest => some (.null, rest)
  | _ => none

mutual

/-- A value with blanks in front of it. -/
def readValue : Nat → List Char → Option (Tree × List Char)
  | 0, _ => none
  | fuel + 1, cs =>
    match skipBlanks cs with
    | '[' :: rest =>
      match skipBlanks rest with
      | ']' :: rest => some (.list [], rest)
      | rest => (readItems fuel rest).map fun (items, rest) => (.list items, rest)
    | '\x7b' :: rest =>
      match skipBlanks rest with
      | '\x7d' :: rest => some (.map [], rest)
      | rest => (readEntries fuel rest).map fun (entries, rest) => (.map entries, rest)
    | '"' :: rest => (readString rest).map fun (leaf, rest) => (.leaf leaf, rest)
    | c :: rest =>
      let leaf := if c == '-' || c.isDigit then readNumber (c :: rest) else readWord (c :: rest)
      leaf.map fun (leaf, rest) => (.leaf leaf, rest)
    | [] => none

/-- The items of a list that is not empty, up to its end. -/
def readItems : Nat → List Char → Option (List Tree × List Char)
  | 0, _ => none
  | fuel + 1, cs => do
    let (item, rest) ← readValue fuel cs
    match skipBlanks rest with
    | ',' :: rest =>
      let (items, rest) ← readItems fuel rest
      return (item :: items, rest)
    | ']' :: rest => return ([item], rest)
    | _ => none

/-- The entries of a map that is not empty, up to its end. -/
def readEntries : Nat → List Char → Option (List (Tree × Tree) × List Char)
  | 0, _ => none
  | fuel + 1, cs => do
    let '"' :: rest := skipBlanks cs | none
    let (key, rest) ← readString rest
    let ':' :: rest := skipBlanks rest | none
    let (value, rest) ← readValue fuel rest
    match skipBlanks rest with
    | ',' :: rest =>
      let (entries, rest) ← readEntries fuel rest
      return ((.leaf key, value) :: entries, rest)
    | '\x7d' :: rest => return ([(.leaf key, value)], rest)
    | _ => none

end

/-- The document that a JSON text holds. -/
def document? (text : String) : Option Document := do
  let cs := text.toList
  let (root, rest) ← readValue (2 * cs.length + 2) cs
  if (skipBlanks rest).isEmpty then return ⟨some root, []⟩ else none

end LineConsole.Json
