import LineConsole.Document
import LineConsole.Document.Yaml.Scalar
import LineConsole.Text.Utf8

/-! # YAML tokens

The tokens that a YAML text is made of. Some are written, some stand for a change of the indentation.
Here are the tokens that are read from where they stand alone: names, tags and directives.
-/

namespace LineConsole.Yaml

inductive Token where
  | version (major minor : Nat)
  /-- A short form of tags, with what it stands for. -/
  | tagHandle (handle meaning : String)
  | documentStart
  | documentEnd
  | blockSequence
  | blockMapping
  /-- The indentation of a block sequence or mapping ends. -/
  | blockEnd
  | flowSequence
  | flowSequenceEnd
  | flowMapping
  | flowMappingEnd
  /-- The dash in front of an item. -/
  | entry
  /-- The comma behind an item. -/
  | flowEntry
  | key
  | value
  | reference (name : String)
  | anchor (name : String)
  | tag (handle suffix : String)
  | scalar (text : String) (style : ScalarStyle)
  deriving DecidableEq, Repr

/-! ## Names -/

/-- The name of an anchor; the cursor stands on the sign in front of it. -/
def scanName : Scan String := do
  Scan.skip 1
  let name ← Scan.takeWhile isWordChar
  if name = [] then failure
  Scan.require fun c => isStop c || ['?', ':', ',', ']', '}', '%', '@', Char.ofNat 0x60].contains c
  return String.ofList name

/-! ## Tags -/

/-- A name between exclamation marks, or only what of it is there. -/
def scanHandle : Scan (List Char) := do
  Scan.require (· == '!')
  Scan.skip 1
  let name ← Scan.takeWhile isWordChar
  if (← get).head == '!' then
    Scan.skip 1
    return '!' :: name ++ ['!']
  else return '!' :: name

def isUriChar (verbatim : Bool) (c : Char) : Bool :=
  isWordChar c || [';', '/', '?', ':', '@', '&', '=', '+', '$', '.', '%', '!', '~', '*', '\'', '(',
    ')'].contains c || (verbatim && [',', '[', ']'].contains c)

/-- One byte of an escaped character. -/
def scanUriByte : Scan UInt8 := do
  Scan.require (· == '%')
  let some value := Text.hexNumber? ((← get).rest.drop 1 |>.take 2) | failure
  if ((← get).rest.drop 1).length < 2 then failure
  Scan.skip 3
  return UInt8.ofNat value

/-- The bytes that continue a character. -/
def scanUriBytes : Nat → Scan (List UInt8)
  | 0 => return []
  | n + 1 => do
    let byte ← scanUriByte
    if byte.toNat / 64 ≠ 2 then failure
    return byte :: (← scanUriBytes n)

/-- A character written as the bytes of its UTF-8 form. -/
def scanUriEscape : Scan (List Char) := do
  let first ← scanUriByte
  let b := first.toNat
  let some more := (if b < 0x80 then some 0 else if b / 32 = 6 then some 1
    else if b / 16 = 14 then some 2 else if b / 8 = 30 then some 3 else none) | failure
  let bytes := first :: (← scanUriBytes more)
  return ((Text.decodeUtf8 bytes).getD "\ufffd").toList

/-- The characters of a tag that continues `text`. -/
def scanUriFrom (verbatim : Bool) : Nat → List Char → Scan (List Char)
  | 0, text => pure text
  | fuel + 1, text => do
    let c := (← get).head
    if !isUriChar verbatim c then return text
    else if c == '%' then
      let escaped ← scanUriEscape
      scanUriFrom verbatim fuel (text ++ escaped)
    else
      Scan.skip 1
      scanUriFrom verbatim fuel (text ++ [c])

def scanUri (verbatim : Bool) : Scan (List Char) := do
  scanUriFrom verbatim ((← get).rest.length + 1) []

/-- A tag in angle brackets, a tag with a handle, or a local one. -/
def scanTagParts : Scan (List Char × List Char) := do
  if (← get).ahead 1 == '<' then
    Scan.skip 2
    let uri ← scanUri true
    if uri = [] then failure
    Scan.require (· == '>')
    Scan.skip 1
    return ([], uri)
  else
    let handle ← scanHandle
    let uri ← scanUri false
    if 1 < handle.length ∧ handle.getLast? = some '!' then
      if uri = [] then failure
      return (handle, uri)
    else
      let suffix := handle.tail ++ uri
      return if suffix = [] then ([], ['!']) else (['!'], suffix)

/-- A tag; the cursor stands on its exclamation mark. -/
def scanTag (inFlow : Bool) : Scan Token := do
  let (handle, suffix) ← scanTagParts
  Scan.require fun c => isStop c || (inFlow && c == ',')
  return .tag (String.ofList handle) (String.ofList suffix)

/-! ## Directives -/

def scanVersionNumber : Scan Nat := do
  let digits ← Scan.takeWhile Char.isDigit
  if digits.length = 0 ∨ 9 < digits.length then failure
  let some value := Text.baseNumber? 10 digits | failure
  return value

def scanVersion : Scan Token := do
  let major ← scanVersionNumber
  Scan.require (· == '.')
  Scan.skip 1
  return .version major (← scanVersionNumber)

def scanTagDirective : Scan Token := do
  let handle ← scanHandle
  if handle.getLast? ≠ some '!' then failure
  Scan.require isGap
  Scan.skipWhile isGap
  let meaning ← scanUri true
  if meaning = [] then failure
  Scan.require isStop
  return .tagHandle (String.ofList handle) (String.ofList meaning)

/-- A directive and the rest of its line; the cursor stands on the percent sign. -/
def scanDirective : Scan Token := do
  Scan.skip 1
  let name ← Scan.takeWhile isWordChar
  if name = [] then failure
  Scan.require isStop
  Scan.skipWhile isGap
  let token ←
    if name = "YAML".toList then scanVersion
    else if name = "TAG".toList then scanTagDirective
    else failure
  Scan.skipLineRest
  return token

end LineConsole.Yaml
