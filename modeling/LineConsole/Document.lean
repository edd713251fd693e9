import LineConsole.Text.Hexadecimal

/-! # Documents

What a text of a configuration language says: a tree of lists and maps over leaves. A leaf keeps how
it was written, because that decides what it may be taken for: a YAML scalar without quotes can be a
text, a truth value or a count, a JSON value only what it is. A node of a YAML document can be
anchored under a name and referred to elsewhere.
-/

namespace LineConsole

/-- How a YAML scalar is written. -/
inductive ScalarStyle where
  | plain | literal | folded | quoted
  deriving DecidableEq, Repr

inductive Leaf where
  /-- A YAML scalar, with its tag. -/
  | scalar (text : String) (style : ScalarStyle) (tag : Option String)
  /-- A JSON string; no text if it holds half of a surrogate pair. -/
  | string (text : Option String)
  /-- A JSON number, with its value if it is written as a natural number. -/
  | number (value : Option Nat)
  | truth (value : Bool)
  | null
  deriving DecidableEq, Repr

inductive Tree where
  | leaf (leaf : Leaf)
  | list (items : List Tree)
  | map (entries : List (Tree × Tree))
  /-- The node that is anchored under this number. -/
  | reference (number : Nat)

structure Document where
  /-- Nothing if the text is empty. -/
  root : Option Tree
  /-- The anchored nodes, in the order in which they begin. -/
  anchored : List (Nat × Tree)

/-- The tag of a type of the standard YAML schema. -/
def standardTag (name : String) : String := "tag:yaml.org,2002:" ++ name

namespace Leaf

/-- A scalar that has a type without quotes: a plain one, or a literal one tagged with the type. -/
def isTyped (type : String) (style : ScalarStyle) (tag : Option String) : Bool :=
  style == .plain || (style == .literal && tag == some (standardTag type))

/-- The largest count. -/
def countLimit : Nat := 18446744073709551615

def readTruth? (text : String) : Option Bool :=
  if ["true", "True", "TRUE"].contains text then some true
  else if ["false", "False", "FALSE"].contains text then some false
  else none

/-- At least one digit of a base. -/
def readBase? (base : Nat) (digits : List Char) : Option Nat :=
  if digits = [] then none else Text.baseNumber? base digits

/-- A number without a sign. A zero in front of further decimal digits makes a text of it. -/
def readUnsigned? : List Char → Option Nat
  | '0' :: 'x' :: digits => readBase? 16 digits
  | '0' :: 'o' :: digits => readBase? 8 digits
  | '0' :: 'b' :: digits => readBase? 2 digits
  | '0' :: _ :: _ => none
  | digits => readBase? 10 digits

/-- A natural number that fits into 64 bits, with a plus sign in front or without. -/
def readCount? (text : String) : Option Nat :=
  let cs := text.toList
  (readUnsigned? (if cs.head? = some '+' then cs.tail else cs)).filter (· ≤ countLimit)

def text? : Leaf → Option String
  | .scalar text _ _ => some text
  | .string text => text
  | _ => none

def truth? : Leaf → Option Bool
  | .scalar text style tag => if isTyped "bool" style tag then readTruth? text else none
  | .truth value => some value
  | _ => none

def count? : Leaf → Option Nat
  | .scalar text style tag => if isTyped "int" style tag then readCount? text else none
  | .number value => value.filter (· ≤ countLimit)
  | _ => none

/-- A scalar that says nothing and is not quoted. -/
def isVoid : Leaf → Bool
  | .scalar text style _ => text.isEmpty && style == .plain
  | _ => false

/-- The spellings of nothing. -/
def isNull : Leaf → Bool
  | .scalar text .plain _ => ["", "~", "null", "Null", "NULL"].contains text
  | .null => true
  | _ => false

/-- The name of an alternative: the text, unless a tag of the document's own names it in front of
nothing. -/
def choice? (l : Leaf) : Option String :=
  match l with
  | .scalar text _ (some tag) =>
    match tag.toList with
    | '!' :: name =>
      if l.isNull then some (if name = [] then tag else String.ofList name) else none
    | _ => some text
  | _ => l.text?

end Leaf

namespace Document

/-- The node that is meant. Of two nodes with one number the later counts. -/
def resolve (d : Document) : Tree → Tree
  | .reference number =>
    ((d.anchored.reverse.find? (·.1 = number)).map (·.2)).getD (.reference number)
  | tree => tree

def leaf? (d : Document) (tree : Tree) : Option Leaf :=
  match d.resolve tree with
  | .leaf leaf => some leaf
  | _ => none

def text? (d : Document) (tree : Tree) : Option String := (d.leaf? tree).bind Leaf.text?

def truth? (d : Document) (tree : Tree) : Option Bool := (d.leaf? tree).bind Leaf.truth?

def count? (d : Document) (tree : Tree) : Option Nat := (d.leaf? tree).bind Leaf.count?

/-- The name of an alternative. In JSON it may also be the only key of a map, with nothing under
it. -/
def choice? (d : Document) (tree : Tree) : Option String :=
  match d.resolve tree with
  | .leaf leaf => leaf.choice?
  | .map [(.leaf (.string name), .leaf .null)] => name
  | _ => none

/-- The keys of a map that are among `names`, each at most once, with their values. A list gives its
items to the names in order, and nothing at all stands for no keys. -/
def fields? (d : Document) (names : List String) (tree : Tree) : Option (List (String × Tree)) :=
  match d.resolve tree with
  | .map entries => do
    let named ← entries.mapM fun (key, value) => (d.text? key).map (·, value)
    let known := named.filter fun entry => names.contains entry.1
    if (known.map (·.1)).Nodup then some known else none
  | .list items => if items.length ≤ names.length then some (names.zip items) else none
  | .leaf leaf => if leaf.isVoid then some [] else none
  | .reference _ => none

/-- The value under a key, if the key is there; `read` has to accept it. -/
def read? {α : Type} (fields : List (String × Tree)) (name : String) (read : Tree → Option α) :
    Option (Option α) :=
  match fields.lookup name with
  | none => some none
  | some tree => (read tree).map some

end Document

end LineConsole
