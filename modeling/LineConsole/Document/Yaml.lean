import LineConsole.Document.Yaml.Layout

/-! # YAML documents

The tree that the tokens of a text stand for. The text holds one document at most. Where a node may be
missing, an empty scalar takes its place; where none may be missing, the text is refused.
-/

namespace LineConsole.Yaml

structure Reading where
  tokens : List Token
  /-- What the handles of tags stand for. -/
  handles : List (String × String)
  /-- The numbers of the anchors, the newest first. -/
  numbers : List (String × Nat)
  anchored : List (Nat × Tree)

/-- Reading a tree from tokens, or failing. -/
abbrev Read := StateT Reading Option

/-- What can stand in front of a node. -/
structure Properties where
  anchor : Option String
  tag : Option String

def emptyLeaf (tag : Option String) : Tree := .leaf (.scalar "" .plain tag)

namespace Read

def peek : Read (Option Token) := do return (← get).tokens.head?

def skip : Read Unit := modify fun r => { r with tokens := r.tokens.tail }

/-- Whether the next token is one of these. -/
def nextIs (tokens : List Token) : Read Bool := do
  match ← peek with
  | some token => return tokens.contains token
  | none => return false

/-! ## Properties of nodes -/

def anchor? : Read (Option String) := do
  match ← peek with
  | some (.anchor name) => skip; return some name
  | _ => return none

/-- A tag in full; its handle has to be known. -/
def tag? : Read (Option String) := do
  match ← peek with
  | some (.tag handle suffix) =>
    skip
    if handle = "" then return some suffix
    let some meaning := (← get).handles.lookup handle | failure
    return some (meaning ++ suffix)
  | _ => return none

/-- An anchor and a tag, in either order. -/
def properties : Read Properties := do
  match ← anchor? with
  | some anchor => return ⟨some anchor, ← tag?⟩
  | none =>
    let tag ← tag?
    return ⟨← if tag.isSome then anchor? else pure none, tag⟩

/-- Takes up an anchor, whose number is the count of names known so far. The result is its place among
the anchored nodes. -/
def beginAnchored (name : String) : Read Nat := do
  let r ← get
  let number := r.numbers.length
  set { r with
    numbers := (name, number) :: r.numbers.filter (·.1 != name)
    anchored := r.anchored ++ [(number, emptyLeaf none)] }
  return r.anchored.length

def endAnchored (place : Nat) (tree : Tree) : Read Unit :=
  modify fun r => { r with anchored := r.anchored.modify place fun (number, _) => (number, tree) }

/-- The node that a name refers to; its anchor has to come before. -/
def reference (name : String) : Read Tree := do
  let some number := (← get).numbers.lookup name | failure
  return .reference number

/-! ## Nodes -/

mutual

/-- A node. Only in a block a block collection can follow, and only below a key a sequence that is not
indented. -/
def node (inBlock unindented : Bool) : Nat → Read Tree
  | 0 => failure
  | fuel + 1 => do
    match ← peek with
    | some (.reference name) =>
      skip
      reference name
    | _ =>
      let properties ← properties
      match properties.anchor with
      | some name =>
        let place ← beginAnchored name
        let tree ← content inBlock unindented properties fuel
        endAnchored place tree
        return tree
      | none => content inBlock unindented properties fuel

def content (inBlock unindented : Bool) (properties : Properties) : Nat → Read Tree
  | 0 => failure
  | fuel + 1 => do
    match ← peek, inBlock, unindented with
    | some .entry, _, true => return .list (← unindentedItems fuel)
    | some (.scalar text style), _, _ =>
      skip
      return .leaf (.scalar text style (properties.tag.filter (· != "!")))
    | some .flowSequence, _, _ =>
      skip
      return .list (← flowItems true fuel)
    | some .flowMapping, _, _ =>
      skip
      return .map (← flowEntries true fuel)
    | some .blockSequence, true, _ =>
      skip
      return .list (← blockItems fuel)
    | some .blockMapping, true, _ =>
      skip
      return .map (← blockEntries fuel)
    | _, _, _ =>
      if properties.anchor.isNone ∧ properties.tag.isNone then failure
      return emptyLeaf properties.tag

/-- A node, or an empty one in front of certain tokens. -/
def nodeUnless (tokens : List Token) (inBlock unindented : Bool) : Nat → Read Tree
  | 0 => failure
  | fuel + 1 => do
    if ← nextIs tokens then return emptyLeaf none
    else node inBlock unindented fuel

/-- A value behind its colon, or an empty one. -/
def valueUnless (tokens : List Token) (inBlock : Bool) : Nat → Read Tree
  | 0 => failure
  | fuel + 1 => do
    if ← nextIs [.value] then
      skip
      nodeUnless tokens inBlock inBlock fuel
    else return emptyLeaf none

def blockItems : Nat → Read (List Tree)
  | 0 => failure
  | fuel + 1 => do
    match ← peek with
    | some .entry =>
      skip
      let item ← nodeUnless [.entry, .blockEnd] true false fuel
      return item :: (← blockItems fuel)
    | some .blockEnd =>
      skip
      return []
    | _ => failure

def unindentedItems : Nat → Read (List Tree)
  | 0 => failure
  | fuel + 1 => do
    match ← peek with
    | some .entry =>
      skip
      let item ← nodeUnless [.entry, .key, .value, .blockEnd] true false fuel
      return item :: (← unindentedItems fuel)
    | _ => return []

def blockEntries : Nat → Read (List (Tree × Tree))
  | 0 => failure
  | fuel + 1 => do
    match ← peek with
    | some .key =>
      skip
      let key ← nodeUnless [.key, .value, .blockEnd] true true fuel
      let value ← valueUnless [.key, .value, .blockEnd] true fuel
      return (key, value) :: (← blockEntries fuel)
    | some .blockEnd =>
      skip
      return []
    | _ => failure

/-- The items of a flow sequence. A key among them makes an item a mapping of its own. -/
def flowItems (isFirst : Bool) : Nat → Read (List Tree)
  | 0 => failure
  | fuel + 1 => do
    if ← nextIs [.flowSequenceEnd] then
      skip
      return []
    if !isFirst then
      if ← nextIs [.flowEntry] then skip else failure
    match ← peek with
    | some .flowSequenceEnd =>
      skip
      return []
    | some .key =>
      skip
      let item ← pair fuel
      return item :: (← flowItems false fuel)
    | _ =>
      let item ← node false false fuel
      return item :: (← flowItems false fuel)

/-- A mapping of one entry. Without a key, the token behind its sign does not count. -/
def pair : Nat → Read Tree
  | 0 => failure
  | fuel + 1 => do
    let key ←
      if ← nextIs [.value, .flowEntry, .flowSequenceEnd] then
        skip
        pure (emptyLeaf none)
      else node false false fuel
    return .map [(key, ← valueUnless [.flowEntry, .flowSequenceEnd] false fuel)]

def flowEntries (isFirst : Bool) : Nat → Read (List (Tree × Tree))
  | 0 => failure
  | fuel + 1 => do
    if ← nextIs [.flowMappingEnd] then
      skip
      return []
    if !isFirst then
      if ← nextIs [.flowEntry] then skip else failure
    match ← peek with
    | some .flowMappingEnd =>
      skip
      return []
    | some .key =>
      skip
      let key ← nodeUnless [.value, .flowEntry, .flowMappingEnd] false false fuel
      let value ← valueUnless [.flowEntry, .flowMappingEnd] false fuel
      return (key, value) :: (← flowEntries false fuel)
    | _ =>
      let key ← node false false fuel
      return (key, emptyLeaf none) :: (← flowEntries false fuel)

end

/-! ## Documents -/

def standardHandles : List (String × String) := [("!", "!"), ("!!", standardTag "")]

/-- The directives in front of a document: a version at most once, and handles. -/
def directives : List Token → Option Nat → List (String × String) →
    Option (List Token × List (String × String) × Bool)
  | .version major minor :: rest, version, handles =>
    if version.isSome || major != 1 || (minor != 1 && minor != 2) then none
    else directives rest (some minor) handles
  | .tagHandle handle meaning :: rest, version, handles =>
    if (handles.lookup handle).isSome then none
    else directives rest version ((handle, meaning) :: handles)
  | tokens, version, handles => some (tokens, handles, version.isSome || !handles.isEmpty)

/-- The root of a document, up to the end of the text. A document that is announced may be empty. -/
def root (announced : Bool) (fuel : Nat) : Read Tree := do
  let isMissing ← do
    match ← peek with
    | none | some .documentEnd | some .documentStart | some (.version _ _)
    | some (.tagHandle _ _) => pure announced
    | _ => pure false
  let tree ← if isMissing then pure (emptyLeaf none) else node true false fuel
  if ((← get).tokens.dropWhile (· == .documentEnd)).isEmpty then return tree else failure

end Read

/-- The document that tokens make up. -/
def ofTokens? (tokens : List Token) : Option Document := do
  let (rest, handles, hasDirectives) ← Read.directives tokens none []
  let announced := rest.head? == some .documentStart
  if hasDirectives && !announced then failure
  if rest.isEmpty then return ⟨none, []⟩
  let reading : Reading :=
    ⟨if announced then rest.tail else rest, handles ++ Read.standardHandles, [], []⟩
  let (root, reading) ← (Read.root announced (4 * tokens.length + 8)).run reading
  return ⟨some root, reading.anchored⟩

/-- The document that a YAML text holds. -/
def document? (text : String) : Option Document := (tokens? text).bind ofTokens?

end LineConsole.Yaml
