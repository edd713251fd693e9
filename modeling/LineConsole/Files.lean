import LineConsole.Fault
import LineConsole.Files.Path
import LineConsole.Text.Utf8

/-! # Files and directories

A tree of files as a list of places, each a file with its bytes or a directory. A path is walked name
by name, from the root or from the working directory; every name but the last has to be a directory.
-/

namespace LineConsole

inductive Node where
  | file (bytes : List UInt8)
  | directory
  deriving DecidableEq, Repr

structure Files where
  /-- What is found at each place; the root is a directory without being listed. -/
  nodes : List (List String × Node)
  /-- The working directory, from the root down. -/
  current : List String
  deriving DecidableEq, Repr

namespace Files

/-- A tree that holds the working directory and nothing else. -/
def empty : Files := ⟨[(["work"], .directory)], ["work"]⟩

def nodeAt? (files : Files) (place : List String) : Option Node :=
  if place = [] then some .directory else files.nodes.lookup place

def put (files : Files) (place : List String) (node : Node) : Files :=
  { files with nodes := (place, node) :: files.nodes.filter (·.1 != place) }

/-- The place that a name leads to from a directory. -/
def step (place : List String) (name : String) : List String :=
  if name = "." then place else if name = ".." then place.dropLast else place ++ [name]

/-- Walks from a place, which has to be a directory as long as names are left. The last name may be
missing. -/
def walk (files : Files) (place : List String) : List String → Except IoFault (List String)
  | [] => .ok place
  | name :: rest =>
    match files.nodeAt? place with
    | some .directory =>
      if 255 < name.utf8ByteSize then .error .nameTooLong
      else walk files (step place name) rest
    | some (.file _) => .error .notDirectory
    | none => .error .notFound

/-- The place that a path leads to. -/
def place (files : Files) (path : String) : Except IoFault (List String) :=
  let cs := path.toList
  if cs.contains '\x00' then .error .nulInPath
  else if cs = [] then .error .notFound
  else if 4096 ≤ path.utf8ByteSize then .error .nameTooLong
  else files.walk (if cs.head? = some '/' then [] else files.current) (Path.components cs)

def lookup (files : Files) (path : String) : Except IoFault Node := do
  let place ← files.place path
  match files.nodeAt? place with
  | some node => .ok node
  | none => .error .notFound

def isFile (files : Files) (path : String) : Bool :=
  match files.lookup path with
  | .ok (.file _) => true
  | _ => false

def isPresent (files : Files) (path : String) : Bool := (files.lookup path).isOk

/-- The bytes of a file. -/
def read (files : Files) (path : String) : Except IoFault (List UInt8) := do
  match ← files.lookup path with
  | .file bytes => .ok bytes
  | .directory => .error .isDirectory

/-- The text of a file, which has to be UTF-8. -/
def readText (files : Files) (path : String) : Except IoFault String := do
  match Text.decodeUtf8 (← files.read path) with
  | some text => .ok text
  | none => .error .invalidUtf8

/-- Replaces a file or makes a new one in a directory that is there. -/
def write (files : Files) (path : String) (bytes : List UInt8) : Except IoFault Files := do
  let place ← files.place path
  match files.nodeAt? place with
  | some (.file _) => .ok (files.put place (.file bytes))
  | some .directory => .error .isDirectory
  | none =>
    if files.nodeAt? place.dropLast = some .directory then .ok (files.put place (.file bytes))
    else .error .notFound

/-- Makes the directories on a way that are missing. -/
def makeWay (files : Files) (place : List String) : List String → Except IoFault Files
  | [] => .ok files
  | name :: rest =>
    let next := step place name
    match files.nodeAt? next with
    | some .directory => makeWay files next rest
    | some (.file _) => .error (if rest = [] then .exists else .notDirectory)
    | none =>
      if 255 < name.utf8ByteSize then .error .nameTooLong
      else makeWay (files.put next .directory) next rest

/-- Makes a directory together with the ones above it. -/
def makeDirectories (files : Files) (path : String) : Except IoFault Files :=
  let cs := path.toList
  if cs.contains '\x00' then .error .nulInPath
  else files.makeWay (if cs.head? = some '/' then [] else files.current) (Path.components cs)

/-- Makes the directory that a path lies in, if the path names one. -/
def makeParent (files : Files) (path : String) : Except IoFault Files :=
  match Path.parent? path.toList with
  | none | some [] => .ok files
  | some above => files.makeDirectories (String.ofList above)

end Files

end LineConsole
