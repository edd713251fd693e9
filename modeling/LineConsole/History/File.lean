import LineConsole.Files
import LineConsole.History
import LineConsole.Text.Lines

/-! # Histories in files

A history file holds one line per entry. Reading adds its lines to a history up to the first that is
not UTF-8; a file that is missing has none.
-/

namespace LineConsole.History

/-- The lines up to the first that cannot be decoded, and whether all could. -/
def decodeLines : List (List UInt8) → List String × Except IoFault Unit
  | [] => ([], .ok ())
  | line :: rest =>
    match Text.decodeUtf8 line with
    | none => ([], .error .invalidUtf8)
    | some text =>
      let (texts, result) := decodeLines rest
      (text :: texts, result)

/-- Adds what the bytes of a history file hold. -/
def addBytes (h : History) (bytes : List UInt8) : History × Except IoFault Unit :=
  let (texts, result) := decodeLines (Text.byteLines bytes)
  (h.addAll texts, result)

def load (h : History) (files : Files) (path : String) : History × Except IoFault Unit :=
  match files.read path with
  | .ok bytes => h.addBytes bytes
  | .error .notFound => (h, .ok ())
  | .error fault => (h, .error fault)

/-- Every entry followed by a line feed. -/
def fileBytes (h : History) : List UInt8 := h.entries.flatMap fun line => Text.encodeUtf8 line ++ [10]

/-- Writes the entries, making the directory of the file first. -/
def save (h : History) (files : Files) (path : String) : Files × Except IoFault Unit :=
  match files.makeParent path with
  | .error fault => (files, .error fault)
  | .ok files =>
    match files.write path h.fileBytes with
    | .ok files => (files, .ok ())
    | .error fault => (files, .error fault)

end LineConsole.History
