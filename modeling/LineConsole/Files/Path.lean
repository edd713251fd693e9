/-! # Paths

A path is names between slashes. Its extension is what follows the last full stop of its last name,
unless that full stop is the name's first character. The names `.` and `..` lead nowhere new, so they
are not file names.
-/

namespace LineConsole.Path

/-- The path without slashes and `/.` at its end, given last character first. -/
def trimReversed : List Char → List Char
  | '/' :: rest => trimReversed rest
  | '.' :: '/' :: rest => trimReversed rest
  | cs => cs

def trimmed (path : List Char) : List Char := (trimReversed path.reverse).reverse

/-- What follows the last slash. -/
def lastName (path : List Char) : List Char :=
  ((trimmed path).reverse.takeWhile (· != '/')).reverse

/-- The last name, if it names something of its own. -/
def fileName? (path : List Char) : Option (List Char) :=
  let name := lastName path
  if name = [] ∨ name = ['.'] ∨ name = ['.', '.'] then none else some name

/-- What follows the last full stop of a name that does not start there. -/
def extensionOf? (name : List Char) : Option (List Char) :=
  let ending := name.reverse.takeWhile (· != '.')
  if name.length ≤ ending.length + 1 then none else some ending.reverse

def extension? (path : List Char) : Option (List Char) := (fileName? path).bind extensionOf?

/-- Gives a path with a file name but without an extension this one. -/
def withDefaultExtension (extension : String) (path : String) : String :=
  let cs := path.toList
  if (extension? cs).isSome || extension.isEmpty || (fileName? cs).isNone then path
  else String.ofList (trimmed cs ++ '.' :: extension.toList)

/-- The names and dots of a path, in order; a slash at the end leaves a last `.`. -/
def components (path : List Char) : List String :=
  (path.splitOn '/').map fun name => if name = [] then "." else String.ofList name

/-- The path of the directory that holds the last name. -/
def parent? (path : List Char) : Option (List Char) :=
  let cs := trimmed path
  if cs = [] then none
  else
    let above := trimmed (cs.take (cs.length - (lastName path).length))
    some (if above = [] ∧ cs.head? = some '/' then ['/'] else above)

end LineConsole.Path
