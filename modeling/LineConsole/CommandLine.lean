/-! # The command line

What the arguments of the program ask for. Options and names of scripts may be mixed; behind `--` every
argument names a script. An option that was given a value is complete only when the next option or
script comes, so a mistake in between is reported first.
-/

namespace LineConsole

/-- The options of the program. -/
inductive Switch where
  | command | config | debug | vt | noVariables | caseSensitive | help | version
  deriving DecidableEq, Repr

namespace Switch

def all : List Switch :=
  [.command, .config, .debug, .vt, .noVariables, .caseSensitive, .help, .version]

def long? : Switch → Option String
  | .command => none | .config => some "config" | .debug => some "debug" | .vt => some "vt"
  | .noVariables => some "no-variables" | .caseSensitive => some "case-sensitive"
  | .help => some "help" | .version => some "version"

def short? : Switch → Option Char
  | .command => some 'c' | .debug => some 'd' | .help => some 'h' | .version => some 'V'
  | _ => none

/-- What the value of an option is called, if it takes one. -/
def valueName? : Switch → Option String
  | .command => some "COMMAND" | .config => some "CONFIG"
  | _ => none

def takesValue (s : Switch) : Bool := s.valueName?.isSome

/-- How messages show an option: by its long name if it has one, with its value. -/
def text (s : Switch) : String :=
  let name := match s.long?, s.short? with
    | some long, _ => "--" ++ long
    | none, some short => "-" ++ String.singleton short
    | none, none => ""
  match s.valueName? with
  | some value => name ++ " <" ++ value ++ ">"
  | none => name

def ofLong? (name : String) : Option Switch := all.find? (·.long? = some name)

def ofShort? (c : Char) : Option Switch := all.find? (·.short? = some c)

end Switch

/-- What is wrong with the arguments. -/
inductive UsageFault where
  | unexpectedArgument (argument : String)
  | unexpectedValue (value argument : String)
  | missingValue (argument : String)
  | repeated (argument : String)
  deriving DecidableEq, Repr

def UsageFault.message : UsageFault → String
  | .unexpectedArgument argument => "unexpected argument '" ++ argument ++ "' found"
  | .unexpectedValue value argument =>
    "unexpected value '" ++ value ++ "' for '" ++ argument ++ "' found; no more were expected"
  | .missingValue argument =>
    "a value is required for '" ++ argument ++ "' but none was supplied"
  | .repeated argument => "the argument '" ++ argument ++ "' cannot be used multiple times"

/-- What is to be run. -/
structure Invocation where
  scripts : List String := []
  /-- A line that is executed after the scripts. -/
  command : Option String := none
  /-- The only configuration file. -/
  config : Option String := none
  flags : List Switch := []
  deriving DecidableEq, Repr

/-- Nothing to execute, so lines are to be typed. -/
def Invocation.isInteractive (i : Invocation) : Bool := i.scripts.isEmpty && i.command.isNone

/-- What the arguments ask for. -/
inductive Request where
  | run (invocation : Invocation)
  | showHelp
  | showVersion
  deriving DecidableEq, Repr

namespace CommandLine

/-- What came last and is not taken up yet. -/
inductive Pending where
  | none
  /-- An option that takes a value, with the value if that came already. -/
  | option (option : Switch) (value : Option String)
  | script (path : String)
  deriving DecidableEq, Repr

structure Progress where
  invocation : Invocation
  pending : Pending
  deriving DecidableEq, Repr

/-- How messages show the names of scripts. -/
def scriptsText : String := "[SCRIPTS]..."

/-- Takes up an option with its value, which it may have only once. -/
def setValue (i : Invocation) (option : Switch) (value : String) : Except UsageFault Invocation :=
  match option with
  | .command =>
    if i.command.isSome then .error (.repeated option.text) else .ok { i with command := value }
  | .config =>
    if i.config.isSome then .error (.repeated option.text) else .ok { i with config := value }
  | _ => .error (.unexpectedValue value option.text)

/-- Takes up what is pending. A script has to have a name. -/
def settle (p : Progress) : Except UsageFault Invocation :=
  match p.pending with
  | .none => .ok p.invocation
  | .option option none => .error (.missingValue option.text)
  | .option option (some value) => setValue p.invocation option value
  | .script path =>
    if path = "" then .error (.missingValue scriptsText)
    else .ok { p.invocation with scripts := p.invocation.scripts ++ [path] }

/-- Leaves the arguments early. -/
inductive Stop where
  | fault (fault : UsageFault)
  | help
  | version
  deriving DecidableEq, Repr

/-- An option without a value takes effect at once. -/
def setFlag (p : Progress) (option : Switch) : Except Stop Progress := do
  let i ← (settle p).mapError .fault
  match option with
  | .help => .error .help
  | .version => .error .version
  | _ =>
    if i.flags.contains option then .error (.fault (.repeated option.text))
    else .ok ⟨{ i with flags := i.flags ++ [option] }, .none⟩

/-- An option that takes a value, with the value if it is attached. -/
def beginOption (p : Progress) (option : Switch) (attached : Option String) :
    Except Stop Progress := do
  let i ← (settle p).mapError .fault
  match attached with
  | some value => return ⟨← (setValue i option value).mapError .fault, .none⟩
  | none => return ⟨i, .option option none⟩

/-- The name of a long option and the value behind an equals sign. -/
def splitLong (cs : List Char) : String × Option String :=
  let name := cs.takeWhile (· != '=')
  (String.ofList name, match cs.drop name.length with
    | _ :: value => some (String.ofList value)
    | [] => none)

def readLong (p : Progress) (cs : List Char) : Except Stop Progress :=
  let (name, value) := splitLong cs
  match Switch.ofLong? name with
  | none => .error (.fault (.unexpectedArgument ("--" ++ name)))
  | some option =>
    if option.takesValue then beginOption p option value
    else
      match value with
      | some value => .error (.fault (.unexpectedValue value option.text))
      | none => setFlag p option

/-- Letters behind one dash. What follows the letter of an option with a value is its value, an equals
sign between them left out. -/
def readShort (p : Progress) : List Char → Except Stop Progress
  | [] => .ok p
  | c :: rest =>
    match Switch.ofShort? c with
    | none => .error (.fault (.unexpectedArgument ("-" ++ String.singleton c)))
    | some option =>
      if option.takesValue then
        beginOption p option (match rest with
          | [] => none
          | '=' :: value => some (String.ofList value)
          | value => some (String.ofList value))
      else do readShort (← setFlag p option) rest

def readScript (p : Progress) (path : String) : Except Stop Progress := do
  return ⟨← (settle p).mapError .fault, .script path⟩

/-- An argument in front of `--`. -/
def readArgument (p : Progress) (argument : String) : Except Stop Progress :=
  match argument.toList, p.pending with
  | '-' :: '-' :: name, _ => readLong p name
  | '-' :: c :: letters, _ => readShort p (c :: letters)
  | _, .option option none => .ok { p with pending := .option option (some argument) }
  | _, _ => readScript p argument

def readAll (p : Progress) : List String → Except Stop Progress
  | [] => .ok p
  | "--" :: scripts => scripts.foldlM readScript p
  | argument :: rest => do readAll (← readArgument p argument) rest

/-- What the arguments ask for, or the first thing that is wrong with them. -/
def read (arguments : List String) : Except UsageFault Request :=
  match readAll ⟨{}, .none⟩ arguments with
  | .error (.fault fault) => .error fault
  | .error .help => .ok .showHelp
  | .error .version => .ok .showVersion
  | .ok p => (settle p).map .run

def versionText : String := "lsc 0.1.0\n"

def helpLines : List String :=
  ["lsc - Embeddable interactive command console with a line script notation",
    "",
    "Usage: lsc [OPTIONS] [SCRIPTS]...",
    "",
    "Arguments:",
    "  [SCRIPTS]...  Script files to execute, in order",
    "",
    "Options:",
    "  -c <COMMAND>           Execute one line and exit",
    "      --config <CONFIG>  Configuration file (replaces the default search path)",
    "  -d, --debug            Log at debug level",
    "      --vt               Read raw stdin bytes and decode VT escape sequences",
    "      --no-variables     Disable `$name` variables",
    "      --case-sensitive   Match command names case-sensitively",
    "  -h, --help             Print help",
    "  -V, --version          Print version"]

def helpText : String := String.join (helpLines.map (· ++ "\n"))

end CommandLine

end LineConsole
