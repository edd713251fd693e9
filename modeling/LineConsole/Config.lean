import LineConsole.LogRecord
import LineConsole.History

/-! # Configuration

The settings of the program in three sections, the values that hold if nothing is configured, and how
the settings of a further file are merged into those of the files before it.
-/

namespace LineConsole

inductive LogFormat where
  | pretty | json | compact
  deriving DecidableEq, Repr

/-- The word for a level in a configuration. -/
def LogLevel.word : LogLevel → String
  | .trace => "trace" | .debug => "debug" | .info => "info" | .warn => "warn" | .error => "error"

def LogLevel.ofWord? (word : String) : Option LogLevel :=
  [LogLevel.trace, .debug, .info, .warn, .error].find? (·.word = word)

/-- The word for a format in a configuration. -/
def LogFormat.word : LogFormat → String
  | .pretty => "pretty" | .json => "json" | .compact => "compact"

def LogFormat.ofWord? (word : String) : Option LogFormat :=
  [LogFormat.pretty, .json, .compact].find? (·.word = word)

structure ConsoleSettings where
  /-- Shown in front of every line that is typed. -/
  prompt : String := "> "
  /-- Whether names of commands have to match in case. -/
  caseSensitive : Bool := false
  /-- Whether `$name` has a meaning. -/
  usesVariables : Bool := true
  /-- Whether keys are decoded from the bytes that a terminal sends. -/
  vtInput : Bool := false
  /-- Given to script paths without an extension. -/
  scriptExtension : String := "lsf"
  deriving DecidableEq, Repr

structure HistorySettings where
  enabled : Bool := true
  /-- A leading `~` stands for the home directory. -/
  file : String := "~/.lsc_history"
  maxEntries : Nat := History.standardCapacity
  deriving DecidableEq, Repr

structure LoggingSettings where
  level : LogLevel := .warn
  format : LogFormat := .pretty
  /-- Further directives behind the level. -/
  filter : String := ""
  deriving DecidableEq, Repr

structure Config where
  console : ConsoleSettings := {}
  history : HistorySettings := {}
  logging : LoggingSettings := {}
  deriving DecidableEq, Repr

/-- What decides which records are kept: the level and then the filter, if there is one. -/
def LoggingSettings.directives (s : LoggingSettings) : String :=
  if s.filter = "" then s.level.word else s.level.word ++ "," ++ s.filter

/-- A leading `~` that stands alone or before a slash is the home directory, if that is known. -/
def expandHome (home : Option String) (path : String) : String :=
  match home, path.toList with
  | some home, ['~'] => home
  | some home, '~' :: '/' :: rest => home ++ String.ofList ('/' :: rest)
  | _, _ => path

def HistorySettings.path (s : HistorySettings) (home : Option String) : String :=
  expandHome home s.file

/-- The upper value, unless it is the standard one. -/
def overlay {α : Type} [DecidableEq α] (standard lower upper : α) : α :=
  if upper = standard then lower else upper

namespace ConsoleSettings

/-- Each setting of its own. -/
def merge (lower upper : ConsoleSettings) : ConsoleSettings :=
  let standard : ConsoleSettings := {}
  { prompt := overlay standard.prompt lower.prompt upper.prompt
    caseSensitive := overlay standard.caseSensitive lower.caseSensitive upper.caseSensitive
    usesVariables := overlay standard.usesVariables lower.usesVariables upper.usesVariables
    vtInput := overlay standard.vtInput lower.vtInput upper.vtInput
    scriptExtension := overlay standard.scriptExtension lower.scriptExtension upper.scriptExtension }

end ConsoleSettings

/-- The settings of a further file over those of the files before it. The history and the logging
section are taken as a whole. -/
def Config.merge (lower upper : Config) : Config :=
  { console := lower.console.merge upper.console
    history := overlay {} lower.history upper.history
    logging := overlay {} lower.logging upper.logging }

end LineConsole
