import LineConsole.Config
import LineConsole.Document

/-! # What a configuration file sets

A layer holds the settings that a document gives a value to, and no others. Keys that no setting has
do not count, but a key may stand only once in its section, and every value has to be of its kind.
-/

namespace LineConsole

structure ConsoleLayer where
  prompt : Option String := none
  caseSensitive : Option Bool := none
  usesVariables : Option Bool := none
  vtInput : Option Bool := none
  scriptExtension : Option String := none
  deriving DecidableEq, Repr

structure HistoryLayer where
  enabled : Option Bool := none
  file : Option String := none
  maxEntries : Option Nat := none
  deriving DecidableEq, Repr

structure LoggingLayer where
  level : Option LogLevel := none
  format : Option LogFormat := none
  filter : Option String := none
  deriving DecidableEq, Repr

structure Layer where
  console : ConsoleLayer := {}
  history : HistoryLayer := {}
  logging : LoggingLayer := {}
  deriving DecidableEq, Repr

/-! ## Layers over the standard settings -/

def ConsoleLayer.settings (l : ConsoleLayer) : ConsoleSettings :=
  let standard : ConsoleSettings := {}
  { prompt := l.prompt.getD standard.prompt
    caseSensitive := l.caseSensitive.getD standard.caseSensitive
    usesVariables := l.usesVariables.getD standard.usesVariables
    vtInput := l.vtInput.getD standard.vtInput
    scriptExtension := l.scriptExtension.getD standard.scriptExtension }

def HistoryLayer.settings (l : HistoryLayer) : HistorySettings :=
  let standard : HistorySettings := {}
  { enabled := l.enabled.getD standard.enabled
    file := l.file.getD standard.file
    maxEntries := l.maxEntries.getD standard.maxEntries }

def LoggingLayer.settings (l : LoggingLayer) : LoggingSettings :=
  let standard : LoggingSettings := {}
  { level := l.level.getD standard.level
    format := l.format.getD standard.format
    filter := l.filter.getD standard.filter }

/-- The configuration in which a layer is all that was configured. -/
def Layer.config (l : Layer) : Config :=
  ⟨l.console.settings, l.history.settings, l.logging.settings⟩

/-! ## Layers of documents -/

namespace Document

open Document (read?)

def level? (d : Document) (tree : Tree) : Option LogLevel :=
  (d.choice? tree).bind LogLevel.ofWord?

def format? (d : Document) (tree : Tree) : Option LogFormat :=
  (d.choice? tree).bind LogFormat.ofWord?

def consoleLayer? (d : Document) (tree : Tree) : Option ConsoleLayer := do
  let fields ← d.fields?
    ["prompt", "case_sensitive", "variables", "vt_input", "script_extension"] tree
  return {
    prompt := ← read? fields "prompt" d.text?
    caseSensitive := ← read? fields "case_sensitive" d.truth?
    usesVariables := ← read? fields "variables" d.truth?
    vtInput := ← read? fields "vt_input" d.truth?
    scriptExtension := ← read? fields "script_extension" d.text? }

def historyLayer? (d : Document) (tree : Tree) : Option HistoryLayer := do
  let fields ← d.fields? ["enabled", "file", "max_entries"] tree
  return {
    enabled := ← read? fields "enabled" d.truth?
    file := ← read? fields "file" d.text?
    maxEntries := ← read? fields "max_entries" d.count? }

def loggingLayer? (d : Document) (tree : Tree) : Option LoggingLayer := do
  let fields ← d.fields? ["level", "format", "filter"] tree
  return {
    level := ← read? fields "level" d.level?
    format := ← read? fields "format" d.format?
    filter := ← read? fields "filter" d.text? }

/-- The layer of a document; an empty document sets nothing. -/
def layer? (d : Document) : Option Layer :=
  match d.root with
  | none => some {}
  | some tree => do
    let sections ← d.fields? ["console", "history", "logging"] tree
    return {
      console := (← read? sections "console" d.consoleLayer?).getD {}
      history := (← read? sections "history" d.historyLayer?).getD {}
      logging := (← read? sections "logging" d.loggingLayer?).getD {} }

end Document

end LineConsole
