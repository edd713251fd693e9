import LineConsole.Config.Layer
import LineConsole.Document.Json
import LineConsole.Document.Yaml
import LineConsole.Environment
import LineConsole.Files
import LineConsole.Text.Blank

/-! # Loading a configuration

A configuration comes from one file that is named, or from all files of a search path, the later over
the earlier; environment variables come last. In a file, `${name}` stands for the value of an
environment variable before the file is read as JSON or YAML.
-/

namespace LineConsole

inductive ConfigFault where
  | unreadable (path : String) (fault : IoFault)
  | malformedYaml
  | malformedJson
  /-- An environment variable has a value that its setting cannot have. -/
  | invalidValue (name value : String)
  deriving DecidableEq, Repr

def ConfigFault.message : ConfigFault → String
  | .unreadable path fault => "Failed to read config file " ++ path ++ ": " ++ fault.message
  | .malformedYaml => "Failed to parse YAML"
  | .malformedJson => "Failed to parse JSON"
  | .invalidValue name value => "Invalid config value for " ++ name ++ ": " ++ value

/-- Where the settings come from, unless the environment names a file. -/
inductive ConfigSource where
  | standard
  | file (path : String)
  | search (paths : List String)
  deriving DecidableEq, Repr

/-! ## Variables in files -/

/-- The name between braces at the start of a text, which is not empty, and what follows. -/
def bracedName? (cs : List Char) : Option (String × List Char) :=
  let name := cs.takeWhile (· != '\x7d')
  match cs.drop name.length with
  | '\x7d' :: rest => if name = [] then none else some (String.ofList name, rest)
  | _ => none

theorem bracedName?_shorter {cs rest : List Char} {name : String}
    (found : bracedName? cs = some (name, rest)) : rest.length < cs.length := by
  dsimp only [bracedName?] at found
  split at found
  · next split =>
    split at found
    · exact absurd found (by simp)
    · obtain ⟨-, rfl⟩ := Prod.mk.injEq .. ▸ Option.some.injEq .. ▸ found
      have := congrArg List.length split
      simp only [List.length_drop, List.length_cons] at this
      omega
  · exact absurd found (by simp)

/-- A text in pieces: characters, and names of variables. -/
def variablePieces (cs : List Char) : List (Char ⊕ String) :=
  match cs with
  | '$' :: '\x7b' :: rest =>
    match found : bracedName? rest with
    | some (name, after) =>
      have := bracedName?_shorter found
      .inr name :: variablePieces after
    | none => .inl '$' :: variablePieces ('\x7b' :: rest)
  | c :: rest => .inl c :: variablePieces rest
  | [] => []
termination_by cs.length
decreasing_by all_goals simp only [List.length_cons]; omega

/-- The variables that a text names. -/
def variableNames (text : String) : List String :=
  (variablePieces text.toList).filterMap Sum.getRight?

/-- The text with the values of variables in place of their names; one that is not set is empty. -/
def expandVariables (env : Environment) (text : String) : String :=
  String.join ((variablePieces text.toList).map fun
    | .inl c => String.singleton c
    | .inr name => (env.get? name).getD "")

/-! ## Files -/

namespace Config

/-- The layer that the text of a file holds; the extension `json` tells JSON from YAML. -/
def readLayer (env : Environment) (path text : String) : Except ConfigFault Layer :=
  let text := expandVariables env text
  if Path.extension? path.toList = some "json".toList then
    match (Json.document? text).bind Document.layer? with
    | some layer => .ok layer
    | none => .error .malformedJson
  else
    match (Yaml.document? text).bind Document.layer? with
    | some layer => .ok layer
    | none => .error .malformedYaml

/-- The settings of one file, which has to be readable. -/
def ofFile (files : Files) (env : Environment) (path : String) : Except ConfigFault Config :=
  match files.readText path with
  | .error fault => .error (.unreadable path fault)
  | .ok text => (readLayer env path text).map Layer.config

/-- The layers of the files that can be read, in order. -/
def layersOf (files : Files) (env : Environment) : List String → Except ConfigFault (List Layer)
  | [] => .ok []
  | path :: rest =>
    match files.readText path with
    | .error _ => layersOf files env rest
    | .ok text => do
      let layer ← readLayer env path text
      return layer :: (← layersOf files env rest)

/-- Layers over the standard configuration, the later over the earlier. -/
def ofLayers (layers : List Layer) : Config :=
  layers.foldl (fun config layer => config.merge layer.config) {}

def ofFiles (files : Files) (env : Environment) (paths : List String) : Except ConfigFault Config :=
  (layersOf files env paths).map ofLayers

/-- The home directory, if the environment tells it. -/
def home? (env : Environment) : Option String := (env.get? "HOME").filter (· != "")

/-- A path below a directory. -/
def below (directory path : String) : String :=
  if directory.toList.getLast? = some '/' then directory ++ path else directory ++ "/" ++ path

/-- The files of the system, of the user and of the working directory. -/
def standardPaths (env : Environment) : List String :=
  "/etc/lsc/lsc.yaml" ::
    (((home? env).map (below · ".config/lsc/lsc.yaml")).toList ++ ["./lsc.yaml"])

/-! ## The environment -/

/-- The spellings of a truth value in the environment. -/
def readSwitch? (value : String) : Option Bool :=
  let word := String.ofList ((Text.trim value.toList).map Char.toLower)
  if ["1", "true", "yes", "on"].contains word then some true
  else if ["0", "false", "no", "off"].contains word then some false
  else none

/-- The spellings of a level in the environment: any YAML text that says a level. -/
def readLevel? (value : String) : Option LogLevel := do
  let document ← Yaml.document? value
  document.level? (← document.root)

/-- Changes a configuration by a variable, if it is set. -/
def override {α : Type} (env : Environment) (name : String) (read : String → Option α)
    (change : Config → α → Config) (config : Config) : Except ConfigFault Config :=
  match env.get? name with
  | none => .ok config
  | some value =>
    match read value with
    | some a => .ok (change config a)
    | none => .error (.invalidValue name value)

/-- Every setting that an environment variable overrides. -/
def overrideAll (env : Environment) (config : Config) : Except ConfigFault Config := do
  let config ← override env "LSC_PROMPT" some
    (fun c prompt => { c with console.prompt := prompt }) config
  let config ← override env "LSC_CASE_SENSITIVE" readSwitch?
    (fun c caseSensitive => { c with console.caseSensitive := caseSensitive }) config
  let config ← override env "LSC_VARIABLES" readSwitch?
    (fun c usesVariables => { c with console.usesVariables := usesVariables }) config
  let config ← override env "LSC_VT_INPUT" readSwitch?
    (fun c vtInput => { c with console.vtInput := vtInput }) config
  let config ← override env "LSC_HISTORY_FILE" some
    (fun c file => { c with history.file := file }) config
  override env "LSC_LOG_LEVEL" readLevel?
    (fun c level => { c with logging.level := level }) config

/-- The variables that loading a configuration asks for by itself. -/
def ownVariables : List String :=
  ["HOME", "LSC_CONFIG", "LSC_PROMPT", "LSC_CASE_SENSITIVE", "LSC_VARIABLES", "LSC_VT_INPUT",
    "LSC_HISTORY_FILE", "LSC_LOG_LEVEL"]

/-- The files that are tried. -/
def paths (env : Environment) (source : ConfigSource) : List String :=
  match env.get? "LSC_CONFIG", source with
  | some path, _ | none, .file path => [path]
  | none, .search paths => paths
  | none, .standard => standardPaths env

/-- The configuration before the environment overrides it. -/
def ofSource (files : Files) (env : Environment) (source : ConfigSource) :
    Except ConfigFault Config :=
  match env.get? "LSC_CONFIG", source with
  | some path, _ | none, .file path => ofFile files env path
  | none, .search paths => ofFiles files env paths
  | none, .standard => ofFiles files env (standardPaths env)

def load (files : Files) (env : Environment) (source : ConfigSource) : Except ConfigFault Config :=
  (ofSource files env source).bind (overrideAll env)

end Config

end LineConsole
