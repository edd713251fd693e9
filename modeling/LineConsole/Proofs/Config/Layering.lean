import LineConsole.Config.Loading
import Mathlib.Logic.Basic

/-! # Which layer decides a setting

Files are merged into one configuration, the later over the earlier. A layer says which settings its
file gives, but merging sees no more of it than values: it takes a value for given if that is not the
standard one, and it takes the history and the logging section as a whole. What a later file gives
decides unless one of these two stands in the way, and it is told here exactly when one does.
-/

namespace LineConsole

/-- The settings that a configuration file can give. -/
inductive Setting where
  | prompt | caseSensitive | usesVariables | vtInput | scriptExtension
  | historyEnabled | historyFile | maxEntries
  | logLevel | logFormat | logFilter
  deriving DecidableEq, Repr

/-- What is merged as one. -/
inductive MergeUnit where
  | single (s : Setting)
  | history
  | logging
  deriving DecidableEq, Repr

namespace Setting

/-- What a setting is set to. -/
abbrev Kind : Setting → Type
  | prompt | scriptExtension | historyFile | logFilter => String
  | caseSensitive | usesVariables | vtInput | historyEnabled => Bool
  | maxEntries => Nat
  | logLevel => LogLevel
  | logFormat => LogFormat

/-- A console setting is merged for itself, any other together with its section. -/
def unit : Setting → MergeUnit
  | historyEnabled | historyFile | maxEntries => .history
  | logLevel | logFormat | logFilter => .logging
  | s => .single s

end Setting

def Config.value (c : Config) : (s : Setting) → s.Kind
  | .prompt => c.console.prompt
  | .caseSensitive => c.console.caseSensitive
  | .usesVariables => c.console.usesVariables
  | .vtInput => c.console.vtInput
  | .scriptExtension => c.console.scriptExtension
  | .historyEnabled => c.history.enabled
  | .historyFile => c.history.file
  | .maxEntries => c.history.maxEntries
  | .logLevel => c.logging.level
  | .logFormat => c.logging.format
  | .logFilter => c.logging.filter

/-- The value that a file gives a setting, if it does. -/
def Layer.given? (l : Layer) : (s : Setting) → Option s.Kind
  | .prompt => l.console.prompt
  | .caseSensitive => l.console.caseSensitive
  | .usesVariables => l.console.usesVariables
  | .vtInput => l.console.vtInput
  | .scriptExtension => l.console.scriptExtension
  | .historyEnabled => l.history.enabled
  | .historyFile => l.history.file
  | .maxEntries => l.history.maxEntries
  | .logLevel => l.logging.level
  | .logFormat => l.logging.format
  | .logFilter => l.logging.filter

/-- The value where nothing is configured. -/
def Setting.standard (s : Setting) : s.Kind := Config.value {} s

/-- The configuration has something else than the standard one in what is merged with the setting. -/
def Config.Shows (c : Config) (s : Setting) : Prop :=
  ∃ s', Setting.unit s' = s.unit ∧ c.value s' ≠ s'.standard

/-- The layer gives a value that is not the standard one in what is merged with the setting. -/
def Layer.Shows (l : Layer) (s : Setting) : Prop :=
  ∃ s' v, Setting.unit s' = s.unit ∧ l.given? s' = some v ∧ v ≠ s'.standard

section Merging

variable {lower upper : Config} {l : Layer} {s : Setting}

/-! ## One layer -/

theorem Layer.value_config (l : Layer) (s : Setting) :
    l.config.value s = (l.given? s).getD s.standard := by
  cases s <;> rfl

/-- A layer shows what it gives. -/
theorem Layer.shows_config_iff : l.config.Shows s ↔ l.Shows s := by
  constructor
  · rintro ⟨s', same, other⟩
    rw [value_config] at other
    cases gives : l.given? s' with
    | none =>
      rw [gives] at other
      exact absurd rfl other
    | some v =>
      rw [gives] at other
      exact ⟨s', v, same, gives, other⟩
  · rintro ⟨s', v, same, gives, other⟩
    refine ⟨s', same, ?_⟩
    rw [value_config, gives]
    exact other

theorem Setting.eq_of_unit_eq_single {s' : Setting} (same : s'.unit = .single s) : s' = s := by
  cases s' <;> first | exact MergeUnit.single.inj same | cases same

/-- Of a console setting nothing shows but its own value. -/
theorem Config.shows_iff_of_single (single : s.unit = .single s) :
    upper.Shows s ↔ upper.value s ≠ s.standard := by
  constructor
  · rintro ⟨s', same, other⟩
    obtain rfl := Setting.eq_of_unit_eq_single (same.trans single)
    exact other
  · exact fun other => ⟨s, rfl, other⟩

theorem Layer.not_shows_of_single (single : s.unit = .single s) (silent : l.given? s = none) :
    ¬ l.Shows s := by
  rintro ⟨s', v, same, gives, -⟩
  obtain rfl := Setting.eq_of_unit_eq_single (same.trans single)
  rw [silent] at gives
  cases gives

theorem Config.history_eq_iff :
    upper.history = {} ↔ ∀ s, Setting.unit s = .history → upper.value s = s.standard := by
  constructor
  · intro standard s part
    cases s with
    | historyEnabled => exact congrArg HistorySettings.enabled standard
    | historyFile => exact congrArg HistorySettings.file standard
    | maxEntries => exact congrArg HistorySettings.maxEntries standard
    | _ => cases part
  · intro standard
    exact HistorySettings.mk.injEq .. |>.mpr
      ⟨standard .historyEnabled rfl, standard .historyFile rfl, standard .maxEntries rfl⟩

theorem Config.logging_eq_iff :
    upper.logging = {} ↔ ∀ s, Setting.unit s = .logging → upper.value s = s.standard := by
  constructor
  · intro standard s part
    cases s with
    | logLevel => exact congrArg LoggingSettings.level standard
    | logFormat => exact congrArg LoggingSettings.format standard
    | logFilter => exact congrArg LoggingSettings.filter standard
    | _ => cases part
  · intro standard
    exact LoggingSettings.mk.injEq .. |>.mpr
      ⟨standard .logLevel rfl, standard .logFormat rfl, standard .logFilter rfl⟩

theorem Config.not_shows_iff :
    ¬ upper.Shows s ↔ ∀ s', Setting.unit s' = s.unit → upper.value s' = s'.standard := by
  simp only [Shows, not_exists, not_and, not_not]

theorem Config.shows_iff_of_history (part : s.unit = .history) :
    upper.Shows s ↔ upper.history ≠ {} := by
  rw [← not_iff_not, not_shows_iff, not_not, history_eq_iff, part]

theorem Config.shows_iff_of_logging (part : s.unit = .logging) :
    upper.Shows s ↔ upper.logging ≠ {} := by
  rw [← not_iff_not, not_shows_iff, not_not, logging_eq_iff, part]

/-- What shows in the upper configuration wins. -/
theorem Config.value_merge_of_shows (lower : Config) (shows : upper.Shows s) :
    (lower.merge upper).value s = upper.value s := by
  cases s with
  | prompt | caseSensitive | usesVariables | vtInput | scriptExtension =>
    exact if_neg ((shows_iff_of_single rfl).mp shows)
  | historyEnabled | historyFile | maxEntries =>
    have whole : (lower.merge upper).history = upper.history :=
      if_neg ((shows_iff_of_history rfl).mp shows)
    simp only [value, whole]
  | logLevel | logFormat | logFilter =>
    have whole : (lower.merge upper).logging = upper.logging :=
      if_neg ((shows_iff_of_logging rfl).mp shows)
    simp only [value, whole]

/-- Where nothing shows the lower configuration stays. -/
theorem Config.value_merge_of_not_shows (lower : Config) (hidden : ¬ upper.Shows s) :
    (lower.merge upper).value s = lower.value s := by
  cases s with
  | prompt | caseSensitive | usesVariables | vtInput | scriptExtension =>
    exact if_pos (not_shows_iff.mp hidden _ rfl)
  | historyEnabled | historyFile | maxEntries =>
    have whole : (lower.merge upper).history = lower.history :=
      if_pos (history_eq_iff.mpr (not_shows_iff.mp hidden))
    simp only [value, whole]
  | logLevel | logFormat | logFilter =>
    have whole : (lower.merge upper).logging = lower.logging :=
      if_pos (logging_eq_iff.mpr (not_shows_iff.mp hidden))
    simp only [value, whole]

/-! ## Layers in order -/

theorem Layer.value_config_of_given {v : s.Kind} (gives : l.given? s = some v) :
    l.config.value s = v := by
  rw [value_config, gives, Option.getD_some]

theorem Layer.value_config_of_silent (silent : l.given? s = none) :
    l.config.value s = s.standard := by
  rw [value_config, silent, Option.getD_none]

/-- The layers of further files over a configuration. -/
def Config.mergeLayers (base : Config) (layers : List Layer) : Config :=
  layers.foldl (fun config layer => config.merge layer.config) base

theorem Config.ofLayers_append (before after : List Layer) :
    ofLayers (before ++ after) = (ofLayers before).mergeLayers after :=
  List.foldl_append

/-- Layers of which nothing shows leave what was there before them. -/
theorem Config.value_mergeLayers_of_hidden {base : Config} {layers : List Layer}
    (hidden : ∀ l ∈ layers, ¬ l.Shows s) : (base.mergeLayers layers).value s = base.value s := by
  induction layers generalizing base with
  | nil => rfl
  | cons l layers ih =>
    obtain ⟨first, rest⟩ := List.forall_mem_cons.mp hidden
    have unseen : ¬ l.config.Shows s := fun shows => first (Layer.shows_config_iff.mp shows)
    exact (ih rest).trans (value_merge_of_not_shows base unseen)

/-- Layers that say no more of a setting than the standard value take it back to that value if one of
them shows something else. By induction on the layers: the last that shows decides. -/
theorem Config.value_mergeLayers_of_shows {base : Config} {layers : List Layer}
    (standard : ∀ l ∈ layers, l.config.value s = s.standard) (shows : ∃ l ∈ layers, l.Shows s) :
    (base.mergeLayers layers).value s = s.standard := by
  induction layers generalizing base with
  | nil =>
    obtain ⟨l, none, -⟩ := shows
    cases none
  | cons l layers ih =>
    obtain ⟨first, rest⟩ := List.forall_mem_cons.mp standard
    by_cases later : ∃ l ∈ layers, l.Shows s
    · exact ih rest later
    · have hidden : ∀ l ∈ layers, ¬ l.Shows s := fun l among shows => later ⟨l, among, shows⟩
      have seen : l.config.Shows s := by
        obtain ⟨l', among, shows⟩ := shows
        rcases List.mem_cons.mp among with rfl | among
        · exact Layer.shows_config_iff.mpr shows
        · exact absurd shows (hidden l' among)
      calc
        (base.mergeLayers (l :: layers)).value s = (base.merge l.config).value s :=
          value_mergeLayers_of_hidden hidden
        _ = l.config.value s := value_merge_of_shows base seen
        _ = s.standard := first

section LastGiven

variable {before after : List Layer} {v : s.Kind} (gives : l.given? s = some v)
include gives

/-- A value that is not the standard one shows, and it is the last word unless a later layer that does
not give the setting shows something else. -/
theorem Config.value_ofLayers_of_other (silent : ∀ l ∈ after, l.given? s = none)
    (other : v ≠ s.standard) :
    (ofLayers (before ++ l :: after)).value s = v ↔ ∀ l ∈ after, ¬ l.Shows s := by
  rw [ofLayers_append]
  constructor
  · intro same l' among shows
    have standard : ∀ l ∈ after, l.config.value s = s.standard :=
      fun l among => Layer.value_config_of_silent (silent l among)
    have back : (((ofLayers before).merge l.config).mergeLayers after).value s = s.standard :=
      value_mergeLayers_of_shows standard ⟨l', among, shows⟩
    exact other (same.symm.trans back)
  · intro hidden
    have seen : l.config.Shows s := Layer.shows_config_iff.mpr ⟨s, v, rfl, gives, other⟩
    calc
      ((ofLayers before).mergeLayers (l :: after)).value s =
          ((ofLayers before).merge l.config).value s := value_mergeLayers_of_hidden hidden
      _ = l.config.value s := value_merge_of_shows _ seen
      _ = v := Layer.value_config_of_given gives

/-- The standard value does not show by itself. -/
theorem Config.value_ofLayers_of_standard (silent : ∀ l ∈ after, l.given? s = none)
    (usual : v = s.standard) :
    (ofLayers (before ++ l :: after)).value s = v ↔
      (∃ l' ∈ l :: after, l'.Shows s) ∨ (ofLayers before).value s = s.standard := by
  rw [ofLayers_append, usual]
  have standard : ∀ l' ∈ l :: after, l'.config.value s = s.standard := by
    intro l' among
    rcases List.mem_cons.mp among with rfl | among
    · exact (Layer.value_config_of_given gives).trans usual
    · exact Layer.value_config_of_silent (silent l' among)
  by_cases shows : ∃ l' ∈ l :: after, l'.Shows s
  · exact iff_of_true (value_mergeLayers_of_shows standard shows) (.inl shows)
  · have hidden : ∀ l' ∈ l :: after, ¬ l'.Shows s := fun l' among seen => shows ⟨l', among, seen⟩
    rw [value_mergeLayers_of_hidden hidden, or_iff_right shows]

end LastGiven

end Merging

/-! ## Files -/

section Loading

variable {files : Files} {env : Environment}

/-- One more file that can be read is one more layer. -/
theorem Config.layersOf_concat {paths : List String} {path text : String} {layers : List Layer}
    {layer : Layer} (listed : layersOf files env paths = .ok layers)
    (readable : files.readText path = .ok text) (parsed : readLayer env path text = .ok layer) :
    layersOf files env (paths ++ [path]) = .ok (layers ++ [layer]) := by
  induction paths generalizing layers with
  | nil =>
    cases listed
    simp only [List.nil_append, layersOf, readable, parsed]
    rfl
  | cons first paths ih =>
    rw [List.cons_append, layersOf]
    rw [layersOf] at listed
    split
    · rename_i unreadable
      rw [unreadable] at listed
      exact ih listed
    · rename_i content readable
      rw [readable] at listed
      dsimp only at listed
      cases head : readLayer env first content with
      | error fault =>
        rw [head] at listed
        cases listed
      | ok l =>
        rw [head] at listed
        cases tail : layersOf files env paths with
        | error fault =>
          rw [tail] at listed
          cases listed
        | ok rest =>
          rw [tail] at listed
          cases listed
          rw [ih tail]
          rfl

theorem Config.ofFiles_eq_ok_iff {paths : List String} {config : Config} :
    ofFiles files env paths = .ok config ↔
      ∃ layers, layersOf files env paths = .ok layers ∧ ofLayers layers = config := by
  rw [ofFiles]
  cases layersOf files env paths with
  | error fault => exact ⟨nofun, fun ⟨_, absent, _⟩ => nomatch absent⟩
  | ok layers =>
    constructor
    · intro merged
      exact ⟨layers, rfl, Except.ok.inj merged⟩
    · rintro ⟨layers', same, merged⟩
      obtain rfl := Except.ok.inj same
      exact congrArg Except.ok merged

end Loading

/-! ## Two files that do not merge as they read -/

def systemText : String := "console:\n prompt: \"$ \"\nhistory:\n file: log\n"

/-- It sets the prompt back and gives one more setting of the history. -/
def projectText : String := "console:\n prompt: \"> \"\nhistory:\n max_entries: 9\n"

def configFiles : Files :=
  (Files.empty.put ["work", "system.yaml"] (.file (Text.encodeUtf8 systemText))).put
    ["work", "project.yaml"] (.file (Text.encodeUtf8 projectText))

def systemLayer : Layer := { console := { prompt := "$ " }, history := { file := "log" } }

def projectLayer : Layer := { console := { prompt := "> " }, history := { maxEntries := some 9 } }

private theorem eq_ok_of_toOption {ε α : Type} {result : Except ε α} {a : α}
    (some : result.toOption = .some a) : result = .ok a := by
  cases result with
  | ok a' => exact congrArg Except.ok (Option.some.inj some)
  | error fault => cases some

private theorem readText_system : configFiles.readText "system.yaml" = .ok systemText :=
  eq_ok_of_toOption (by decide +kernel)

private theorem readText_project : configFiles.readText "project.yaml" = .ok projectText :=
  eq_ok_of_toOption (by decide +kernel)

private theorem readLayer_system :
    Config.readLayer .empty "system.yaml" systemText = .ok systemLayer :=
  eq_ok_of_toOption (by decide +kernel)

private theorem readLayer_project :
    Config.readLayer .empty "project.yaml" projectText = .ok projectLayer :=
  eq_ok_of_toOption (by decide +kernel)

private theorem layersOf_system :
    Config.layersOf configFiles .empty ["system.yaml"] = .ok [systemLayer] := by
  have nothing : Config.layersOf configFiles .empty [] = .ok [] := rfl
  exact Config.layersOf_concat nothing readText_system readLayer_system

private theorem layersOf_both :
    Config.layersOf configFiles .empty ["system.yaml", "project.yaml"] =
      .ok [systemLayer, projectLayer] :=
  Config.layersOf_concat layersOf_system readText_project readLayer_project

/-! ## What a file gives and what it leaves alone -/

section Files

variable {files : Files} {env : Environment}

/-- What the last file says that gives a setting. A value that is not the standard one holds, for a
console setting always and for the others unless a later file shows something else in the section. The
standard value holds only if something shows from that file on, or if the files before came to it
anyway. -/
theorem Config.last_given_value_iff {paths : List String} {before after : List Layer}
    {layer : Layer} {s : Setting} {v : s.Kind}
    (listed : layersOf files env paths = .ok (before ++ layer :: after))
    (gives : layer.given? s = some v) (silent : ∀ l ∈ after, l.given? s = none) :
    ∃ config, ofFiles files env paths = .ok config ∧
      (v ≠ s.standard → s.unit = .single s → config.value s = v) ∧
      (v ≠ s.standard → (config.value s = v ↔ ∀ l ∈ after, ¬ l.Shows s)) ∧
      (v = s.standard → (config.value s = v ↔
        (∃ l ∈ layer :: after, l.Shows s) ∨ (ofLayers before).value s = s.standard)) := by
  refine ⟨_, ofFiles_eq_ok_iff.mpr ⟨_, listed, rfl⟩, fun other single => ?_,
    value_ofLayers_of_other gives silent, value_ofLayers_of_standard gives silent⟩
  refine (value_ofLayers_of_other gives silent other).mpr fun l among => ?_
  exact Layer.not_shows_of_single single (silent l among)

theorem max_entries_last_given :
    projectLayer.given? .maxEntries = some 9 ∧
      ∃ config, Config.ofFiles configFiles .empty ["system.yaml", "project.yaml"] = .ok config ∧
        config.value .maxEntries = (9 : Nat) := by
  have listed : Config.layersOf configFiles .empty ["system.yaml", "project.yaml"] =
      .ok ([systemLayer] ++ projectLayer :: []) := layersOf_both
  have gives : projectLayer.given? .maxEntries = some (9 : Nat) := rfl
  obtain ⟨config, loaded, -, holds, -⟩ :=
    Config.last_given_value_iff listed gives (List.forall_mem_nil _)
  exact ⟨gives, config, loaded, (holds (by decide)).mpr (List.forall_mem_nil _)⟩

/-- The last file sets the prompt back to the standard one, and the prompt of the first file holds. -/
theorem standard_prompt_last_given :
    Config.layersOf configFiles .empty ["system.yaml", "project.yaml"] =
        .ok [systemLayer, projectLayer] ∧
      projectLayer.given? .prompt = some "> " ∧
      ∃ config, Config.ofFiles configFiles .empty ["system.yaml", "project.yaml"] = .ok config ∧
        config.value .prompt = "$ " :=
  ⟨layersOf_both, rfl, _, Config.ofFiles_eq_ok_iff.mpr ⟨_, layersOf_both, rfl⟩, by decide⟩

/-- What a further file leaves of a setting that it does not give: all, if it is a console setting, and
otherwise all unless something shows in the section; then the setting has its standard value. -/
theorem Config.value_not_given_kept_iff {paths : List String} {path text : String} {base : Config}
    {layer : Layer} {s : Setting} (accumulated : ofFiles files env paths = .ok base)
    (readable : files.readText path = .ok text) (parsed : readLayer env path text = .ok layer)
    (silent : layer.given? s = none) :
    ∃ merged, ofFiles files env (paths ++ [path]) = .ok merged ∧
      (s.unit = .single s → merged.value s = base.value s) ∧
      (merged.value s = base.value s ↔ ¬ layer.Shows s ∨ base.value s = s.standard) := by
  obtain ⟨layers, listed, rfl⟩ := ofFiles_eq_ok_iff.mp accumulated
  have further := layersOf_concat listed readable parsed
  refine ⟨_, ofFiles_eq_ok_iff.mpr ⟨_, further, rfl⟩, ?_⟩
  rw [ofLayers_append]
  have kept (hidden : ¬ layer.Shows s) :
      ((ofLayers layers).mergeLayers [layer]).value s = (ofLayers layers).value s :=
    value_merge_of_not_shows _ fun shows => hidden (Layer.shows_config_iff.mp shows)
  refine ⟨fun single => kept (Layer.not_shows_of_single single silent), ?_⟩
  by_cases shows : layer.Shows s
  · have standard : ((ofLayers layers).mergeLayers [layer]).value s = s.standard :=
      (value_merge_of_shows _ (Layer.shows_config_iff.mpr shows)).trans
        (Layer.value_config_of_silent silent)
    rw [standard, or_iff_right (not_not.mpr shows), eq_comm]
  · exact iff_of_true (kept shows) (.inl shows)

theorem vt_input_not_given :
    projectLayer.given? .vtInput = none ∧
      ∃ base merged, Config.ofFiles configFiles .empty ["system.yaml"] = .ok base ∧
        Config.ofFiles configFiles .empty ["system.yaml", "project.yaml"] = .ok merged ∧
        merged.value .vtInput = base.value .vtInput := by
  have accumulated : Config.ofFiles configFiles .empty ["system.yaml"] =
      .ok (Config.ofLayers [systemLayer]) :=
    Config.ofFiles_eq_ok_iff.mpr ⟨_, layersOf_system, rfl⟩
  obtain ⟨merged, loaded, kept, -⟩ := Config.value_not_given_kept_iff (s := .vtInput) accumulated
    readText_project readLayer_project rfl
  exact ⟨rfl, _, merged, accumulated, loaded, kept rfl⟩

/-- The second file gives no file for the history, but it gives another setting of the history, and the
file that the first one gave is gone. -/
theorem history_file_not_given :
    projectLayer.given? .historyFile = none ∧
      ∃ base merged, Config.ofFiles configFiles .empty ["system.yaml"] = .ok base ∧
        Config.ofFiles configFiles .empty ["system.yaml", "project.yaml"] = .ok merged ∧
        base.value .historyFile = "log" ∧ merged.value .historyFile = "~/.lsc_history" :=
  ⟨rfl, _, _, Config.ofFiles_eq_ok_iff.mpr ⟨_, layersOf_system, rfl⟩,
    Config.ofFiles_eq_ok_iff.mpr ⟨_, layersOf_both, rfl⟩, by decide, by decide⟩

end Files

end LineConsole
