import LineConsole.Proofs.Shell.Ending
import Mathlib.Data.List.Dedup
import Mathlib.Data.List.Perm.Subperm

/-! # Scripts that run themselves

Nothing keeps a script from being run again while it is still being executed, so a script can go on
without end. There are only so many files: as long as no script is run again from within itself,
handlers nest at most two deeper than there are files, directories not counted, and every line comes
to an answer.
-/

namespace LineConsole

open Shell

variable {H α : Type}

namespace Call

/-- The place of the file that a script is read from. -/
def source? : Call H → Option (List String)
  | script sh path =>
    (sh.files.place (Path.withDefaultExtension sh.scriptExtension path)).toOption
  | _ => none

/-- In its course a script is run again from within itself. -/
def Reenters (host : Host H) (call : Call H) : Prop :=
  ∃ outer inner place, Encloses host call outer ∧ Relation.TransGen (Makes host) outer inner ∧
    outer.source? = some place ∧ inner.source? = some place

end Call

/-! ## Scripts within scripts -/

namespace Files

variable {files : Files}

/-- The places of the files, each of them once. -/
def filePlaces (files : Files) : List (List String) :=
  ((files.nodes.map Prod.fst).filter fun place =>
    match files.nodeAt? place with
    | some (.file _) => true
    | _ => false).dedup

/-- A file is found only at a place that is listed. -/
theorem mem_of_nodeAt? {place : List String} {bytes : List UInt8}
    (found : files.nodeAt? place = some (.file bytes)) : place ∈ files.nodes.map Prod.fst := by
  unfold nodeAt? at found
  split at found
  · cases found
  · have some : (files.nodes.lookup place).isSome = true := by rw [found]; rfl
    obtain ⟨entry, listed, same⟩ := List.lookup_isSome_iff.mp some
    exact List.mem_map.mpr ⟨entry, listed, (eq_of_beq same).symm⟩

theorem mem_filePlaces_iff {place : List String} :
    place ∈ files.filePlaces ↔ ∃ bytes, files.nodeAt? place = some (.file bytes) := by
  rw [filePlaces, List.mem_dedup, List.mem_filter]
  constructor
  · rintro ⟨-, file⟩
    split at file
    · exact ⟨_, ‹_›⟩
    · cases file
  · rintro ⟨bytes, found⟩
    exact ⟨mem_of_nodeAt? found, by rw [found]⟩

/-- A script that can be read is one of the files. -/
theorem exists_place_of_readText {path source : String}
    (readable : files.readText path = .ok source) :
    ∃ place ∈ files.filePlaces, files.place path = .ok place := by
  unfold readText read lookup at readable
  cases led : files.place path with
  | error fault =>
    rw [led] at readable
    cases readable
  | ok place =>
    refine ⟨place, mem_filePlaces_iff.mpr ?_, rfl⟩
    simp only [led, bind, Except.bind] at readable
    cases found : files.nodeAt? place with
    | none =>
      rw [found] at readable
      cases readable
    | some node =>
      cases node with
      | directory =>
        rw [found] at readable
        cases readable
      | file bytes => exact ⟨bytes, rfl⟩

end Files

theorem Encloses.settings {host : Host H} {outer inner : Call H} (encloses : Encloses host outer inner)
    (builtins : outer.shell.OnlyBuiltins) : inner.shell.settings = outer.shell.settings := by
  induction encloses with
  | refl => rfl
  | tail before makes ih => exact (makes.settings (Encloses.onlyBuiltins before builtins)).trans ih

/-- In the course of `root` the call is made while scripts from these places are being executed, no two
of them from the same one. -/
structure Inside (host : Host H) (root : Call H) (places : List (List String)) (call : Call H) :
    Prop where
  reached : Encloses host root call
  active : ∀ place ∈ places, ∃ outer, Encloses host root outer ∧
    Relation.TransGen (Makes host) outer call ∧ outer.source? = some place
  distinct : places.Nodup
  known : places ⊆ root.shell.files.filePlaces

namespace Inside

variable {host : Host H} {root : Call H} {places : List (List String)} {sh : Shell H} {text : String}

theorem length_le {call : Call H} (inside : Inside host root places call) :
    places.length ≤ root.shell.files.filePlaces.length :=
  (List.subperm_of_subset inside.distinct inside.known).length_le

/-- A statement of a script that a line runs is made inside one place more. -/
theorem deeper (inside : Inside host root places (.line sh text)) (once : ¬ root.Reenters host)
    (builtins : root.shell.OnlyBuiltins) {ready reached : Shell H} {path text' : String}
    (run : Makes host (.line sh text) (.script ready path))
    (statement : Makes host (.script ready path) (.line reached text')) :
    ∃ place, Inside host root (place :: places) (.line reached text') := by
  have begun : Encloses host root (.script ready path) := inside.reached.tail run
  have same : ready.files = root.shell.files :=
    congrArg Settings.files (begun.settings builtins)
  have source : ∃ place ∈ root.shell.files.filePlaces,
      (Call.script ready path).source? = some place := by
    cases statement with
    | statement readable listed done =>
      obtain ⟨place, listed, led⟩ := Files.exists_place_of_readText readable
      refine ⟨place, same ▸ listed, ?_⟩
      rw [Call.source?, led]
      rfl
  obtain ⟨place, listed, source⟩ := source
  refine ⟨place, begun.tail statement, ?_, ?_, List.cons_subset.mpr ⟨listed, inside.known⟩⟩
  · refine List.forall_mem_cons.mpr ⟨⟨_, begun, .single statement, source⟩, fun other active => ?_⟩
    obtain ⟨outer, encloses, within, source⟩ := inside.active other active
    exact ⟨outer, encloses, (within.tail run).tail statement, source⟩
  · refine List.nodup_cons.mpr ⟨fun active => ?_, inside.distinct⟩
    obtain ⟨outer, encloses, within, source'⟩ := inside.active place active
    exact once ⟨outer, _, place, encloses, within.tail run, source', source⟩

/-- A line comes to an answer if all that is made inside one place more does. -/
theorem exists_executeLine {n : Nat} (inside : Inside host root places (.line sh text))
    (once : ¬ root.Reenters host) (builtins : root.shell.OnlyBuiltins)
    (further : ∀ place reached text', Inside host root (place :: places) (.line reached text') →
      ∃ answer, reached.executeLine host (n + 1) text' = some answer) :
    ∃ answer, sh.executeLine host (n + 2) text = some answer := by
  have scripts {ready : Shell H} {path : String}
      (run : Makes host (.line sh text) (.script ready path)) :
      ∃ answer, ready.executeScript host (n + 1) path = some answer := by
    have lines {reached : Shell H} {text' : String}
        (statement : Makes host (.script ready path) (.line reached text')) :
        ∃ answer, reached.executeLine host (n + 1) text' = some answer := by
      obtain ⟨place, inside'⟩ := inside.deeper once builtins run statement
      exact further place reached text' inside'
    obtain ⟨-, ran⟩ := Shell.exists_executeScript (fun _ => n) (fun _ => Nat.le_refl n)
      fun _ _ statement => ⟨0, lines statement⟩
    exact ran
  obtain ⟨-, ran⟩ := Shell.exists_executeLine (fun _ => n + 1)
    (Encloses.onlyBuiltins inside.reached builtins) fun _ _ run => ⟨0, scripts run⟩
  exact ran

/-- By induction on the number of places that are left. -/
theorem exists_of_room {n : Nat} (inside : Inside host root places (.line sh text))
    (once : ¬ root.Reenters host) (builtins : root.shell.OnlyBuiltins)
    (room : root.shell.files.filePlaces.length ≤ places.length + n) :
    ∃ answer, sh.executeLine host (n + 2) text = some answer := by
  -- The two levels that are left at the end are the line's own and that of a script which it names and
  -- which is no file.
  induction n generalizing places sh text with
  | zero =>
    refine inside.exists_executeLine once builtins fun place reached text' inside' => ?_
    exact absurd (inside'.length_le.trans room) (Nat.not_succ_le_self places.length)
  | succ n ih =>
    refine inside.exists_executeLine once builtins fun place reached text' inside' => ?_
    refine ih inside' (room.trans ?_)
    rw [List.length_cons]
    omega

end Inside

/-! ## Lines and statements -/

theorem bind_run (table : Converters) {path : String} (some : path ≠ "") :
    (Builtin.run.command : Command (Handler H)).bind table [path] path =
      .ok ⟨Builtin.run.parameters, [.path path]⟩ := by
  have value : table.value? path .path = .some (.path path) := by
    rw [Converters.value?, if_neg (mt String.isEmpty_iff.mp some)]
  have several : (Builtin.run.command : Command (Handler H)).isSingleString = false := rfl
  rw [Command.bind, several, if_neg Bool.false_ne_true, Builtin.command]
  simp only [Builtin.parameters, convertArguments, Converters.convert, value]
  rfl

section Scripts

variable {host : Host H} {sh : Shell H} {word : String}

/-- A `run` line with a plain word makes the script of that name and nothing else. -/
theorem makes_runLine_iff (builtins : sh.OnlyBuiltins) (plainWord : PlainWord word)
    {inner : Call H} : Makes host (.line sh (plainLine .run word)) inner ↔
      inner = .script (((sh.addHistory (Text.trimmed (plainLine .run word))).note
        (.tryingCandidate (Builtin.run.command : Command (Handler H)).usage)).note
          (.invoking Builtin.run.name 1)) word := by
  have prepared := prepare_plainLine builtins .run plainWord rfl
    (bind_run sh.converters (mt String.toList_eq_nil_iff.mpr plainWord.ne_nil))
  have given : (Arguments.mk Builtin.run.parameters [.path word]).path? "path" = some word := rfl
  constructor
  · intro makes
    cases makes with
    | run prepared' given' =>
      obtain ⟨rfl, called⟩ := Prod.mk.inj (prepared.symm.trans prepared')
      obtain ⟨-, rfl⟩ := Verdict.call.inj called
      obtain rfl := Option.some.inj (given.symm.trans given')
      rfl
  · rintro rfl
    exact .run prepared given

/-- Any other command makes nothing. -/
theorem not_makes_plainLine (builtins : sh.OnlyBuiltins) {b : Builtin} (other : b ≠ .run)
    (plainWord : PlainWord word) {arguments : Arguments}
    (takes : (b.command : Command (Handler H)).accepts 1 = true)
    (bound : (b.command : Command (Handler H)).bind sh.converters [word] word = .ok arguments)
    {inner : Call H} : ¬ Makes host (.line sh (plainLine b word)) inner := by
  intro makes
  cases makes with
  | run prepared given =>
    have same := (prepare_plainLine builtins b plainWord takes bound).symm.trans prepared
    obtain ⟨called, -⟩ := Verdict.call.inj (congrArg Prod.snd same)
    exact other (Handler.builtin.inj (congrArg Command.handler called))

/-- A script makes nothing but its statements. -/
theorem exists_of_makes_script {path source : String} {inner : Call H}
    (readable : sh.files.readText (Path.withDefaultExtension sh.scriptExtension path) = .ok source)
    (makes : Makes host (.script sh path) inner) :
    ∃ reached, ∃ statement ∈ statements source, inner = .line reached statement.2 := by
  cases makes with
  | statement readable' listed done =>
    obtain rfl := Except.ok.inj (readable.symm.trans readable')
    rw [listed]
    exact ⟨_, _, List.mem_append_right _ List.mem_cons_self, rfl⟩

/-- Where calls fall into stages such that each call comes in a later one than the call that makes it,
and scripts of two stages are not read from one place, no script is run from within itself. -/
theorem not_reenters_of_stages {Stage : Nat → Call H → Prop}
    (makes : ∀ {n outer inner}, Stage n outer → Makes host outer inner → ∃ m < n, Stage m inner)
    (apart : ∀ {m n outer inner place}, m < n → Stage n outer → Stage m inner →
      outer.source? = some place → inner.source? ≠ some place)
    {n : Nat} {root : Call H} (first : Stage n root) : ¬ root.Reenters host := by
  rintro ⟨outer, inner, place, encloses, within, source, source'⟩
  have reached : ∃ n, Stage n outer := by
    clear within source
    induction encloses with
    | refl => exact ⟨n, first⟩
    | tail _ made ih =>
      obtain ⟨n, stage⟩ := ih
      obtain ⟨m, -, stage'⟩ := makes stage made
      exact ⟨m, stage'⟩
  obtain ⟨n, stage⟩ := reached
  have later : ∃ m < n, Stage m inner := by
    clear source'
    induction within with
    | single made => exact makes stage made
    | tail _ made ih =>
      obtain ⟨m, less, stage'⟩ := ih
      obtain ⟨k, less', stage''⟩ := makes stage' made
      exact ⟨k, less'.trans less, stage''⟩
  obtain ⟨m, less, stage'⟩ := later
  exact apart less stage stage' source source'

/-- Where each of some elements has another one of them below it, none is accessible. -/
theorem not_acc_of_goesOn {r : α → α → Prop} {P : α → Prop} (goesOn : ∀ a, P a → ∃ b, r b a ∧ P b)
    {a : α} (holds : P a) : ¬ Acc r a := by
  intro accessible
  induction accessible with
  | intro a _ ih =>
    obtain ⟨b, below, holds'⟩ := goesOn a holds
    exact ih b below holds'

theorem makes_first (host : Host H) {path source text : String} {number : Nat}
    {rest : List (Nat × String)}
    (readable : sh.files.readText (Path.withDefaultExtension sh.scriptExtension path) = .ok source)
    (first : statements source = (number, text) :: rest) :
    Makes host (.script sh path)
      (.line ((sh.note (.scriptStarted (Path.withDefaultExtension sh.scriptExtension path))).note
        (.scriptStatement number text)) text) := by
  have listed : statements source = [] ++ (number, text) :: rest := first
  have done : runStatements (executeLine host 0)
      (Path.withDefaultExtension sh.scriptExtension path) []
      (sh.note (.scriptStarted (Path.withDefaultExtension sh.scriptExtension path))) =
        some (_, .ok ()) := rfl
  exact .statement readable listed done

/-- A script whose first statement runs it again does not end. -/
theorem not_ends_of_selfRun (host : Host H) (builtins : sh.OnlyBuiltins) (plainWord : PlainWord word)
    {source : String} {number : Nat} {rest : List (Nat × String)}
    (readable : sh.files.readText (Path.withDefaultExtension sh.scriptExtension word) = .ok source)
    (first : statements source = (number, plainLine .run word) :: rest) :
    ¬ (Call.line sh (plainLine .run word)).Ends host := by
  -- Its line makes the script and the script makes its line, both with the same settings.
  refine mt Call.acc_of_ends (not_acc_of_goesOn (P := fun call =>
    call.shell.settings = sh.settings ∧
      (call = .line call.shell (plainLine .run word) ∨ call = .script call.shell word)) ?_
    ⟨rfl, .inl rfl⟩)
  rintro outer ⟨settings, call⟩
  have only : outer.shell.OnlyBuiltins := builtins.of_settings settings
  have goesOn : ∃ inner, Makes host outer inner ∧
      (inner = .line inner.shell (plainLine .run word) ∨ inner = .script inner.shell word) := by
    rcases call with line | script
    · rw [line]
      exact ⟨_, (makes_runLine_iff only plainWord).mpr rfl, .inr rfl⟩
    · have files : outer.shell.files = sh.files := congrArg Settings.files settings
      have extension : outer.shell.scriptExtension = sh.scriptExtension :=
        congrArg Settings.scriptExtension settings
      rw [← files, ← extension] at readable
      rw [script]
      exact ⟨_, makes_first host readable first, .inl rfl⟩
  obtain ⟨inner, makes, call'⟩ := goesOn
  exact ⟨inner, makes, (makes.settings only).trans settings, call'⟩

end Scripts

/-! ## Whether a line ends -/

/-- Where the only commands are those built in, a line comes to an answer if calls cannot be nested
without end in its course, and only then. They cannot if no script is run again from within itself:
the line then comes to its answer with handlers that nest at most two deeper than there are files. -/
theorem Shell.line_ends_iff (host : Host H) {sh : Shell H} (builtins : sh.OnlyBuiltins)
    (text : String) :
    ((Call.line sh text).Ends host ↔ Acc (Call.MadeBy host) (.line sh text)) ∧
    (¬ (Call.line sh text).Reenters host → ∃ answer, ∀ depth, sh.files.filePlaces.length + 2 ≤ depth →
      sh.executeLine host depth text = some answer) := by
  refine ⟨Call.ends_iff_acc builtins, fun once => ?_⟩
  have inside : Inside host (.line sh text) [] (.line sh text) :=
    ⟨.refl, fun _ absent => (nomatch absent), List.nodup_nil, List.nil_subset _⟩
  obtain ⟨answer, ran⟩ := inside.exists_of_room once builtins (Nat.le_add_left _ _)
  exact ⟨answer, fun depth le => executeLine_below host le ran⟩

/-! ## A script that runs another one, and one that runs itself -/

/-- The script `outer` runs the script `inner`. -/
def twoDeep : Shell Unit :=
  ({ builtins := true
     files := (Files.empty.put ["work", "outer.lsf"] (.file (asciiBytes "run inner"))).put
       ["work", "inner.lsf"] (.file (asciiBytes "echo one")) } : ShellSetup Unit).shell

/-- What is executed when `outer` is run, with the number of calls that are still to come. -/
inductive TwoDeepStage : Nat → Call Unit → Prop where
  | runOuter {sh : Shell Unit} (same : sh.settings = twoDeep.settings) :
      TwoDeepStage 4 (.line sh "run outer")
  | outer {sh : Shell Unit} (same : sh.settings = twoDeep.settings) :
      TwoDeepStage 3 (.script sh "outer")
  | runInner {sh : Shell Unit} (same : sh.settings = twoDeep.settings) :
      TwoDeepStage 2 (.line sh "run inner")
  | inner {sh : Shell Unit} (same : sh.settings = twoDeep.settings) :
      TwoDeepStage 1 (.script sh "inner")
  | echo {sh : Shell Unit} (same : sh.settings = twoDeep.settings) :
      TwoDeepStage 0 (.line sh "echo one")

namespace TwoDeepStage

variable {m n : Nat} {outer inner : Call Unit}

theorem settings (stage : TwoDeepStage n outer) : outer.shell.settings = twoDeep.settings := by
  cases stage <;> assumption

theorem makes (stage : TwoDeepStage n outer) (makes : Makes idleHost outer inner) :
    ∃ m < n, TwoDeepStage m inner := by
  have only : twoDeep.OnlyBuiltins := rfl
  have builtins := only.of_settings stage.settings
  have settings := (makes.settings builtins).trans stage.settings
  have files : outer.shell.files = twoDeep.files := congrArg Settings.files stage.settings
  have extension : outer.shell.scriptExtension = "lsf" :=
    congrArg Settings.scriptExtension stage.settings
  -- The one statement of each script is what the script makes.
  have statement {sh : Shell Unit} {path : String} (script : outer = .script sh path) (text : String)
      (readable : twoDeep.files.readText (Path.withDefaultExtension "lsf" path) = .ok text)
      (lines : statements text = [(1, text)]) : ∃ reached, inner = .line reached text := by
    subst script
    rw [← files, ← extension] at readable
    obtain ⟨reached, statement, listed, rfl⟩ := exists_of_makes_script readable makes
    rw [lines] at listed
    obtain rfl := List.mem_singleton.mp listed
    exact ⟨reached, rfl⟩
  cases stage with
  | runOuter =>
    have word : PlainWord "outer" := ⟨by decide, by decide⟩
    obtain rfl := (makes_runLine_iff builtins word).mp makes
    exact ⟨3, by decide, .outer settings⟩
  | outer =>
    obtain ⟨reached, rfl⟩ := statement rfl "run inner" (by decide +kernel) (by decide +kernel)
    exact ⟨2, by decide, .runInner settings⟩
  | runInner =>
    have word : PlainWord "inner" := ⟨by decide, by decide⟩
    obtain rfl := (makes_runLine_iff builtins word).mp makes
    exact ⟨1, by decide, .inner settings⟩
  | inner =>
    obtain ⟨reached, rfl⟩ := statement rfl "echo one" (by decide +kernel) (by decide +kernel)
    exact ⟨0, by decide, .echo settings⟩
  | echo =>
    have word : PlainWord "one" := ⟨by decide, by decide⟩
    exact absurd makes (not_makes_plainLine builtins (b := .echo) (by decide) word rfl rfl)

theorem source? (stage : TwoDeepStage n outer) {place : List String}
    (source : outer.source? = some place) :
    n = 3 ∧ place = ["work", "outer.lsf"] ∨ n = 1 ∧ place = ["work", "inner.lsf"] := by
  have files : outer.shell.files = twoDeep.files := congrArg Settings.files stage.settings
  have extension : outer.shell.scriptExtension = "lsf" :=
    congrArg Settings.scriptExtension stage.settings
  have read {sh : Shell Unit} {path : String} (script : outer = .script sh path) (there : List String)
      (led : twoDeep.files.place (Path.withDefaultExtension "lsf" path) = .ok there) :
      place = there := by
    subst script
    have led : sh.files.place (Path.withDefaultExtension sh.scriptExtension path) = .ok there := by
      rw [show sh.files = twoDeep.files from files, show sh.scriptExtension = "lsf" from extension]
      exact led
    rw [Call.source?, led] at source
    exact (Option.some.inj source).symm
  cases stage with
  | runOuter | runInner | echo => cases source
  | outer => exact .inl ⟨rfl, read rfl ["work", "outer.lsf"] (by decide +kernel)⟩
  | inner => exact .inr ⟨rfl, read rfl ["work", "inner.lsf"] (by decide +kernel)⟩

end TwoDeepStage

theorem twoDeep_ends : twoDeep.OnlyBuiltins ∧
    ¬ (Call.line twoDeep "run outer").Reenters idleHost ∧
    Acc (Call.MadeBy idleHost) (.line twoDeep "run outer") ∧
    ∃ answer, ∀ depth, 4 ≤ depth → twoDeep.executeLine idleHost depth "run outer" = some answer := by
  have builtins : twoDeep.OnlyBuiltins := rfl
  have once : ¬ (Call.line twoDeep "run outer").Reenters idleHost := by
    refine not_reenters_of_stages TwoDeepStage.makes ?_ (.runOuter rfl)
    intro m n outer inner place less stage stage' source source'
    rcases stage.source? source with ⟨rfl, rfl⟩ | ⟨rfl, rfl⟩
    · rcases stage'.source? source' with ⟨rfl, -⟩ | ⟨rfl, same⟩
      · exact absurd less (by decide)
      · exact absurd same (by decide)
    · rcases stage'.source? source' with ⟨rfl, -⟩ | ⟨rfl, -⟩
      · exact absurd less (by decide)
      · exact absurd less (by decide)
  obtain ⟨ends, bounded⟩ := line_ends_iff idleHost builtins "run outer"
  obtain ⟨answer, ran⟩ := bounded once
  have two : twoDeep.files.filePlaces.length = 2 := by decide +kernel
  rw [two] at ran
  have ended : (Call.line twoDeep "run outer").Ends idleHost := ⟨answer, _, ran⟩
  exact ⟨builtins, once, ends.mp ended, answer, ran⟩

/-- The only statement of the script `self` runs it. -/
def selfRunner : Shell Unit :=
  ({ builtins := true
     files := Files.empty.put ["work", "self.lsf"] (.file (asciiBytes "run self")) } :
    ShellSetup Unit).shell

theorem selfRunner_without_end : selfRunner.OnlyBuiltins ∧
    ∀ depth, selfRunner.executeLine idleHost depth "run self" = none := by
  have builtins : selfRunner.OnlyBuiltins := rfl
  have word : PlainWord "self" := ⟨by decide, by decide⟩
  have readable : selfRunner.files.readText (Path.withDefaultExtension selfRunner.scriptExtension
      "self") = .ok "run self" := by decide +kernel
  have first : statements "run self" = [(1, plainLine .run "self")] := by decide +kernel
  exact ⟨builtins, executeLine_eq_none (not_ends_of_selfRun idleHost builtins word readable first)⟩

end LineConsole
