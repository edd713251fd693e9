import LineConsole.Proofs.Shell.Assignments
import LineConsole.Proofs.Shell.Builtins

/-! # Variables where there are only the built-in commands

A line about a variable changes that variable at most, `unset` takes variables out, `run` executes the
lines of a script, and no other built-in command touches a variable. A value is made of a text that
begins and ends in other characters than blanks, and of values that do so too. So in a shell that has
only the built-in commands and began without variables every variable has an identifier for its name
and a value that is not empty and has no blanks at its ends.
-/

namespace LineConsole

variable {H : Type}

/-! ## Tidy environments -/

namespace Environment

/-- Names are identifiers, and values are not empty and have no blanks at their ends. -/
def Tidy (env : Environment) : Prop :=
  ∀ entry ∈ env.entries, isIdentifier entry.1 = true ∧ entry.2 ≠ "" ∧ Text.trimmed entry.2 = entry.2

variable {env : Environment}

theorem mem_entries_of_get? {name value : String} (found : env.get? name = some value) :
    (name, value) ∈ env.entries := by
  obtain ⟨front, rest, same, -⟩ := List.lookup_eq_some_iff.mp found
  rw [same]
  simp

namespace Tidy

theorem of_empty : Environment.empty.Tidy := by rintro _ ⟨⟩

theorem erase (tidy : env.Tidy) (name : String) : (env.erase name).Tidy :=
  fun entry within => tidy entry (List.mem_of_mem_filter within)

theorem set (tidy : env.Tidy) {name value : String} (identifier : isIdentifier name = true)
    (some : value ≠ "") (trimmed : Text.trimmed value = value) : (env.set name value).Tidy :=
  List.forall_mem_cons.mpr ⟨⟨identifier, some, trimmed⟩, tidy.erase name⟩

theorem inked (tidy : env.Tidy) (name value : String) (found : env.get? name = some value) :
    Text.BeginsInked value.toList ∧ Text.EndsInked value.toList := by
  obtain ⟨-, some, trimmed⟩ := tidy _ (mem_entries_of_get? found)
  have whole : Text.trim value.toList = value.toList := by
    rw [← String.ofList_inj, String.ofList_toList]
    exact trimmed
  have some : Text.trim value.toList ≠ [] := by
    rw [whole]
    exact mt String.toList_eq_nil_iff.mp some
  rw [← whole]
  exact ⟨Text.beginsInked_trim some, Text.endsInked_trim some⟩

/-- A text without blanks at its ends has none after variables are replaced. -/
theorem trim_expand (tidy : env.Tidy) (text : List Char) :
    Text.trim (ArgumentText.expand env (Text.trim text)) =
      ArgumentText.expand env (Text.trim text) := by
  by_cases none : Text.trim text = []
  · rw [none, ArgumentText.expand]
    rfl
  · exact Text.trim_eq_of_inked
      (ArgumentText.expand_begins tidy.inked (Text.beginsInked_trim none))
      (ArgumentText.expand_ends tidy.inked (Text.endsInked_trim none))

end Tidy

end Environment

/-! ## Lines about variables -/

theorem VariableRequest.ofLine_eq_assign {word rest text : List Char} {name : String}
    (read : ofLine word rest = .ok (.assign name text)) :
    isIdentifier name = true ∧ name = String.ofList (word.takeWhile Text.isAlphanumeric) ∧
      ∃ value, text = Text.trim value := by
  unfold ofLine at read
  dsimp only at read
  split at read
  · cases read
  · rename_i identifier
    split at read
    · cases read
    · cases read
    · cases read
      exact ⟨by simpa using identifier, rfl, _, rfl⟩
    · cases read

namespace Shell

variable {sh : Shell H}

/-- A line about a variable leaves the variables as they are or assigns to the one that it names. -/
theorem executeVariableLine_cases (sh : Shell H) (word rest : List Char) :
    (sh.executeVariableLine word rest).1.environment = sh.environment ∨
      ∃ name value, isIdentifier name = true ∧
        name = String.ofList (word.takeWhile Text.isAlphanumeric) ∧
        (sh.executeVariableLine word rest).1 = sh.assignVariable name (Text.trim value) := by
  unfold executeVariableLine
  split
  · exact .inl rfl
  · split
    · exact .inl rfl
    · split <;> exact .inl rfl
    · exact .inl rfl
    · rename_i read
      obtain ⟨identifier, named, value, rfl⟩ := VariableRequest.ofLine_eq_assign read
      exact .inr ⟨_, value, identifier, named, rfl⟩

theorem tidy_assignVariable (tidy : sh.environment.Tidy) {name : String}
    (identifier : isIdentifier name = true) (value : List Char) :
    (sh.assignVariable name (Text.trim value)).environment.Tidy := by
  rw [environment_assignVariable]
  split
  · exact tidy.erase name
  · rename_i some
    refine tidy.set identifier (mt String.ofList_eq_empty_iff.mp some) ?_
    rw [Text.trimmed, String.toList_ofList, tidy.trim_expand]

theorem get?_assignVariable_of_ne {name other : String} (ne : other ≠ name) (text : List Char) :
    (sh.assignVariable name text).environment.get? other = sh.environment.get? other := by
  rw [environment_assignVariable]
  split
  · rw [Environment.get?_erase, if_neg ne]
  · rw [Environment.get?_set, if_neg ne]

theorem tidy_executeVariableLine (tidy : sh.environment.Tidy) (word rest : List Char) :
    (sh.executeVariableLine word rest).1.environment.Tidy := by
  rcases sh.executeVariableLine_cases word rest with same | ⟨name, value, identifier, -, same⟩
  · rw [same]
    exact tidy
  · rw [same]
    exact tidy_assignVariable tidy identifier value

/-! ## Other lines -/

theorem tidy_prepare (tidy : sh.environment.Tidy) (line : String) :
    (sh.prepare line).1.environment.Tidy := by
  have entered (text : String) : (sh.addHistory text).environment.Tidy := tidy
  unfold prepare
  dsimp only
  split
  · exact tidy
  · split
    · exact tidy_executeVariableLine (entered _) _ _
    · rw [(shows_resolve _ _).environment]
      exact tidy

theorem environment_prepare_of_plain {line : String}
    (plain : (splitCommand (Text.trim line.toList)).1.head? ≠ some '$') :
    (sh.prepare line).1.environment = sh.environment := by
  unfold prepare
  dsimp only
  split
  · rfl
  · split
    · rename_i word named
      exact absurd (congrArg List.head? named) plain
    · exact (shows_resolve _ _).environment _

theorem environment_settle (sh : Shell H) (command : String) (outcome : Outcome) :
    (sh.settle command outcome).1.environment = sh.environment := by
  cases outcome <;> rfl

end Shell

/-! ## Built-in commands -/

namespace Builtin

open Shell

theorem doing_spares {change : Shell H → Shell H}
    (keeps : ∀ sh, (change sh).environment = sh.environment) :
    (doing change).Spares Shell.environment := ⟨fun sh => keeps sh.quiet, trivial⟩

/-- One case for each built-in command. -/
theorem program_spares {b : Builtin} (other : b ≠ .unset) (arguments : Arguments) :
    (b.program arguments : Program H).Spares Shell.environment := by
  cases b with
  | help =>
    unfold program helpProgram
    dsimp only
    split
    · exact doing_spares shows_overview.environment
    · intro sh
      dsimp only
      split
      · trivial
      · exact doing_spares fun sh => foldl_keeps fun sh c => (shows_usage c).environment sh
  | echo => exact doing_spares fun _ => rfl
  | run =>
    unfold program runProgram
    dsimp only
    split
    · trivial
    · rintro (fault | done)
      · trivial
      · trivial
  | history => exact doing_spares shows_history.environment
  | vars => exact doing_spares shows_variables.environment
  | unset => exact absurd rfl other
  | lex =>
    unfold program lexProgram
    dsimp only
    refine ⟨fun sh => (shows_lexemes _ _).environment sh.quiet, ?_⟩
    split <;> trivial
  | exit =>
    unfold program exitProgram
    dsimp only
    split <;> trivial

theorem program_solitary {b : Builtin} (other : b ≠ .run) (arguments : Arguments) :
    (b.program arguments : Program H).Solitary := by
  cases b with
  | help =>
    unfold program helpProgram
    dsimp only
    split
    · trivial
    · intro sh
      dsimp only
      split <;> trivial
  | echo => trivial
  | run => exact absurd rfl other
  | history => trivial
  | vars => trivial
  | unset =>
    unfold program unsetProgram
    dsimp only
    split
    · trivial
    · intro sh
      dsimp only
      split <;> trivial
  | lex =>
    unfold program lexProgram
    dsimp only [Program.Solitary]
    split <;> trivial
  | exit =>
    unfold program exitProgram
    dsimp only
    split <;> trivial

theorem program_keeps_tidy (b : Builtin) (arguments : Arguments) :
    (b.program arguments : Program H).Keeps fun sh => sh.environment.Tidy := by
  by_cases same : b = .unset
  · subst same
    unfold program unsetProgram
    dsimp only
    split
    · trivial
    · intro sh
      dsimp only
      split
      · exact ⟨fun sh tidy => tidy.erase _, trivial⟩
      · trivial
  · exact (program_spares same arguments).keeps Environment.Tidy

end Builtin

namespace Shell

/-- What a line can call depends on the settings, so they are kept together with tidy variables. -/
theorem tidy_invariant (host : Host H) {start : Shell H} (builtins : start.OnlyBuiltins) :
    Invariant host fun sh => sh.settings = start.settings ∧ sh.environment.Tidy where
  note _ holds := holds
  report _ _ holds := holds
  prepare line holds := ⟨(prepare_settings _ line).trans holds.1, tidy_prepare holds.2 line⟩
  handlers arguments holds called := by
    obtain ⟨b, rfl⟩ := (builtins.of_settings holds.1).exists_of_prepare called
    exact (b.program_overlooks arguments).keeps.and (b.program_keeps_tidy arguments)

/-! ## What a line changes -/

/-- A line that begins with a dollar sign changes at most the variable whose name follows it, and
another changes none unless its name stands for `unset` or `run`. -/
structure ChangesAtMost (sh : Shell H) (line : String) (after : Environment) : Prop where
  named : ∀ word rest, splitCommand (Text.trim line.toList) = ('$' :: word, rest) →
    ∀ name, after.get? name ≠ sh.environment.get? name →
      isIdentifier name = true ∧ name = String.ofList (word.takeWhile Text.isAlphanumeric)
  none : (splitCommand (Text.trim line.toList)).1.head? ≠ some '$' →
    (∀ b ∈ [Builtin.unset, .run],
      sh.registry.sameName b.name (String.ofList (splitCommand (Text.trim line.toList)).1) = false) →
    after = sh.environment

variable {host : Host H} {depth : Nat} {sh after : Shell H} {line : String}

theorem get?_executeLine_of_dollar {result : Except Fault Unit}
    (ran : sh.executeLine host depth line = some (after, result)) {word rest : List Char}
    (named : splitCommand (Text.trim line.toList) = ('$' :: word, rest)) {name : String}
    (changed : after.environment.get? name ≠ sh.environment.get? name) :
    isIdentifier name = true ∧ name = String.ofList (word.takeWhile Text.isAlphanumeric) := by
  cases depth with
  | zero => cases ran
  | succ depth =>
    rw [executeLine_of_settled (prepare_of_dollar named)] at ran
    cases ran
    rcases executeVariableLine_cases (sh.addHistory (Text.trimmed line)) word rest with
      same | ⟨target, value, identifier, rfl, same⟩
    · rw [same] at changed
      exact absurd rfl changed
    · by_cases hit : name = String.ofList (word.takeWhile Text.isAlphanumeric)
      · subst hit
        exact ⟨identifier, rfl⟩
      · rw [same, get?_assignVariable_of_ne hit] at changed
        exact absurd rfl changed

theorem environment_executeLine_of_plain (builtins : sh.OnlyBuiltins) {result : Except Fault Unit}
    (ran : sh.executeLine host depth line = some (after, result))
    (plain : (splitCommand (Text.trim line.toList)).1.head? ≠ some '$')
    (others : ∀ b ∈ [Builtin.unset, .run],
      sh.registry.sameName b.name (String.ofList (splitCommand (Text.trim line.toList)).1) = false) :
    after.environment = sh.environment := by
  have prepared : (sh.prepare line).1.environment = sh.environment :=
    environment_prepare_of_plain plain
  cases depth with
  | zero => cases ran
  | succ depth =>
    cases same : sh.prepare line with
    | mk ready verdict =>
      rw [same] at prepared
      cases verdict with
      | settled result =>
        rw [executeLine_of_settled same] at ran
        cases ran
        exact prepared
      | call command arguments =>
        obtain ⟨b, rfl⟩ := builtins.exists_of_prepare (congrArg Prod.snd same)
        have alike := (Registry.mem_candidates.mp (called_of_prepare same).candidate).2
        have other : ∀ b' ∈ [Builtin.unset, .run], b ≠ b' := by
          rintro b' within rfl
          cases alike.symm.trans (others b within)
        have spares := b.program_spares (H := H) (other .unset (by decide)) arguments
        have solitary := b.program_solitary (H := H) (other .run (by decide)) arguments
        rw [executeLine_of_call same] at ran
        obtain ⟨⟨reached, outcome⟩, ran, settled⟩ := Option.map_eq_some_iff.mp ran
        have noted : (ready.note (.invoking b.name arguments.values.length)).environment =
            sh.environment := prepared
        have kept := solitary.run (spares.keeps (· = sh.environment)) noted ran
        have last : (reached.settle b.name outcome).1 = after := congrArg Prod.fst settled
        rw [← last, environment_settle]
        exact kept

theorem changesAtMost_of_executeLine (builtins : sh.OnlyBuiltins) {result : Except Fault Unit}
    (ran : sh.executeLine host depth line = some (after, result)) :
    sh.ChangesAtMost line after.environment where
  named _ _ named _ changed := get?_executeLine_of_dollar ran named changed
  none plain others := environment_executeLine_of_plain builtins ran plain others

/-- Telling a fault only shows something. -/
theorem shows_reportFault (result : Except Fault Unit) :
    Shows fun sh : Shell H => (sh.reportFault result).1 := by
  intro sh
  dsimp only
  unfold reportFault
  split
  · rfl
  · rfl
  · rename_i fault _
    exact Prod.ext (frame_note sh (.lineFailed fault) id) rfl

theorem exists_of_runLine {code : Option Int32}
    (ran : sh.runLine host depth line = some (after, code)) :
    ∃ executed result, sh.executeLine host depth line = some (executed, result) ∧
      after.held = executed.held := by
  obtain ⟨⟨executed, result⟩, ran, reported⟩ := Option.map_eq_some_iff.mp ran
  have last : (executed.reportFault result).1 = after := congrArg Prod.fst reported
  exact ⟨executed, result, ran, last ▸ shows_reportFault result executed⟩

theorem changesAtMost_of_runLine (builtins : sh.OnlyBuiltins) {code : Option Int32}
    (ran : sh.runLine host depth line = some (after, code)) :
    sh.ChangesAtMost line after.environment := by
  obtain ⟨executed, result, ran, same⟩ := exists_of_runLine ran
  rw [show after.environment = executed.environment from congrArg Prod.snd same]
  exact changesAtMost_of_executeLine builtins ran

/-! ## Any number of calls -/

/-- What a shell can be asked to do from outside. -/
inductive Demand where
  | line (text : String)
  /-- The line is run as one that was typed. -/
  | typed (text : String)
  | script (path : String)

/-- The shell after it, whatever the answer is. -/
def Demand.perform (host : Host H) (depth : Nat) (sh : Shell H) : Demand → Option (Shell H)
  | .line text => (sh.executeLine host depth text).map Prod.fst
  | .typed text => (sh.runLine host depth text).map Prod.fst
  | .script path => (sh.executeScript host depth path).map Prod.fst

/-- The shell can come to be in the course of any number of demands. In between files may change. -/
inductive Reached (host : Host H) (start : Shell H) : Shell H → Prop where
  | start : Reached host start start
  | demand {sh after : Shell H} {depth : Nat} (demand : Demand) (reached : Reached host start sh)
      (performed : demand.perform host depth sh = some after) : Reached host start after
  | files {sh : Shell H} (files : Files) (reached : Reached host start sh) :
      Reached host start { sh with files := files }

/-- One demand keeps the commands and tidy variables. -/
theorem tidy_of_perform {demand : Demand} (builtins : sh.OnlyBuiltins)
    (tidy : sh.environment.Tidy) (performed : demand.perform host depth sh = some after) :
    after.OnlyBuiltins ∧ after.environment.Tidy := by
  have invariant := tidy_invariant host builtins
  cases demand with
  | line text =>
    obtain ⟨⟨executed, result⟩, ran, rfl⟩ := Option.map_eq_some_iff.mp performed
    obtain ⟨settings, tidy⟩ := invariant.executeLine depth ⟨rfl, tidy⟩ ran
    exact ⟨builtins.of_settings settings, tidy⟩
  | typed text =>
    obtain ⟨⟨after, code⟩, ran, rfl⟩ := Option.map_eq_some_iff.mp performed
    obtain ⟨executed, result, ran, same⟩ := exists_of_runLine ran
    obtain ⟨settings, tidy⟩ := invariant.executeLine depth ⟨rfl, tidy⟩ ran
    have frame : after.frame = executed.frame := congrArg Prod.fst same
    have environment : after.environment = executed.environment := congrArg Prod.snd same
    exact ⟨builtins.of_settings ((congrArg Frame.settings frame).trans settings), environment ▸ tidy⟩
  | script path =>
    obtain ⟨⟨executed, result⟩, ran, rfl⟩ := Option.map_eq_some_iff.mp performed
    obtain ⟨settings, tidy⟩ := invariant.executeScript depth ⟨rfl, tidy⟩ ran
    exact ⟨builtins.of_settings settings, tidy⟩

/-- By induction on the demands. -/
theorem tidy_of_reached {start : Shell H} (builtins : start.OnlyBuiltins)
    (tidy : start.environment.Tidy) (reached : Reached host start sh) :
    sh.OnlyBuiltins ∧ sh.environment.Tidy := by
  induction reached with
  | start => exact ⟨builtins, tidy⟩
  | demand demand _ performed ih => exact tidy_of_perform ih.1 ih.2 performed
  | files files _ ih => exact ih

/-- After any number of calls all variables are tidy, and no line changes more of them than it says. -/
theorem variables_of_builtins (host : Host H) {start : Shell H} (builtins : start.OnlyBuiltins)
    (empty : start.environment = .empty) :
    (∀ sh, Reached host start sh → sh.OnlyBuiltins ∧ sh.environment.Tidy) ∧
    ∀ sh : Shell H, sh.OnlyBuiltins → ∀ depth line,
      (∀ after result, sh.executeLine host depth line = some (after, result) →
        sh.ChangesAtMost line after.environment) ∧
      ∀ after code, sh.runLine host depth line = some (after, code) →
        sh.ChangesAtMost line after.environment := by
  have tidy : start.environment.Tidy := empty ▸ Environment.Tidy.of_empty
  refine ⟨fun sh reached => tidy_of_reached builtins tidy reached, fun sh only depth line => ?_⟩
  exact ⟨fun after result ran => changesAtMost_of_executeLine only ran,
    fun after code ran => changesAtMost_of_runLine only ran⟩

/-- A shell with the built-in commands alone. -/
def plainShell : Shell Unit := ({ builtins := true } : ShellSetup Unit).shell

theorem variables_of_plainShell :
    plainShell.OnlyBuiltins ∧ plainShell.environment = .empty ∧
      ∃ after, Reached idleHost plainShell after ∧ after.environment.get? "x" = some "5" ∧
        after.environment.Tidy ∧
        plainShell.ChangesAtMost (spacedLine "x" " 5 ") after.environment := by
  have builtins : plainShell.OnlyBuiltins := rfl
  obtain ⟨tidy, changes⟩ := variables_of_builtins idleHost builtins rfl
  have identifier : isIdentifier "x" = true := by decide
  have value : Text.trim (Text.trimEnd " 5 ".toList) = "5".toList := by decide
  let after := (plainShell.addHistory (Text.trimmed (spacedLine "x" " 5 "))).assignVariable "x"
    "5".toList
  have ran : plainShell.executeLine idleHost 1 (spacedLine "x" " 5 ") = some (after, .ok ()) := by
    rw [executeLine_of_settled (prepare_spacedLine rfl identifier " 5 "), value]
  have performed : Demand.perform idleHost 1 plainShell (.line (spacedLine "x" " 5 ")) = some after :=
    congrArg (Option.map Prod.fst) ran
  have reached : Reached idleHost plainShell after := .demand _ .start performed
  have five : after.environment.get? "x" = some "5" :=
    get?_assignVariable_of_not_mem _ "x" (by decide) (by decide)
  exact ⟨builtins, rfl, after, reached, five, (tidy after reached).2,
    (changes plainShell builtins 1 _).1 after _ ran⟩

end Shell

end LineConsole
