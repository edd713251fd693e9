import LineConsole.Proofs.History.Newest
import LineConsole.Proofs.Shell.Calls
import LineConsole.Proofs.Shell.Invariants

/-! # Shells with the built-in commands alone

No built-in command changes the commands, the settings or the files of its shell, and neither does
anything that a line does by itself. So a shell that has only the built-in commands has them for good.
Nor does a built-in command enter a line into the history or note a statement, except by running a
script.
-/

namespace LineConsole

variable {H : Type}

/-- No two built-in commands have names that differ in case at most. -/
theorem Builtin.equalIgnoringCase_name (b b' : Builtin) :
    equalIgnoringCase b.name b'.name = decide (b = b') := by
  cases b <;> cases b' <;> decide +kernel

theorem Builtin.name_beq (b b' : Builtin) : (b.name == b'.name) = decide (b = b') := by
  cases b <;> cases b' <;> decide

namespace Shell

/-- The only commands are those built in. -/
def OnlyBuiltins (sh : Shell H) : Prop := sh.registry.commands = Builtin.all.map Builtin.command

/-- Each of them is alone under its name, with and without regard to case. -/
theorem OnlyBuiltins.candidates {sh : Shell H} (builtins : sh.OnlyBuiltins) (b : Builtin) :
    sh.registry.candidates b.name = [b.command] := by
  have named (c : Builtin) : sh.registry.sameName c.name b.name = decide (c = b) := by
    unfold Registry.sameName
    split
    · exact Builtin.name_beq c b
    · exact Builtin.equalIgnoringCase_name c b
  have alone : Builtin.all.filter (fun c => decide (c = b)) = [b] := by
    cases b <;> rfl
  have filtered :
      sh.registry.commands.filter (fun c => sh.registry.sameName c.name b.name) = [b.command] := by
    rw [builtins, List.filter_map]
    simp only [Function.comp_def, Builtin.command, named, alone, List.map_cons, List.map_nil]
  rw [Registry.candidates, filtered, List.mergeSort_singleton]

/-- What no built-in command changes. -/
structure Settings (H : Type) where
  registry : Registry (Handler H)
  converters : Converters
  usesVariables : Bool
  scriptExtension : String
  files : Files

def settings (sh : Shell H) : Settings H :=
  ⟨sh.registry, sh.converters, sh.usesVariables, sh.scriptExtension, sh.files⟩

theorem OnlyBuiltins.of_settings {sh sh' : Shell H} (builtins : sh.OnlyBuiltins)
    (same : sh'.settings = sh.settings) : sh'.OnlyBuiltins := by
  rw [OnlyBuiltins, show sh'.registry = sh.registry from congrArg Settings.registry same]
  exact builtins

/-- The statements of scripts that have begun, in order. -/
def begun (sh : Shell H) : List String := sh.log.filterMap LogRecord.statement?

/-- What built-in commands do not change by themselves: a line enters the history before its command
runs, and a statement is noted before it is executed. -/
structure Frame (H : Type) where
  settings : Settings H
  history : History
  begun : List String

def frame (sh : Shell H) : Frame H := ⟨sh.settings, sh.history, sh.begun⟩

/-- A change of the rest. -/
def KeepsFrame (change : Shell H → Shell H) : Prop := ∀ sh, (change sh).frame = sh.frame

section Frame

variable {sh : Shell H}

theorem frame_noteAll {records : List LogRecord}
    (others : ∀ record ∈ records, ¬ record.IsStatement) : (sh.noteAll records).frame = sh.frame := by
  have none : records.filterMap LogRecord.statement? = [] :=
    List.filterMap_eq_nil_iff.mpr fun record noted =>
      LogRecord.statement?_eq_none (others record noted)
  simp only [frame, noteAll, settings, begun, List.filterMap_append, none, List.append_nil]

theorem frame_note (sh : Shell H) (record : LogRecord) (other : ¬ record.IsStatement) :
    (sh.note record).frame = sh.frame :=
  frame_noteAll (List.forall_mem_singleton.mpr other)

/-- What every step keeps, items in order keep. -/
theorem foldl_keeps {α β : Type} {f : Shell H → β} {change : Shell H → α → Shell H} {items : List α}
    (keeps : ∀ sh a, f (change sh a) = f sh) : f (items.foldl change sh) = f sh := by
  induction items generalizing sh with
  | nil => rfl
  | cons a items ih => exact ih.trans (keeps sh a)

/-- What a change notes comes behind what was noted before, so it need not see that. -/
theorem frame_changedBy {change : Shell H → Shell H} (keeps : KeepsFrame change) :
    (sh.changedBy change).frame = sh.frame := by
  have kept := keeps sh.quiet
  have settings : (change sh.quiet).settings = sh.settings := congrArg Frame.settings kept
  have history : (change sh.quiet).history = sh.history := congrArg Frame.history kept
  have none : (change sh.quiet).log.filterMap LogRecord.statement? = [] :=
    congrArg Frame.begun kept
  simp only [frame, changedBy, begun, List.filterMap_append, none, List.append_nil]
  rw [← settings, ← history]
  rfl

theorem frame_settle (sh : Shell H) (command : String) (outcome : Outcome) :
    (sh.settle command outcome).1.frame = sh.frame := by
  cases outcome with
  | done => rfl
  | exit code => rfl
  | failed message => exact frame_note sh (.commandFailed command message) id
  | crashed reason =>
    exact frame_note sh (.commandFailed command (reason.getD "command panicked")) id

end Frame

/-- The frame and the variables. -/
def held (sh : Shell H) : Frame H × Environment := (sh.frame, sh.environment)

/-- A change that only shows something. -/
def Shows (change : Shell H → Shell H) : Prop := ∀ sh, (change sh).held = sh.held

namespace Shows

variable {change : Shell H → Shell H}

theorem keepsFrame (shows : Shows change) : KeepsFrame change :=
  fun sh => congrArg Prod.fst (shows sh)

theorem environment (shows : Shows change) (sh : Shell H) :
    (change sh).environment = sh.environment := congrArg Prod.snd (shows sh)

end Shows

/-! ## Lines -/

theorem frame_executeVariableLine (sh : Shell H) (word rest : List Char) :
    (sh.executeVariableLine word rest).1.frame = sh.frame := by
  unfold executeVariableLine
  split
  · rfl
  · split
    · rfl
    · split <;> rfl
    · rename_i name _
      exact frame_note sh (.colonAssignment name) id
    · rename_i name text _
      unfold assignVariable
      dsimp only
      split
      · exact frame_note (sh.eraseVariable name) (.variableCleared name) id
      · exact frame_note sh (.variableSet name _) id

/-- Looking for a command only shows something. -/
theorem shows_resolve (name text : String) : Shows fun sh : Shell H => (sh.resolve name text).1 := by
  intro sh
  dsimp only
  unfold resolve
  split
  · rfl
  · dsimp only
    split
    · rfl
    · split
      · refine Prod.ext (frame_noteAll fun record noted => ?_) rfl
        obtain ⟨attempt, -, noted⟩ := List.mem_flatMap.mp noted
        exact not_isStatement_of_mem_records noted
      · dsimp only
        rw [foldl_keeps (f := held)]
        · exact Prod.ext (frame_note sh (.noOverload name _) id) rfl
        · exact fun _ _ => rfl

/-- The line, trimmed, enters the history if it is not blank. -/
def Frame.enter (f : Frame H) (line : String) : Frame H :=
  { f with history := f.history.addAll [Text.trimmed line] }

theorem frame_prepare (sh : Shell H) (line : String) :
    (sh.prepare line).1.frame = sh.frame.enter line := by
  have trimmed := Text.isBlankText_trimmed_iff line
  unfold prepare
  dsimp only
  split
  · rename_i blank
    rw [Frame.enter, History.addAll_singleton_of_blank (trimmed.mpr blank)]
  · rename_i inked
    have entered : (sh.addHistory (Text.trimmed line)).frame = sh.frame.enter line := by
      rw [Frame.enter, History.addAll_singleton_of_inked (Bool.eq_false_iff.mpr (mt trimmed.mp inked))]
      rfl
    split
    · exact (frame_executeVariableLine _ _ _).trans entered
    · exact ((shows_resolve _ _).keepsFrame _).trans entered

theorem prepare_settings (sh : Shell H) (line : String) :
    (sh.prepare line).1.settings = sh.settings := congrArg Frame.settings (frame_prepare sh line)

/-- A line calls a command that the shell has. -/
theorem mem_commands_of_prepare {sh : Shell H} {line : String} {command : Command (Handler H)}
    {arguments : Arguments} (called : (sh.prepare line).2 = .call command arguments) :
    command ∈ sh.registry.commands := by
  exact (Registry.mem_candidates.mp (called_of_prepare (Prod.ext rfl called)).candidate).1

/-- Built-in commands are all that a line can call where there are no others. -/
theorem OnlyBuiltins.exists_of_prepare {sh : Shell H} (builtins : sh.OnlyBuiltins) {line : String}
    {command : Command (Handler H)} {arguments : Arguments}
    (called : (sh.prepare line).2 = .call command arguments) :
    ∃ b : Builtin, command = b.command := by
  have known := mem_commands_of_prepare called
  rw [builtins] at known
  obtain ⟨b, -, rfl⟩ := List.mem_map.mp known
  exact ⟨b, rfl⟩

end Shell

/-! ## Handlers -/

/-- The program keeps the frame, lines and scripts left out, and executes no line. -/
def Program.Overlooks : Program H → Prop
  | .finish _ => True
  | .inspect next => ∀ sh, (next sh).Overlooks
  | .update change next => Shell.KeepsFrame change ∧ next.Overlooks
  | .line _ _ => False
  | .script _ next => ∀ result, (next result).Overlooks

theorem Program.Overlooks.keeps {program : Program H} (overlooks : program.Overlooks)
    {settings : Shell.Settings H} : program.Keeps (·.settings = settings) := by
  induction program with
  | finish outcome => trivial
  | inspect next ih => exact fun sh => ih sh (overlooks sh)
  | update change next ih =>
    exact ⟨fun sh holds => (congrArg Shell.Frame.settings (Shell.frame_changedBy overlooks.1)).trans holds,
      ih overlooks.2⟩
  | line text next ih => exact overlooks.elim
  | script path next ih => exact fun result => ih result (overlooks result)

namespace Builtin

open Shell

theorem shows_usage (c : Command (Handler H)) : Shows fun sh => showUsage sh c := by
  intro sh
  unfold showUsage
  dsimp only
  split <;> rfl

theorem shows_overview : Shows (showOverview : Shell H → Shell H) := by
  intro sh
  unfold showOverview
  exact foldl_keeps fun _ _ => rfl

theorem shows_history : Shows (showHistory : Shell H → Shell H) := by
  intro sh
  unfold showHistory
  exact foldl_keeps fun _ _ => rfl

theorem shows_variables : Shows (showVariables : Shell H → Shell H) := by
  intro sh
  unfold showVariables
  split
  · rfl
  · exact foldl_keeps fun _ _ => rfl

theorem shows_lexemes (items : List (Except Fault Lexeme)) (warnings : List Diagnostic) :
    Shows (showLexemes items warnings : Shell H → Shell H) := by
  intro sh
  unfold showLexemes
  dsimp only
  rw [foldl_keeps (f := held), foldl_keeps (f := held)]
  · refine Prod.ext (frame_noteAll fun record noted => ?_) rfl
    obtain ⟨diagnostic, -, rfl⟩ := List.mem_map.mp noted
    exact id
  · exact fun _ _ => rfl
  · exact fun _ _ => rfl

theorem doing_overlooks {change : Shell H → Shell H} (keeps : KeepsFrame change) :
    (doing change).Overlooks := ⟨keeps, trivial⟩

/-- One case for each built-in command. -/
theorem program_overlooks (b : Builtin) (arguments : Arguments) :
    (b.program arguments : Program H).Overlooks := by
  cases b with
  | help =>
    unfold program helpProgram
    dsimp only
    split
    · exact doing_overlooks shows_overview.keepsFrame
    · intro sh
      dsimp only
      split
      · trivial
      · exact doing_overlooks fun sh => foldl_keeps fun sh c => (shows_usage c).keepsFrame sh
  | echo => exact doing_overlooks fun _ => rfl
  | run =>
    unfold program runProgram
    dsimp only
    split
    · trivial
    · rintro (fault | done)
      · trivial
      · trivial
  | history => exact doing_overlooks shows_history.keepsFrame
  | vars => exact doing_overlooks shows_variables.keepsFrame
  | unset =>
    unfold program unsetProgram
    dsimp only
    split
    · trivial
    · intro sh
      dsimp only
      split
      · exact doing_overlooks fun _ => rfl
      · trivial
  | lex =>
    unfold program lexProgram
    dsimp only
    refine ⟨(shows_lexemes _ _).keepsFrame, ?_⟩
    split <;> trivial
  | exit =>
    unfold program exitProgram
    dsimp only
    split <;> trivial

end Builtin

/-- Where the only commands are those built in, lines, scripts and batches change neither the commands
nor the settings nor the files. -/
theorem Shell.settings_invariant (host : Host H) {settings : Settings H}
    (builtins : settings.registry.commands = Builtin.all.map Builtin.command) :
    Invariant host fun sh => sh.settings = settings where
  note _ holds := holds
  report _ _ holds := holds
  prepare line holds := (prepare_settings _ line).trans holds
  handlers arguments holds called := by
    rename_i sh line command
    have only : sh.OnlyBuiltins := by
      rw [OnlyBuiltins, show sh.registry = settings.registry from congrArg Settings.registry holds]
      exact builtins
    obtain ⟨b, rfl⟩ := only.exists_of_prepare called
    exact (b.program_overlooks arguments).keeps

end LineConsole
