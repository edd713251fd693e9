import LineConsole.CommandLine.Batch
import LineConsole.Proofs.Shell.Builtins
import LineConsole.Proofs.Shell.Sequence

/-! # Which lines enter the history

Where the only commands are those built in, a line enters the history before its command runs, and all
that can enter behind it are the statements of the scripts that it runs. Each of these is noted as it
begins. So whatever is executed enters the history in the order in which it begins, and nothing else
does.
-/

namespace LineConsole

open Shell

variable {H α : Type}

namespace Shell

theorem OnlyBuiltins.of_frame {sh after : Shell H} {f : Frame H} (builtins : sh.OnlyBuiltins)
    (same : after.frame = f) (settings : f.settings = sh.settings) : after.OnlyBuiltins := by
  have registry : after.registry = sh.registry :=
    congrArg Settings.registry ((congrArg Frame.settings same).trans settings)
  rw [OnlyBuiltins, registry]
  exact builtins

/-- These statements have begun, and have entered the history. -/
def Frame.after (f : Frame H) (statements : List String) : Frame H :=
  { f with
    history := f.history.addAll (statements.map Text.trimmed)
    begun := f.begun ++ statements }

theorem Frame.history_enter (f : Frame H) (line : String) :
    (f.enter line).history = f.history.addAll [Text.trimmed line] := by
  rw [enter]

theorem Frame.history_after (f : Frame H) (statements : List String) :
    (f.after statements).history = f.history.addAll (statements.map Text.trimmed) := by
  rw [after]

theorem Frame.after_nil (f : Frame H) : f.after [] = f := by
  rw [after, List.append_nil, List.map_nil, History.addAll_nil]

theorem Frame.after_after (f : Frame H) (first second : List String) :
    (f.after first).after second = f.after (first ++ second) := by
  simp only [after, List.map_append, History.addAll_append, List.append_assoc]

/-- A statement is noted and then executed as a line. -/
theorem frame_enter_note_statement (sh : Shell H) (number : Nat) (text : String) :
    (sh.note (.scriptStatement number text)).frame.enter text = sh.frame.after [text] := by
  simp only [Frame.enter, Frame.after, frame, note, begun, List.filterMap_append]
  rfl

/-- Only statements that begin enter the history. -/
def EntersStatements (execute : Shell H → α → Execution H) : Prop :=
  ∀ ⦃sh a after result⦄, sh.OnlyBuiltins → execute sh a = some (after, result) →
    ∃ statements, after.frame = sh.frame.after statements

/-- The line enters the history, and behind it only statements that begin do. -/
def EntersLine (execute : Shell H → String → Execution H) : Prop :=
  ∀ ⦃sh text after result⦄, sh.OnlyBuiltins → execute sh text = some (after, result) →
    ∃ statements, after.frame = (sh.frame.enter text).after statements

end Shell

/-- By induction on the program. -/
theorem Program.Overlooks.run {program : Program H} (overlooks : program.Overlooks)
    {runner : Runner H} (scripts : EntersStatements runner.script) {sh after : Shell H}
    {outcome : Outcome} (builtins : sh.OnlyBuiltins)
    (ran : program.run runner sh = some (after, outcome)) :
    ∃ statements, after.frame = sh.frame.after statements := by
  induction program generalizing sh with
  | finish outcome =>
    cases ran
    exact ⟨[], (Frame.after_nil _).symm⟩
  | inspect next ih => exact ih sh.quiet (overlooks sh.quiet) builtins ran
  | update change next ih =>
    have kept : (sh.changedBy change).frame = sh.frame := frame_changedBy overlooks.1
    rw [← kept]
    exact ih overlooks.2 (builtins.of_frame kept rfl) ran
  | line text next ih => exact overlooks.elim
  | script path next ih =>
    simp only [Program.run] at ran
    split at ran
    · cases ran
    · rename_i result executed
      obtain ⟨first, same⟩ := scripts builtins executed
      obtain ⟨second, same'⟩ := ih result (overlooks result) (builtins.of_frame same rfl) ran
      exact ⟨first ++ second, by rw [same', same, Frame.after_after]⟩

namespace Shell

variable {host : Host H}

theorem EntersStatements.executeLineWith {runner : Runner H}
    (scripts : EntersStatements runner.script) : EntersLine (executeLineWith host runner) := by
  intro sh text after result builtins ran
  have prepared := frame_prepare sh text
  unfold Shell.executeLineWith at ran
  rcases preparation : sh.prepare text with ⟨ready, verdict⟩
  rw [preparation] at prepared ran
  cases verdict with
  | settled result =>
    cases ran
    exact ⟨[], prepared.trans (Frame.after_nil _).symm⟩
  | call command arguments =>
    obtain ⟨b, rfl⟩ := builtins.exists_of_prepare (congrArg Prod.snd preparation)
    obtain ⟨⟨left, outcome⟩, ran, settled⟩ := Option.map_eq_some_iff.mp ran
    have noted : (ready.note (.invoking b.name arguments.values.length)).frame =
        sh.frame.enter text := (frame_note _ _ id).trans prepared
    obtain ⟨statements, same⟩ :=
      (b.program_overlooks arguments).run scripts (builtins.of_frame noted rfl) ran
    have ended : (left.settle b.name outcome).1 = after := congrArg Prod.fst settled
    refine ⟨statements, ?_⟩
    rw [← noted, ← same, ← ended]
    exact frame_settle left b.name outcome

theorem EntersLine.executeStatement {execute : Shell H → String → Execution H}
    (line : EntersLine execute) (path : String) :
    EntersStatements (executeStatement execute path) := by
  intro sh first after result builtins ran
  obtain ⟨number, text⟩ := first
  obtain ⟨⟨left, result'⟩, executed, same⟩ := Option.map_eq_some_iff.mp ran
  cases same
  have only : (sh.note (.scriptStatement number text)).OnlyBuiltins := builtins
  obtain ⟨statements, same⟩ := line only executed
  rw [frame_enter_note_statement, Frame.after_after] at same
  exact ⟨[text] ++ statements, same⟩

/-- By induction on the items. -/
theorem EntersStatements.executeAll {execute : Shell H → α → Execution H}
    (each : EntersStatements execute) :
    EntersStatements fun sh items => executeAll execute items sh := by
  intro sh items after result builtins ran
  induction items generalizing sh with
  | nil =>
    cases ran
    exact ⟨[], (Frame.after_nil _).symm⟩
  | cons a rest ih =>
    simp only [Shell.executeAll] at ran
    split at ran
    · rename_i executed
      obtain ⟨first, same⟩ := each builtins executed
      obtain ⟨second, same'⟩ := ih (builtins.of_frame same rfl) ran
      exact ⟨first ++ second, by rw [same', same, Frame.after_after]⟩
    · exact each builtins ran

theorem EntersLine.executeScriptWith {execute : Shell H → String → Execution H}
    (line : EntersLine execute) : EntersStatements (executeScriptWith execute) := by
  intro sh path after result builtins ran
  unfold Shell.executeScriptWith at ran
  dsimp only at ran
  split at ran
  · cases ran
    exact ⟨[], (Frame.after_nil _).symm⟩
  · split at ran
    · cases ran
      exact ⟨[], (Frame.after_nil _).symm⟩
    · rw [runStatements_eq_executeAll] at ran
      have started := frame_note sh
        (.scriptStarted (Path.withDefaultExtension sh.scriptExtension path)) id
      rw [← started]
      have inOrder := (line.executeStatement
        (Path.withDefaultExtension sh.scriptExtension path)).executeAll
      split at ran
      · rename_i executed
        cases ran
        obtain ⟨statements, same⟩ := inOrder (builtins.of_frame started rfl) executed
        exact ⟨statements, (frame_note _ _ id).trans same⟩
      · exact inOrder (builtins.of_frame started rfl) ran

/-- By induction on the depth, for lines and scripts together. -/
theorem runner_enters (host : Host H) (depth : Nat) :
    EntersLine (runner host depth).line ∧ EntersStatements (runner host depth).script := by
  induction depth with
  | zero => exact ⟨fun _ _ _ _ _ absent => (nomatch absent), fun _ _ _ _ _ absent => (nomatch absent)⟩
  | succ depth ih =>
    simp only [runner]
    have line : EntersLine (executeLineWith host (runner host depth)) := ih.2.executeLineWith
    exact ⟨line, line.executeScriptWith⟩

/-! ## Batches -/

/-- The statements of scripts that have begun since. -/
def begunSince (sh after : Shell H) : List String := after.begun.drop sh.begun.length

/-- What a batch executes, in the order in which it begins: the statements of its scripts and, if all
of these succeeded, its line and the statements of the scripts that the line runs. -/
def executedLines (host : Host H) (depth : Nat) (sh : Shell H) (invocation : Invocation) :
    List String :=
  match executeAll (executeScript host depth) invocation.scripts sh with
  | none => []
  | some (reached, .error _) => sh.begunSince reached
  | some (reached, .ok _) =>
    match invocation.command with
    | none => sh.begunSince reached
    | some text =>
      match executeLine host depth reached text with
      | none => []
      | some (left, _) => sh.begunSince reached ++ text :: reached.begunSince left

theorem begunSince_of_frame {sh after : Shell H} {f : Frame H} {statements : List String}
    (same : after.frame = f.after statements) (begun : f.begun = sh.begun) :
    sh.begunSince after = statements := by
  have all : after.begun = sh.begun ++ statements := begun ▸ congrArg Frame.begun same
  rw [begunSince, all, List.drop_left]

/-- What a batch executes enters the history, trimmed and unless it is blank, in the order in which
it begins. -/
theorem history_executeBatch {depth : Nat} {sh after : Shell H} {invocation : Invocation}
    {result : Except Fault Unit} (builtins : sh.OnlyBuiltins)
    (ran : sh.executeBatch host depth invocation = some (after, result)) :
    after.settings = sh.settings ∧ after.history =
      sh.history.addAll ((sh.executedLines host depth invocation).map Text.trimmed) := by
  obtain ⟨line, script⟩ := runner_enters host depth
  unfold executeBatch at ran
  unfold executedLines
  cases executed : executeAll (executeScript host depth) invocation.scripts sh with
  | none =>
    rw [executed] at ran
    cases ran
  | some answer =>
    obtain ⟨reached, ended⟩ := answer
    obtain ⟨statements, same⟩ := script.executeAll builtins executed
    obtain rfl : sh.begunSince reached = statements := begunSince_of_frame same rfl
    have settings : reached.settings = sh.settings := congrArg Frame.settings same
    have history : reached.history =
        sh.history.addAll ((sh.begunSince reached).map Text.trimmed) := congrArg Frame.history same
    rw [executed] at ran
    cases ended with
    | error fault =>
      cases ran
      exact ⟨settings, history⟩
    | ok done =>
      cases given : invocation.command with
      | none =>
        rw [given] at ran
        cases ran
        exact ⟨settings, history⟩
      | some text =>
        rw [given] at ran
        simp only [Option.toList_some, executeAll_singleton] at ran
        obtain ⟨behind, same'⟩ := line (builtins.of_frame same rfl) ran
        obtain rfl : reached.begunSince after = behind := begunSince_of_frame same' rfl
        have entered : after.frame.history = reached.frame.history.addAll
            (Text.trimmed text :: (reached.begunSince after).map Text.trimmed) := by
          rw [same', Frame.history_after, Frame.history_enter, ← History.addAll_append,
            List.singleton_append]
        refine ⟨(congrArg Frame.settings same').trans settings, ?_⟩
        simp only [ran, List.map_append, List.map_cons, History.addAll_append, ← history]
        exact entered

end Shell

end LineConsole
