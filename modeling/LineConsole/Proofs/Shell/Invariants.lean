import LineConsole.Proofs.Shell.Sequence

/-! # What all lines keep

Whatever a line does before a handler runs, whatever is noted and reported, and whatever the handlers
do themselves: what all of that keeps, every line, every script and every batch keeps, however deep
handlers nest. The handlers that count are those that a line can come to from where it holds.
-/

namespace LineConsole

variable {H α : Type} {I : Shell H → Prop}

/-- No change that the program makes itself loses it; lines and scripts are left out. -/
def Program.Keeps (I : Shell H → Prop) : Program H → Prop
  | .finish _ => True
  | .inspect next => ∀ sh, (next sh).Keeps I
  | .update change next => (∀ sh, I sh → I (sh.changedBy change)) ∧ next.Keeps I
  | .line _ next => ∀ result, (next result).Keeps I
  | .script _ next => ∀ result, (next result).Keeps I

/-- An execution does not lose it. -/
def KeptBy (I : Shell H → Prop) (execute : Shell H → α → Execution H) : Prop :=
  ∀ ⦃sh a sh' result⦄, I sh → execute sh a = some (sh', result) → I sh'

/-- Neither lines nor scripts lose it. -/
structure KeptByRunner (I : Shell H → Prop) (runner : Runner H) : Prop where
  line : KeptBy I runner.line
  script : KeptBy I runner.script

theorem KeptByRunner.of_both {line script : Shell H → String → Execution H} (lines : KeptBy I line)
    (scripts : KeptBy I script) : KeptByRunner I ⟨line, script⟩ := ⟨lines, scripts⟩

theorem keptBy_of_nothing : KeptBy I (fun (_ : Shell H) (_ : α) => (none : Execution H)) :=
  fun _ _ _ _ _ absent => nomatch absent

/-- What every item keeps, items in order keep. -/
theorem KeptBy.executeAll {execute : Shell H → α → Execution H} (each : KeptBy I execute)
    {items : List α} {sh sh' : Shell H} {result : Except Fault Unit} (holds : I sh)
    (ran : Shell.executeAll execute items sh = some (sh', result)) : I sh' := by
  induction items generalizing sh with
  | nil =>
    cases ran
    exact holds
  | cons a rest ih =>
    rw [Shell.executeAll] at ran
    split at ran
    · rename_i executed
      exact ih (each holds executed) ran
    · exact each holds ran

/-- Kept by all that lines, scripts and batches are made of. -/
structure Invariant (host : Host H) (I : Shell H → Prop) : Prop where
  note : ∀ {sh} record, I sh → I (sh.note record)
  report : ∀ {sh} command message, I sh → I (sh.reportFailure command message)
  prepare : ∀ {sh} line, I sh → I (sh.prepare line).1
  handlers : ∀ {sh line command} arguments, I sh →
    (sh.prepare line).2 = .call command arguments → (command.handler.program host arguments).Keeps I

theorem Program.Keeps.run {program : Program H} {runner : Runner H} {sh sh' : Shell H}
    {outcome : Outcome} (keeps : program.Keeps I) (kept : KeptByRunner I runner) (holds : I sh)
    (ran : program.run runner sh = some (sh', outcome)) : I sh' := by
  induction program generalizing sh with
  | finish outcome =>
    cases ran
    exact holds
  | inspect next ih => exact ih sh.quiet (keeps sh.quiet) holds ran
  | update change next ih => exact ih keeps.2 (keeps.1 sh holds) ran
  | line text next ih =>
    simp only [Program.run] at ran
    split at ran
    · cases ran
    · rename_i result executed
      exact ih result (keeps result) (kept.line holds executed) ran
  | script path next ih =>
    simp only [Program.run] at ran
    split at ran
    · cases ran
    · rename_i result executed
      exact ih result (keeps result) (kept.script holds executed) ran

/-! ## Programs by themselves -/

namespace Program

/-- No change that the program makes itself shows in what is observed of its shell; lines and scripts
are left out. -/
def Spares (f : Shell H → α) : Program H → Prop
  | .finish _ => True
  | .inspect next => ∀ sh, (next sh).Spares f
  | .update change next => (∀ sh, f (sh.changedBy change) = f sh) ∧ next.Spares f
  | .line _ next => ∀ result, (next result).Spares f
  | .script _ next => ∀ result, (next result).Spares f

theorem Spares.keeps {f : Shell H → α} {program : Program H} (spares : program.Spares f)
    (P : α → Prop) : program.Keeps fun sh => P (f sh) := by
  induction program with
  | finish outcome => trivial
  | inspect next ih => exact fun sh => ih sh (spares sh)
  | update change next ih => exact ⟨fun sh holds => (congrArg P (spares.1 sh)).mpr holds, ih spares.2⟩
  | line text next ih => exact fun result => ih result (spares result)
  | script path next ih => exact fun result => ih result (spares result)

theorem Keeps.and {J : Shell H → Prop} {program : Program H} (keeps : program.Keeps I)
    (keeps' : program.Keeps J) : program.Keeps fun sh => I sh ∧ J sh := by
  induction program with
  | finish outcome => trivial
  | inspect next ih => exact fun sh => ih sh (keeps sh) (keeps' sh)
  | update change next ih =>
    exact ⟨fun sh holds => ⟨keeps.1 sh holds.1, keeps'.1 sh holds.2⟩, ih keeps.2 keeps'.2⟩
  | line text next ih => exact fun result => ih result (keeps result) (keeps' result)
  | script path next ih => exact fun result => ih result (keeps result) (keeps' result)

/-- The program executes neither lines nor scripts. -/
def Solitary : Program H → Prop
  | .finish _ => True
  | .inspect next => ∀ sh, (next sh).Solitary
  | .update _ next => next.Solitary
  | .line _ _ => False
  | .script _ _ => False

theorem Solitary.run_eq {program : Program H} (solitary : program.Solitary)
    (runner runner' : Runner H) (sh : Shell H) : program.run runner sh = program.run runner' sh := by
  induction program generalizing sh with
  | finish outcome => rfl
  | inspect next ih => exact ih sh.quiet (solitary sh.quiet) sh
  | update change next ih => exact ih solitary (sh.changedBy change)
  | line text next ih => exact solitary.elim
  | script path next ih => exact solitary.elim

/-- Whatever lines and scripts do, a program without them does not lose what it keeps. -/
theorem Solitary.run {program : Program H} (solitary : program.Solitary) (keeps : program.Keeps I)
    {runner : Runner H} {sh sh' : Shell H} {outcome : Outcome} (holds : I sh)
    (ran : program.run runner sh = some (sh', outcome)) : I sh' := by
  rw [solitary.run_eq runner ⟨fun _ _ => none, fun _ _ => none⟩] at ran
  exact keeps.run (.of_both keptBy_of_nothing keptBy_of_nothing) holds ran

end Program

/-! ## Lines and scripts -/

namespace Invariant

open Shell

variable {host : Host H}

theorem settle (invariant : Invariant host I) {sh : Shell H} (holds : I sh) (command : String)
    (outcome : Outcome) : I (sh.settle command outcome).1 := by
  cases outcome with
  | done => exact holds
  | exit code => exact holds
  | failed message => exact invariant.report command message holds
  | crashed reason => exact invariant.report command _ holds

theorem executeLineWith (invariant : Invariant host I) {runner : Runner H}
    (kept : KeptByRunner I runner) : KeptBy I (executeLineWith host runner) := by
  intro sh text sh' result holds ran
  have prepared := invariant.prepare text holds
  have handlers {command arguments} (called : (sh.prepare text).2 = .call command arguments) :
      (command.handler.program host arguments).Keeps I := invariant.handlers arguments holds called
  unfold Shell.executeLineWith at ran
  generalize sh.prepare text = preparation at prepared handlers ran
  obtain ⟨ready, verdict⟩ := preparation
  cases verdict with
  | settled result =>
    cases ran
    exact prepared
  | call command arguments =>
    obtain ⟨⟨after', outcome⟩, ran, settled⟩ := Option.map_eq_some_iff.mp ran
    have noted := invariant.note (.invoking command.name arguments.values.length) prepared
    have after := (handlers rfl).run kept noted ran
    have settled : (after'.settle command.name outcome).1 = sh' := congrArg Prod.fst settled
    rw [← settled]
    exact invariant.settle after command.name outcome

theorem runStatements (invariant : Invariant host I) {execute : Shell H → String → Execution H}
    (line : KeptBy I execute) {path : String} {lines : List (Nat × String)} {sh sh' : Shell H}
    {result : Except Fault Unit} (holds : I sh)
    (ran : runStatements execute path lines sh = some (sh', result)) : I sh' := by
  have statement : KeptBy I (executeStatement execute path) := by
    intro sh first sh' result holds ran
    obtain ⟨⟨after, result'⟩, executed, same⟩ := Option.map_eq_some_iff.mp ran
    cases same
    exact line (invariant.note (.scriptStatement first.1 first.2) holds) executed
  rw [runStatements_eq_executeAll] at ran
  exact statement.executeAll holds ran

theorem executeScriptWith (invariant : Invariant host I) {execute : Shell H → String → Execution H}
    (line : KeptBy I execute) : KeptBy I (executeScriptWith execute) := by
  intro sh path sh' result holds ran
  unfold Shell.executeScriptWith at ran
  dsimp only at ran
  split at ran
  · cases ran
    exact holds
  · split at ran
    · cases ran
      exact holds
    · have started := invariant.note
        (.scriptStarted (Path.withDefaultExtension sh.scriptExtension path)) holds
      split at ran
      · rename_i executed
        cases ran
        exact invariant.note _ (invariant.runStatements line started executed)
      · exact invariant.runStatements line started ran

/-- By induction on the depth. -/
theorem atDepth (invariant : Invariant host I) (depth : Nat) :
    KeptByRunner I (runner host depth) := by
  induction depth with
  | zero => exact .of_both keptBy_of_nothing keptBy_of_nothing
  | succ depth ih =>
    rw [runner]
    have line := invariant.executeLineWith ih
    exact .of_both line (invariant.executeScriptWith line)

theorem executeLine (invariant : Invariant host I) (depth : Nat) :
    KeptBy I (executeLine host depth) := (invariant.atDepth depth).line

theorem executeScript (invariant : Invariant host I) (depth : Nat) :
    KeptBy I (executeScript host depth) := (invariant.atDepth depth).script

end Invariant

end LineConsole
