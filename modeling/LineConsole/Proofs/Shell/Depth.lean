import LineConsole.Proofs.Shell.Sequence

/-! # Answers at a greater depth

The depth bounds how deep handlers nest and does nothing else: what comes to an answer at one depth
comes to the same answer at every greater one. So there is at most one answer, which a call has for
good once it has it.
-/

namespace LineConsole.Shell

variable {H α : Type}

/-- Whatever the first comes to, the second comes to as well. -/
def Below (execute execute' : Shell H → α → Execution H) : Prop :=
  ∀ ⦃sh a answer⦄, execute sh a = some answer → execute' sh a = some answer

structure BelowRunner (runner runner' : Runner H) : Prop where
  line : Below runner.line runner'.line
  script : Below runner.script runner'.script

theorem BelowRunner.of_both {line line' script script' : Shell H → String → Execution H}
    (lines : Below line line') (scripts : Below script script') :
    BelowRunner ⟨line, script⟩ ⟨line', script'⟩ := ⟨lines, scripts⟩

section Runners

variable {host : Host H} {runner runner' : Runner H}

theorem run_below (below : BelowRunner runner runner') {program : Program H} {sh : Shell H}
    {answer : Shell H × Outcome} (ran : program.run runner sh = some answer) :
    program.run runner' sh = some answer := by
  induction program generalizing sh with
  | finish outcome => exact ran
  | inspect next ih => exact ih sh.quiet ran
  | update change next ih => exact ih ran
  | line text next ih =>
    simp only [Program.run] at ran ⊢
    split at ran
    · cases ran
    · rename_i after result executed
      rw [below.line executed]
      exact ih result ran
  | script path next ih =>
    simp only [Program.run] at ran ⊢
    split at ran
    · cases ran
    · rename_i after result executed
      rw [below.script executed]
      exact ih result ran

theorem invoke_below (below : BelowRunner runner runner') {sh : Shell H}
    {command : Command (Handler H)} {arguments : Arguments} {answer : Shell H × Except Fault Unit}
    (ran : sh.invoke host runner command arguments = some answer) :
    sh.invoke host runner' command arguments = some answer := by
  obtain ⟨⟨after, outcome⟩, ran, settled⟩ := Option.map_eq_some_iff.mp ran
  exact Option.map_eq_some_iff.mpr ⟨(after, outcome), run_below below ran, settled⟩

theorem executeLineWith_below (below : BelowRunner runner runner') :
    Below (executeLineWith host runner) (executeLineWith host runner') := by
  intro sh line answer ran
  unfold executeLineWith at ran ⊢
  split
  · rename_i prepared
    rw [prepared] at ran
    exact ran
  · rename_i prepared
    rw [prepared] at ran
    exact invoke_below below ran

end Runners

theorem executeAll_below {execute execute' : Shell H → α → Execution H}
    (below : Below execute execute') {items : List α} {sh : Shell H}
    {answer : Shell H × Except Fault Unit} (ran : executeAll execute items sh = some answer) :
    executeAll execute' items sh = some answer := by
  induction items generalizing sh with
  | nil => exact ran
  | cons a rest ih =>
    dsimp only [executeAll] at ran ⊢
    cases executed : execute sh a with
    | none =>
      rw [executed] at ran
      cases ran
    | some reached =>
      rw [executed] at ran
      rw [below executed]
      obtain ⟨next, result⟩ := reached
      cases result with
      | ok done => exact ih ran
      | error fault => exact ran

section Executions

variable {execute execute' : Shell H → String → Execution H}

theorem executeStatement_below (below : Below execute execute') (path : String) :
    Below (executeStatement execute path) (executeStatement execute' path) := by
  intro sh line answer ran
  obtain ⟨reached, executed, same⟩ := Option.map_eq_some_iff.mp ran
  exact Option.map_eq_some_iff.mpr ⟨reached, below executed, same⟩

theorem runStatements_below (below : Below execute execute') {path : String}
    {lines : List (Nat × String)} {sh : Shell H} {answer : Shell H × Except Fault Unit}
    (ran : runStatements execute path lines sh = some answer) :
    runStatements execute' path lines sh = some answer := by
  rw [runStatements_eq_executeAll] at ran ⊢
  exact executeAll_below (executeStatement_below below path) ran

theorem executeScriptWith_below (below : Below execute execute') :
    Below (executeScriptWith execute) (executeScriptWith execute') := by
  intro sh path answer ran
  unfold executeScriptWith at ran ⊢
  dsimp only at ran ⊢
  split
  · rename_i absent
    rw [if_pos absent] at ran
    exact ran
  · rename_i present
    rw [if_neg present] at ran
    split
    · rename_i unreadable
      rw [unreadable] at ran
      exact ran
    · rename_i source readable
      rw [readable] at ran
      dsimp only at ran ⊢
      cases executed : runStatements execute (Path.withDefaultExtension sh.scriptExtension path)
          (statements source)
          (sh.note (.scriptStarted (Path.withDefaultExtension sh.scriptExtension path))) with
      | none =>
        rw [executed] at ran
        cases ran
      | some reached =>
        rw [executed] at ran
        rw [runStatements_below below executed]
        exact ran

end Executions

/-- Nothing is below everything. -/
theorem below_of_nothing (execute : Shell H → α → Execution H) : Below (fun _ _ => none) execute :=
  fun _ _ _ absent => nomatch absent

/-- By induction on the lesser depth: the greater one answers as well, and the same. -/
theorem runner_below (host : Host H) {depth depth' : Nat} (le : depth ≤ depth') :
    BelowRunner (runner host depth) (runner host depth') := by
  induction depth generalizing depth' with
  | zero => exact .of_both (below_of_nothing _) (below_of_nothing _)
  | succ depth ih =>
    cases depth' with
    | zero => exact absurd le (Nat.not_succ_le_zero depth)
    | succ depth' =>
      have line : Below (executeLineWith host (runner host depth))
          (executeLineWith host (runner host depth')) :=
        executeLineWith_below (ih (Nat.le_of_succ_le_succ le))
      rw [runner, runner]
      exact .of_both line (executeScriptWith_below line)

section Depths

variable (host : Host H) {depth depth' : Nat} (le : depth ≤ depth')
include le

theorem executeLine_below : Below (executeLine host depth) (executeLine host depth') :=
  (runner_below host le).line

theorem executeScript_below : Below (executeScript host depth) (executeScript host depth') :=
  (runner_below host le).script

theorem executeBatch_below :
    Below (executeBatch host depth) (executeBatch host depth') := by
  intro sh invocation answer ran
  unfold executeBatch at ran ⊢
  cases executed : executeAll (executeScript host depth) invocation.scripts sh with
  | none =>
    rw [executed] at ran
    cases ran
  | some reached =>
    rw [executed] at ran
    rw [executeAll_below (executeScript_below host le) executed]
    obtain ⟨next, result⟩ := reached
    cases result with
    | ok done => exact executeAll_below (executeLine_below host le) ran
    | error fault => exact ran

end Depths

end LineConsole.Shell
