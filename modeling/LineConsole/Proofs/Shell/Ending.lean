import LineConsole.Proofs.Shell.Leaving
import LineConsole.Proofs.Shell.TidyVariables

/-! # Calls that end

Where the only commands are those built in, all that can keep a line, a script or a batch from coming to
an answer are the lines and scripts that it makes. It comes to one if these do, and so it comes to one
just where calls do not make one another without end.
-/

namespace LineConsole

open Shell

variable {H α : Type}

/-- A program without lines and scripts comes to an end. -/
theorem Program.Solitary.exists_run {program : Program H} (solitary : program.Solitary)
    (runner : Runner H) (sh : Shell H) : ∃ answer, program.run runner sh = some answer := by
  induction program generalizing sh with
  | finish outcome => exact ⟨_, rfl⟩
  | inspect next ih => exact ih sh.quiet (solitary sh.quiet) sh
  | update change next ih => exact ih solitary (sh.changedBy change)
  | line text next ih => exact solitary.elim
  | script path next ih => exact solitary.elim

namespace Shell

/-! ## Items -/

/-- Items come to an answer if each of them does that is reached, at whatever depth. -/
theorem exists_executeAll {execute : Nat → Shell H → α → Execution H}
    (below : ∀ {depth depth'}, depth ≤ depth' → Below (execute depth) (execute depth'))
    {items : List α} {sh : Shell H}
    (each : ∀ before a after reached depth, items = before ++ a :: after →
      executeAll (execute depth) before sh = some (reached, .ok ()) →
        ∃ depth answer, execute depth reached a = some answer) :
    ∃ depth answer, executeAll (execute depth) items sh = some answer := by
  induction items generalizing sh with
  | nil => exact ⟨0, _, rfl⟩
  | cons a items ih =>
    obtain ⟨depth, ⟨next, result⟩, executed⟩ := each [] a items sh 0 rfl rfl
    cases result with
    | error fault =>
      refine ⟨depth, (next, .error fault), ?_⟩
      rw [executeAll, executed]
    | ok done =>
      obtain ⟨depth', answer, ran⟩ := ih fun before b after reached depth' listed ran => by
        refine each (a :: before) b after reached (max depth depth')
          (congrArg (a :: ·) listed) ?_
        rw [executeAll, below (Nat.le_max_left depth depth') executed]
        exact executeAll_below (below (Nat.le_max_right depth depth')) ran
      refine ⟨max depth depth', answer, ?_⟩
      rw [executeAll, below (Nat.le_max_left depth depth') executed]
      exact executeAll_below (below (Nat.le_max_right depth depth')) ran

/-- Where items have come to an answer, each of them has that is reached. -/
theorem exists_of_executeAll {execute execute' deeper : Shell H → α → Execution H}
    (below : Below execute deeper) (below' : Below execute' deeper) {before after : List α} {a : α}
    {sh reached : Shell H} {answer : Shell H × Except Fault Unit}
    (ran : executeAll execute (before ++ a :: after) sh = some answer)
    (done : executeAll execute' before sh = some (reached, .ok ())) :
    ∃ answer, execute reached a = some answer := by
  induction before generalizing sh with
  | nil =>
    obtain rfl : sh = reached := congrArg Prod.fst (Option.some.inj done)
    rw [List.nil_append, executeAll] at ran
    cases executed : execute sh a with
    | none =>
      rw [executed] at ran
      cases ran
    | some answer => exact ⟨answer, rfl⟩
  | cons b before ih =>
    rw [executeAll] at done
    split at done
    · rename_i next _ executed'
      rw [List.cons_append, executeAll] at ran
      cases executed : execute sh b with
      | none =>
        rw [executed] at ran
        cases ran
      | some answer =>
        obtain rfl := Option.some.inj ((below executed).symm.trans (below' executed'))
        rw [executed] at ran
        exact ih ran done
    · rename_i stopped
      exact absurd done (stopped reached ())

end Shell

/-! ## Calls -/

namespace Call

/-- The call comes to an answer. -/
def Ends (host : Host H) (call : Call H) : Prop := ∃ answer, call.ComesTo host answer

/-- The first call is made by the second. -/
def MadeBy (host : Host H) (inner outer : Call H) : Prop := Makes host outer inner

end Call

section Ends

variable {host : Host H} {sh : Shell H} {text path : String}

theorem Call.ends_iff {call : Call H} :
    call.Ends host ↔ ∃ depth answer, call.execute host depth = some answer := by
  constructor
  · rintro ⟨answer, enough, answers⟩
    exact ⟨enough, answer, answers enough (Nat.le_refl enough)⟩
  · rintro ⟨enough, answer, answers⟩
    refine ⟨answer, enough, fun depth le => ?_⟩
    cases call with
    | line sh text => exact executeLine_below host le answers
    | script sh path => exact executeScript_below host le answers
    | batch sh invocation => exact executeBatch_below host le answers

/-- A line comes to an answer if the script does that it runs, if any. -/
theorem Shell.exists_executeLine (depths : Nat → Nat) (builtins : sh.OnlyBuiltins)
    (made : ∀ ready path, Makes host (.line sh text) (.script ready path) →
      ∃ n answer, ready.executeScript host (depths n) path = some answer) :
    ∃ n answer, sh.executeLine host (depths n + 1) text = some answer := by
  rcases prepared : sh.prepare text with ⟨ready, verdict⟩
  cases verdict with
  | settled result => exact ⟨0, _, executeLine_of_settled prepared⟩
  | call command arguments =>
    obtain ⟨b, rfl⟩ := builtins.exists_of_prepare (congrArg Prod.snd prepared)
    have ran : ∃ n answer, (b.program arguments).run (runner host (depths n))
        (ready.note (.invoking b.name arguments.values.length)) = some answer := by
      by_cases other : b ≠ .run
      · exact ⟨0, (b.program_solitary other arguments).exists_run _ _⟩
      · obtain rfl := not_not.mp other
        simp only [Builtin.program]
        unfold Builtin.runProgram
        cases given : arguments.path? "path" with
        | none => exact ⟨0, _, rfl⟩
        | some path =>
          obtain ⟨n, ⟨after, result⟩, executed⟩ := made _ path (.run prepared given)
          rw [executeScript] at executed
          refine ⟨n, ?_⟩
          simp only [Program.run, executed]
          cases result with
          | ok done => exact ⟨_, rfl⟩
          | error fault => exact ⟨_, rfl⟩
    obtain ⟨n, ⟨left, outcome⟩, ran⟩ := ran
    refine ⟨n, left.settle b.name outcome, ?_⟩
    rw [executeLine_of_call prepared]
    exact Option.map_eq_some_iff.mpr ⟨(left, outcome), ran, rfl⟩

/-- A script comes to an answer if its statements do that are reached. -/
theorem Shell.exists_executeScript (depths : Nat → Nat)
    (mono : ∀ {m n}, m ≤ n → depths m ≤ depths n)
    (made : ∀ reached text, Makes host (.script sh path) (.line reached text) →
      ∃ n answer, reached.executeLine host (depths n + 1) text = some answer) :
    ∃ n answer, sh.executeScript host (depths n + 1) path = some answer := by
  simp only [executeScript_succ]
  unfold executeScriptWith
  dsimp only
  split
  · exact ⟨0, _, rfl⟩
  · split
    · exact ⟨0, _, rfl⟩
    · rename_i source readable
      have ran : ∃ n answer, runStatements (executeLine host (depths n + 1))
          (Path.withDefaultExtension sh.scriptExtension path) (statements source)
          (sh.note (.scriptStarted (Path.withDefaultExtension sh.scriptExtension path))) =
            some answer := by
        simp only [runStatements_eq_executeAll]
        refine exists_executeAll (fun le => executeStatement_below
          (executeLine_below host (Nat.succ_le_succ (mono le))) _) ?_
        rintro before ⟨number, text⟩ after reached n listed done
        rw [← runStatements_eq_executeAll] at done
        obtain ⟨n, answer, executed⟩ := made _ text (.statement readable listed done)
        exact ⟨n, _, congrArg (Option.map _) executed⟩
      obtain ⟨n, ⟨after, result⟩, ran⟩ := ran
      refine ⟨n, ?_⟩
      rw [ran]
      cases result with
      | ok done => exact ⟨_, rfl⟩
      | error fault => exact ⟨_, rfl⟩

/-- One step out: a call comes to an answer if the calls do that it makes. -/
theorem Call.ends_of_made {outer : Call H} (builtins : outer.shell.OnlyBuiltins)
    (made : ∀ inner, MadeBy host inner outer → inner.Ends host) : outer.Ends host := by
  rw [ends_iff]
  cases outer with
  | line sh text =>
    obtain ⟨n, answer, ran⟩ := exists_executeLine id builtins
      fun ready path makes => ends_iff.mp (made _ makes)
    exact ⟨n + 1, answer, ran⟩
  | script sh path =>
    have ran : ∃ n answer, sh.executeScript host (n + 1) path = some answer := by
      refine exists_executeScript id id fun reached text makes => ?_
      obtain ⟨n, answer, executed⟩ := ends_iff.mp (made _ makes)
      exact ⟨n, answer, executeLine_below host (Nat.le_succ n) executed⟩
    obtain ⟨n, answer, ran⟩ := ran
    exact ⟨n + 1, answer, ran⟩
  | batch sh invocation =>
    obtain ⟨depth, ⟨reached, result⟩, ran⟩ := exists_executeAll (executeScript_below host)
      fun before path after reached depth listed done => ends_iff.mp (made _ (.script listed done))
    cases result with
    | error fault =>
      refine ⟨depth, (reached, .error fault), ?_⟩
      rw [execute, executeBatch, ran]
    | ok done =>
      cases given : invocation.command with
      | none =>
        refine ⟨depth, (reached, .ok ()), ?_⟩
        rw [execute, executeBatch, ran, given]
        rfl
      | some text =>
        obtain ⟨depth', answer, executed⟩ := ends_iff.mp (made _ (.line given ran))
        refine ⟨max depth depth', answer, ?_⟩
        rw [execute, executeBatch,
          executeAll_below (executeScript_below host (Nat.le_max_left depth depth')) ran]
        simp only [given, Option.toList_some, executeAll_singleton]
        exact executeLine_below host (Nat.le_max_right depth depth') executed

/-! ## Calls that have ended -/

/-- The script that a line runs has come to an answer if the line has. -/
private theorem acc_of_executeLine_succ {depth : Nat} {answer : Shell H × Except Fault Unit}
    (scripts : ∀ {sh : Shell H} {path : String} {answer},
      sh.executeScript host depth path = some answer → Acc (Call.MadeBy host) (.script sh path))
    (ran : sh.executeLine host (depth + 1) text = some answer) :
    Acc (Call.MadeBy host) (.line sh text) := by
  refine .intro _ fun inner makes => ?_
  cases makes with
  | run prepared given =>
    rw [executeLine_of_call prepared] at ran
    obtain ⟨⟨after, outcome⟩, ran, -⟩ := Option.map_eq_some_iff.mp ran
    change (Builtin.runProgram _).run _ _ = _ at ran
    unfold Builtin.runProgram at ran
    simp only [given, Program.run] at ran
    split at ran
    · cases ran
    · rename_i executed
      exact scripts executed

/-- The statements of a script that are reached have come to an answer if the script has. -/
private theorem acc_of_executeScript_succ {depth : Nat} {answer : Shell H × Except Fault Unit}
    (lines : ∀ {sh : Shell H} {text : String} {answer},
      sh.executeLine host (depth + 1) text = some answer → Acc (Call.MadeBy host) (.line sh text))
    (ran : sh.executeScript host (depth + 1) path = some answer) :
    Acc (Call.MadeBy host) (.script sh path) := by
  refine .intro _ fun inner makes => ?_
  cases makes with
  | @statement _ reached _ source text number depth' before after readable listed done =>
    rw [executeScript_succ] at ran
    unfold executeScriptWith at ran
    simp only [Files.isFile_of_readText readable, readable, Bool.not_true, Bool.false_eq_true,
      if_false, listed] at ran
    rw [runStatements_eq_executeAll] at done
    have ended : ∃ answer, executeAll (executeStatement (executeLine host (depth + 1))
        (Path.withDefaultExtension sh.scriptExtension path)) (before ++ (number, text) :: after)
        (sh.note (.scriptStarted (Path.withDefaultExtension sh.scriptExtension path))) =
          some answer := by
      rw [← runStatements_eq_executeAll]
      split at ran
      · exact ⟨_, ‹_›⟩
      · exact ⟨_, ran⟩
    obtain ⟨answer, ended⟩ := ended
    obtain ⟨answer', executed⟩ := exists_of_executeAll
      (executeStatement_below (executeLine_below host (Nat.le_max_left (depth + 1) depth')) _)
      (executeStatement_below (executeLine_below host (Nat.le_max_right (depth + 1) depth')) _)
      ended done
    obtain ⟨reply, executed, -⟩ := Option.map_eq_some_iff.mp executed
    exact lines executed

/-- By induction on the depth, for lines and scripts together. -/
private theorem acc_of_execute (host : Host H) (depth : Nat) :
    (∀ {sh : Shell H} {text : String} {answer}, sh.executeLine host depth text = some answer →
      Acc (Call.MadeBy host) (.line sh text)) ∧
    ∀ {sh : Shell H} {path : String} {answer}, sh.executeScript host depth path = some answer →
      Acc (Call.MadeBy host) (.script sh path) := by
  induction depth with
  | zero => exact ⟨fun absent => (nomatch absent), fun absent => (nomatch absent)⟩
  | succ depth ih =>
    have lines {sh : Shell H} {text : String} {answer : Shell H × Except Fault Unit}
        (ran : sh.executeLine host (depth + 1) text = some answer) :
        Acc (Call.MadeBy host) (.line sh text) := acc_of_executeLine_succ ih.2 ran
    exact ⟨lines, acc_of_executeScript_succ lines⟩

theorem acc_of_executeLine {depth : Nat} {answer : Shell H × Except Fault Unit}
    (ran : sh.executeLine host depth text = some answer) : Acc (Call.MadeBy host) (.line sh text) :=
  (acc_of_execute host depth).1 ran

theorem acc_of_executeScript {depth : Nat} {answer : Shell H × Except Fault Unit}
    (ran : sh.executeScript host depth path = some answer) :
    Acc (Call.MadeBy host) (.script sh path) :=
  (acc_of_execute host depth).2 ran

theorem Call.acc_of_ends {call : Call H} (ends : call.Ends host) : Acc (MadeBy host) call := by
  obtain ⟨depth, answer, ran⟩ := ends_iff.mp ends
  cases call with
  | line sh text => exact acc_of_executeLine ran
  | script sh path => exact acc_of_executeScript ran
  | batch sh invocation =>
    refine .intro _ fun inner makes => ?_
    rw [execute, executeBatch] at ran
    cases makes with
    | @script _ reached _ path depth' before after listed done =>
      have ended : ∃ answer, executeAll (executeScript host depth) (before ++ path :: after) sh =
          some answer := by
        rw [← listed]
        split at ran
        · exact ⟨_, ‹_›⟩
        · exact ⟨_, ran⟩
      obtain ⟨answer, ended⟩ := ended
      obtain ⟨answer', executed⟩ := exists_of_executeAll
        (executeScript_below host (Nat.le_max_left depth depth'))
        (executeScript_below host (Nat.le_max_right depth depth')) ended done
      exact acc_of_executeScript executed
    | @line _ reached _ text depth' given done =>
      have all := executeAll_below (executeScript_below host (Nat.le_max_right depth depth')) done
      cases executed : executeAll (executeScript host depth) invocation.scripts sh with
      | none =>
        rw [executed] at ran
        cases ran
      | some first =>
        have all' := executeAll_below (executeScript_below host (Nat.le_max_left depth depth'))
          executed
        obtain rfl : first = (reached, .ok ()) := Option.some.inj (all'.symm.trans all)
        rw [executed, given] at ran
        simp only [Option.toList_some, executeAll_singleton] at ran
        exact acc_of_executeLine ran

/-- A call comes to an answer just where calls are not made by one another without end. -/
theorem Call.ends_iff_acc {call : Call H} (builtins : call.shell.OnlyBuiltins) :
    call.Ends host ↔ Acc (MadeBy host) call := by
  refine ⟨acc_of_ends, fun accessible => ?_⟩
  induction accessible with
  | intro outer _ ih =>
    exact ends_of_made builtins fun inner makes =>
      ih inner makes (Encloses.onlyBuiltins (.single makes) builtins)

/-- A line without end is one that has no answer at any depth. -/
theorem executeLine_eq_none (endless : ¬ (Call.line sh text).Ends host) (depth : Nat) :
    sh.executeLine host depth text = none := by
  cases ran : sh.executeLine host depth text with
  | none => rfl
  | some answer =>
    have ended : (Call.line sh text).execute host depth = some answer := ran
    exact absurd (Call.ends_iff.mpr ⟨depth, answer, ended⟩) endless

end Ends

end LineConsole
