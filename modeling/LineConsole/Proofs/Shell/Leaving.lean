import LineConsole.Proofs.Shell.Depth
import LineConsole.Proofs.Shell.ExitLine
import LineConsole.Proofs.Shell.Scripts
import Mathlib.Logic.Relation

/-! # Leaving from within

Lines, scripts and batches make one another: a `run` line makes a script, a script makes its
statements, and a batch makes its scripts and its line. Whatever is made by a statement that asks to
leave, through however many of them, is left with the same code and as the statement left it: no one
on the way executes, writes or reports anything more.
-/

namespace LineConsole

open Shell

variable {H : Type}

/-- What a shell is asked to execute. -/
inductive Call (H : Type) where
  | line (sh : Shell H) (text : String)
  | script (sh : Shell H) (path : String)
  | batch (sh : Shell H) (invocation : Invocation)

namespace Call

/-- The shell that it begins with. -/
def shell : Call H → Shell H
  | line sh _ | script sh _ | batch sh _ => sh

def execute (host : Host H) (depth : Nat) : Call H → Execution H
  | line sh text => sh.executeLine host depth text
  | script sh path => sh.executeScript host depth path
  | batch sh invocation => sh.executeBatch host depth invocation

/-- It comes to this answer if handlers may nest deep enough. -/
def ComesTo (host : Host H) (call : Call H) (answer : Shell H × Except Fault Unit) : Prop :=
  ∃ enough, ∀ depth, enough ≤ depth → call.execute host depth = some answer

end Call

/-- In the course of the first call the second one is reached and executed. -/
inductive Makes (host : Host H) : Call H → Call H → Prop where
  /-- A line that calls the built-in command for it executes a script. -/
  | run {sh ready : Shell H} {text path : String} {arguments : Arguments}
      (prepared : sh.prepare text = (ready, .call Builtin.run.command arguments))
      (given : arguments.path? "path" = some path) :
      Makes host (.line sh text)
        (.script (ready.note (.invoking Builtin.run.name arguments.values.length)) path)
  /-- A script executes a statement if the ones before it succeeded. -/
  | statement {sh reached : Shell H} {path source text : String} {number depth : Nat}
      {before after : List (Nat × String)}
      (readable : sh.files.readText (Path.withDefaultExtension sh.scriptExtension path) = .ok source)
      (listed : statements source = before ++ (number, text) :: after)
      (done : runStatements (executeLine host depth)
        (Path.withDefaultExtension sh.scriptExtension path) before
        (sh.note (.scriptStarted (Path.withDefaultExtension sh.scriptExtension path))) =
          some (reached, .ok ())) :
      Makes host (.script sh path) (.line (reached.note (.scriptStatement number text)) text)
  /-- A batch executes a script if the ones before it succeeded. -/
  | script {sh reached : Shell H} {invocation : Invocation} {path : String} {depth : Nat}
      {before after : List String} (listed : invocation.scripts = before ++ path :: after)
      (done : executeAll (executeScript host depth) before sh = some (reached, .ok ())) :
      Makes host (.batch sh invocation) (.script reached path)
  /-- A batch executes its line if all its scripts succeeded. -/
  | line {sh reached : Shell H} {invocation : Invocation} {text : String} {depth : Nat}
      (given : invocation.command = some text)
      (done : executeAll (executeScript host depth) invocation.scripts sh =
        some (reached, .ok ())) :
      Makes host (.batch sh invocation) (.line reached text)

/-- The second call is reached from the first, through any number of others. -/
abbrev Encloses (host : Host H) : Call H → Call H → Prop := Relation.ReflTransGen (Makes host)

/-! ## On the way -/

section Way

variable {host : Host H} {outer inner : Call H}

/-- Where the only commands are those built in, they are on the whole way. -/
theorem Makes.settings (makes : Makes host outer inner) (builtins : outer.shell.OnlyBuiltins) :
    inner.shell.settings = outer.shell.settings := by
  have invariant : Invariant host (·.settings = outer.shell.settings) :=
    settings_invariant host builtins
  cases makes with
  | run prepared given => exact (congrArg (·.1.settings) prepared).symm.trans (prepare_settings _ _)
  | statement readable listed done =>
    exact invariant.note _ (invariant.runStatements (invariant.executeLine _)
      (invariant.note _ rfl) done)
  | script listed done => exact (invariant.executeScript _).executeAll rfl done
  | line given done => exact (invariant.executeScript _).executeAll rfl done

theorem Encloses.onlyBuiltins (encloses : Encloses host outer inner)
    (builtins : outer.shell.OnlyBuiltins) : inner.shell.OnlyBuiltins := by
  induction encloses with
  | refl => exact builtins
  | tail _ makes ih =>
    have same := congrArg (·.registry.commands) (makes.settings ih)
    exact same.trans ih

/-- One step out: what made something that was left is left in the same way. -/
theorem Makes.comesTo_exit (makes : Makes host outer inner) {left : Shell H} {n : Int32}
    (leaves : inner.ComesTo host (left, .error (.exit n))) :
    outer.ComesTo host (left, .error (.exit n)) := by
  obtain ⟨enough, leaves⟩ := leaves
  cases makes with
  | run prepared given =>
    refine ⟨enough + 1, fun depth le => ?_⟩
    obtain ⟨depth, rfl⟩ := Nat.exists_eq_succ_of_ne_zero (Nat.ne_zero_of_lt le)
    have script := leaves depth (Nat.le_of_succ_le_succ le)
    rw [Call.execute, executeScript] at script
    rw [Call.execute, executeLine, runner]
    simp only [executeLineWith, prepared, invoke, Builtin.command, Handler.program, Builtin.program,
      Builtin.runProgram, given, Program.run, script, Program.onSuccess]
    rfl
  | @statement sh reached path source text number depth₀ before after readable listed done =>
    refine ⟨max enough depth₀ + 1, fun depth le => ?_⟩
    obtain ⟨depth, rfl⟩ := Nat.exists_eq_succ_of_ne_zero (Nat.ne_zero_of_lt le)
    have line := leaves (depth + 1) (by omega)
    rw [Call.execute] at line
    have stopped : runStatements (executeLine host (depth + 1))
        (Path.withDefaultExtension sh.scriptExtension path) (statements source)
        (sh.note (.scriptStarted (Path.withDefaultExtension sh.scriptExtension path))) =
          some (left, .error (.exit n)) := by
      rw [listed, runStatements_append
        (runStatements_below (executeLine_below host (by omega)) done), runStatements, line]
      rfl
    rw [Call.execute, executeScript_succ]
    unfold executeScriptWith
    simp only [Files.isFile_of_readText readable, readable, stopped, Bool.not_true,
      Bool.false_eq_true, if_false]
  | @script sh reached invocation path depth₀ before after listed done =>
    refine ⟨max enough depth₀, fun depth le => ?_⟩
    have script := leaves depth (by omega)
    rw [Call.execute] at script
    have stopped : executeAll (executeScript host depth) invocation.scripts sh =
        some (left, .error (.exit n)) := by
      rw [listed, executeAll_append
        (executeAll_below (executeScript_below host (by omega)) done), executeAll, script]
    rw [Call.execute, executeBatch, stopped]
  | @line sh reached invocation text depth₀ given done =>
    refine ⟨max enough depth₀, fun depth le => ?_⟩
    have line := leaves depth (by omega)
    rw [Call.execute] at line
    rw [Call.execute, executeBatch,
      executeAll_below (executeScript_below host (by omega : depth₀ ≤ depth)) done]
    simp only [given, Option.toList_some, executeAll, line]

/-- By induction on the way out. -/
theorem Encloses.comesTo_exit (encloses : Encloses host outer inner) {left : Shell H} {n : Int32}
    (leaves : inner.ComesTo host (left, .error (.exit n))) :
    outer.ComesTo host (left, .error (.exit n)) := by
  induction encloses using Relation.ReflTransGen.head_induction_on with
  | refl => exact leaves
  | head makes _ ih => exact makes.comesTo_exit ih

/-- A line that asks to leave is left with all but its history and what was noted as before, and no
statement begins in it. -/
theorem Shell.AsksToLeave.comesTo_exit {sh : Shell H} {text : String} {n : Int32}
    (asks : sh.AsksToLeave text n) (host : Host H) : ∃ records, (∀ record ∈ records, ¬ record.IsStatement) ∧
      (Call.line sh text).ComesTo host ({ sh with
        history := sh.history.add (Text.trimmed text)
        log := sh.log ++ records }, .error (.exit n)) := by
  obtain ⟨arguments, called, leaves⟩ := asks
  rcases prepared : sh.prepare text with ⟨ready, verdict⟩
  rw [prepared] at called
  obtain rfl : verdict = .call Builtin.exit.command arguments := called
  obtain ⟨records, begun, rfl⟩ := (called_of_prepare prepared).ready
  refine ⟨records ++ [.invoking Builtin.exit.name arguments.values.length], ?_, 1,
    fun depth le => ?_⟩
  · intro record noted
    rcases List.mem_append.mp noted with noted | noted
    · exact begun record noted
    · obtain rfl := List.mem_singleton.mp noted
      exact id
  · obtain ⟨depth, rfl⟩ := Nat.exists_eq_succ_of_ne_zero (Nat.ne_zero_of_lt le)
    rw [Call.execute, executeLine, runner]
    simp only [executeLineWith, prepared, invoke, Builtin.command, Handler.program, Builtin.program,
      leaves, Program.run, Option.map_some, settle, note, noteAll, addHistory, List.append_assoc]

/-! ## The way back -/

/-- A script makes a request to leave of no other fault. -/
theorem scriptFault_eq_exit {path : String} {number : Nat} {cause : Fault} {n : Int32}
    (same : .exit n = scriptFault path number cause) : cause = .exit n := by
  unfold scriptFault at same
  split at same
  · cases same
  · exact same.symm

/-- A program that makes one change and is done does not ask to leave. -/
private theorem not_exit_of_doing {change : Shell H → Shell H} {runner : Runner H}
    {sh after : Shell H} {n : Int32} :
    (Builtin.doing change).run runner sh ≠ some (after, .exit n) := by
  intro ran
  exact Outcome.noConfusion (Prod.mk.inj (Option.some.inj ran)).2

/-- Of the built-in commands one asks to leave by itself, and one runs a script that may. -/
theorem Builtin.of_run_eq_exit {b : Builtin} {arguments : Arguments} {runner : Runner H}
    {sh after : Shell H} {n : Int32}
    (ran : (b.program arguments).run runner sh = some (after, .exit n)) :
    b = .exit ∧ (Builtin.exitProgram arguments : Program H) = .finish (.exit n) ∨
      b = .run ∧ ∃ path, arguments.path? "path" = some path ∧
        runner.script sh path = some (after, .error (.exit n)) := by
  cases b with
  | exit =>
    refine .inl ⟨rfl, ?_⟩
    change (Builtin.exitProgram arguments).run runner sh = some (after, .exit n) at ran
    unfold Builtin.exitProgram at ran ⊢
    dsimp only at ran ⊢
    split at ran
    · cases ran
      rfl
    · cases ran
  | run =>
    refine .inr ⟨rfl, ?_⟩
    change (Builtin.runProgram arguments).run runner sh = some (after, .exit n) at ran
    unfold Builtin.runProgram at ran
    split at ran
    · cases ran
    · rename_i path given
      rw [Program.run] at ran
      split at ran
      · cases ran
      · rename_i reached result executed
        rcases result with fault | done
        · cases fault with
          | exit code =>
            cases ran
            exact ⟨path, given, executed⟩
          | _ => cases ran
        · cases ran
  | help =>
    change (Builtin.helpProgram arguments).run runner sh = some (after, .exit n) at ran
    unfold Builtin.helpProgram at ran
    split at ran
    · exact absurd ran not_exit_of_doing
    · rw [Program.run] at ran
      dsimp only at ran
      split at ran
      · cases ran
      · exact absurd ran not_exit_of_doing
  | echo => exact absurd ran not_exit_of_doing
  | history => exact absurd ran not_exit_of_doing
  | vars => exact absurd ran not_exit_of_doing
  | unset =>
    change (Builtin.unsetProgram arguments).run runner sh = some (after, .exit n) at ran
    unfold Builtin.unsetProgram at ran
    dsimp only at ran
    split at ran
    · cases ran
    · rw [Program.run] at ran
      split at ran
      · exact absurd ran not_exit_of_doing
      · cases ran
  | lex =>
    change (Builtin.lexProgram arguments).run runner sh = some (after, .exit n) at ran
    unfold Builtin.lexProgram at ran
    dsimp only at ran
    rw [Program.run] at ran
    split at ran
    · exact Outcome.noConfusion (Prod.mk.inj (Option.some.inj ran)).2
    · exact Outcome.noConfusion (Prod.mk.inj (Option.some.inj ran)).2

/-- In its course a line is reached that asks to leave with this code. -/
def Call.ReachesExit (host : Host H) (call : Call H) (n : Int32) : Prop :=
  ∃ sh text, Encloses host call (.line sh text) ∧ sh.AsksToLeave text n

theorem Makes.reachesExit {n : Int32} (makes : Makes host outer inner)
    (reaches : inner.ReachesExit host n) : outer.ReachesExit host n := by
  obtain ⟨sh, text, encloses, asks⟩ := reaches
  exact ⟨sh, text, .head makes encloses, asks⟩

/-- A request to leave that comes out of a script comes out of one of its statements. -/
private theorem reachesExit_of_script {depth : Nat} {n : Int32} {sh after : Shell H} {path : String}
    (lines : ∀ {sh after : Shell H} {text : String}, sh.OnlyBuiltins →
      sh.executeLine host (depth + 1) text = some (after, .error (.exit n)) →
        (Call.line sh text).ReachesExit host n)
    (builtins : sh.OnlyBuiltins)
    (ended : sh.executeScript host (depth + 1) path = some (after, .error (.exit n))) :
    (Call.script sh path).ReachesExit host n := by
  rw [executeScript_succ] at ended
  unfold executeScriptWith at ended
  dsimp only at ended
  split at ended
  · cases ended
  · split at ended
    · cases ended
    · rename_i source readable
      have stopped : runStatements (executeLine host (depth + 1))
          (Path.withDefaultExtension sh.scriptExtension path) (statements source)
          (sh.note (.scriptStarted (Path.withDefaultExtension sh.scriptExtension path))) =
            some (after, .error (.exit n)) := by
        split at ended
        · cases ended
        · exact ended
      obtain ⟨before, number, text, rest, reached, cause, listed, done, failed, same⟩ :=
        exists_of_runStatements_eq_error stopped
      obtain rfl := scriptFault_eq_exit same
      have makes := Makes.statement readable listed done
      have builtins' := Encloses.onlyBuiltins (.single makes) builtins
      exact makes.reachesExit (lines builtins' failed)

/-- By induction on the depth, for lines and scripts together: only a line that asks to leave brings a
request to leave about. -/
private theorem reachesExit_of_execute (host : Host H) (depth : Nat) (n : Int32) :
    (∀ {sh after : Shell H} {text : String}, sh.OnlyBuiltins →
      sh.executeLine host depth text = some (after, .error (.exit n)) →
        (Call.line sh text).ReachesExit host n) ∧
    ∀ {sh after : Shell H} {path : String}, sh.OnlyBuiltins →
      sh.executeScript host depth path = some (after, .error (.exit n)) →
        (Call.script sh path).ReachesExit host n := by
  induction depth with
  | zero => exact ⟨fun _ absent => (nomatch absent), fun _ absent => (nomatch absent)⟩
  | succ depth ih =>
    have lines {sh after : Shell H} {text : String} (builtins : sh.OnlyBuiltins)
        (ended : sh.executeLine host (depth + 1) text = some (after, .error (.exit n))) :
        (Call.line sh text).ReachesExit host n := by
      rw [executeLine, runner] at ended
      simp only [executeLineWith] at ended
      split at ended
      · rename_i prepared
        cases ended
        exact absurd rfl ((ofLine_of_prepare_eq_error prepared).ne_exit n)
      · rename_i ready command arguments prepared
        obtain ⟨b, rfl⟩ := builtins.exists_of_prepare (congrArg Prod.snd prepared)
        obtain ⟨⟨left, outcome⟩, ran, settled⟩ := Option.map_eq_some_iff.mp ended
        obtain rfl : outcome = .exit n := by
          cases outcome with
          | exit code =>
            cases settled
            rfl
          | done => cases settled
          | failed message => cases settled
          | crashed reason => cases settled
        rcases Builtin.of_run_eq_exit ran with ⟨rfl, leaves⟩ | ⟨rfl, path, given, executed⟩
        · exact ⟨sh, text, .refl, arguments, congrArg Prod.snd prepared, leaves⟩
        · have makes : Makes host (.line sh text) (.script _ path) := .run prepared given
          have builtins' := Encloses.onlyBuiltins (.single makes) builtins
          exact makes.reachesExit (ih.2 builtins' executed)
    exact ⟨lines, reachesExit_of_script lines⟩

/-- Whatever is left was left by a line that asks to leave, and with the code of that line. -/
theorem Call.reachesExit_of_execute {depth : Nat} {call : Call H} {after : Shell H} {n : Int32}
    (builtins : call.shell.OnlyBuiltins)
    (ended : call.execute host depth = some (after, .error (.exit n))) :
    call.ReachesExit host n := by
  obtain ⟨lines, scripts⟩ := LineConsole.reachesExit_of_execute host depth n
  cases call with
  | line sh text => exact lines builtins ended
  | script sh path => exact scripts builtins ended
  | batch sh invocation =>
    rw [Call.execute, executeBatch] at ended
    split at ended
    · rename_i reached done executed
      cases given : invocation.command with
      | none =>
        rw [given] at ended
        cases ended
      | some text =>
        have makes := Makes.line given executed
        have builtins' := Encloses.onlyBuiltins (.single makes) builtins
        rw [given, Option.toList_some, executeAll] at ended
        split at ended
        · cases ended
        · exact makes.reachesExit (lines builtins' ended)
    · obtain ⟨before, path, rest, reached, listed, done, failed⟩ :=
        exists_of_executeAll_eq_error ended
      have makes := Makes.script listed done
      have builtins' := Encloses.onlyBuiltins (.single makes) builtins
      exact makes.reachesExit (scripts builtins' failed)

end Way

/-! ## The process -/

/-- The shell that the scripts and the line of an invocation are executed by. -/
def Invocation.firstShell (invocation : Invocation) (files : Files) (env : Environment) :
    Shell Empty :=
  let config := (invocation.configure files env).1
  loadHistory (historyPath? config env) (invocation.shell config files)

theorem Invocation.onlyBuiltins_firstShell (invocation : Invocation) (files : Files)
    (env : Environment) : (invocation.firstShell files env).OnlyBuiltins := by
  unfold firstShell loadHistory
  dsimp only
  split <;> rfl

/-- Where something is executed, it is not for lines to be typed. -/
theorem Invocation.not_isInteractive_of_encloses {host : Host H} {invocation : Invocation}
    {sh sh' : Shell H} {text : String}
    (encloses : Encloses host (.batch sh invocation) (.line sh' text)) :
    invocation.isInteractive = false := by
  rcases Relation.ReflTransGen.cases_head encloses with same | ⟨next, makes, -⟩
  · cases same
  · unfold isInteractive
    cases makes with
    | script listed done => rw [listed]; simp
    | line given done => rw [given]; simp

/-- Success is told of by the code zero alone. -/
theorem exitStatus_eq_zero_iff (n : Int32) : exitStatus n = 0 ↔ n = 0 := by
  unfold exitStatus
  constructor
  · intro none
    split at none
    · rename_i fits
      have zero : n.toInt = (0 : Int32).toInt := by
        have : (0 : Int32).toInt = 0 := by decide
        omega
      exact Int32.toInt_inj.mp zero
    · cases none
  · rintro rfl
    decide

/-- What a line that asks to leave was reached from is left with its code, in the shell that the line
was reached in but for its history and what was noted. -/
theorem Encloses.exists_comesTo_exit {host : Host H} {outer : Call H} {sh : Shell H} {text : String}
    {n : Int32} (encloses : Encloses host outer (.line sh text))
    (builtins : outer.shell.OnlyBuiltins) (exits : text = exitLine n ∨ sh.AsksToLeave text n) :
    ∃ records, (∀ record ∈ records, ¬ record.IsStatement) ∧
      outer.ComesTo host ({ sh with
        history := sh.history.add (Text.trimmed text)
        log := sh.log ++ records }, .error (.exit n)) := by
  have asks : sh.AsksToLeave text n := by
    rcases exits with rfl | asks
    · exact asksToLeave_exitLine (encloses.onlyBuiltins builtins) n
    · exact asks
  obtain ⟨records, begun, leaves⟩ := asks.comesTo_exit host
  exact ⟨records, begun, encloses.comesTo_exit leaves⟩

/-- A line that reads `exit` with a code, or asks for that code in another way, leaves all that it was
reached from: each of the lines, scripts and batches around it comes to the request to leave, in the
shell that the line was reached in. Of that shell only the history and what was noted are changed; the
line has entered the one, and in the other no further statement has begun. A process writes what was
written up to there, tells of nothing and ends with the code as its status, or with 1 if the code does
not fit. -/
theorem exit_passes_every_level (n : Int32) :
    (∀ {H : Type} (host : Host H) {outer : Call H} {sh : Shell H} {text : String},
      outer.shell.OnlyBuiltins → Encloses host outer (.line sh text) →
      text = exitLine n ∨ sh.AsksToLeave text n →
      ∃ records, (∀ record ∈ records, ¬ record.IsStatement) ∧
        outer.ComesTo host ({ sh with
          history := sh.history.add (Text.trimmed text)
          log := sh.log ++ records }, .error (.exit n))) ∧
    ∀ (invocation : Invocation) (files : Files) (env : Environment) {sh : Shell Empty}
      {text : String},
      Encloses Invocation.noHost (.batch (invocation.firstShell files env) invocation)
        (.line sh text) →
      text = exitLine n ∨ sh.AsksToLeave text n →
      ∃ enough, ∀ depth, enough ≤ depth →
        ((invocation.firstShell files env).executeBatch Invocation.noHost depth invocation).map
          (fun (_, result) => batchCode result) = some n ∧
        ∃ r, invocation.run depth files env = some r ∧
          r.status = (if 0 ≤ n.toInt ∧ n.toInt ≤ 255 then n.toInt.toNat else 1) ∧
          (r.status = 0 ↔ n = 0) ∧ r.output = sh.output.text ∧
          r.messages = (invocation.configure files env).2 := by
  constructor
  · intro H host outer sh text builtins reached exits
    exact reached.exists_comesTo_exit builtins exits
  · intro invocation files env sh text reached exits
    obtain ⟨records, -, enough, ended⟩ :=
      reached.exists_comesTo_exit (invocation.onlyBuiltins_firstShell files env) exits
    refine ⟨enough, fun depth le => ?_⟩
    have batch := ended depth le
    rw [Call.execute] at batch
    constructor
    · rw [batch]
      rfl
    · unfold Invocation.run
      rw [Invocation.not_isInteractive_of_encloses reached]
      simp only [Bool.false_eq_true, if_false]
      unfold Invocation.firstShell at batch
      rw [batch]
      exact ⟨_, rfl, rfl, exitStatus_eq_zero_iff n, rfl, List.append_nil _⟩

/-! ## A script that leaves from another one -/

/-- `outer` runs `inner`, which leaves at once; there is more to do in both. -/
def nested : Files :=
  (Files.empty.put ["work", "outer.lsf"] (.file (asciiBytes "echo one\nrun inner\necho two"))).put
    ["work", "inner.lsf"] (.file (asciiBytes "exit 300\necho three"))

/-- Another script and a line are to follow. -/
def leaver : Invocation := { scripts := ["outer", "inner"], command := some "echo four" }

/-- A code that no fault has was asked for. -/
theorem eq_exit_of_batchCode {result : Except Fault Unit} {n : Int32} (code : batchCode result = n)
    (success : n ≠ 0) (failure : n ≠ 1) : result = .error (.exit n) := by
  unfold batchCode at code
  split at code
  · exact absurd code.symm success
  · rw [code]
  · exact absurd code.symm failure

theorem exit_from_nested : ∃ sh text,
    Encloses Invocation.noHost (.batch (leaver.firstShell nested .empty) leaver) (.line sh text) ∧
    sh.AsksToLeave text 300 ∧
    ∃ enough, ∀ depth, enough ≤ depth → ∃ r, leaver.run depth nested .empty = some r ∧
      r.status = 1 ∧ r.output = "one\n" ∧ r.messages = [] := by
  have ran : ((leaver.firstShell nested .empty).executeBatch Invocation.noHost 3 leaver).map
      (fun (sh, result) => (sh.output.text, batchCode result)) = some ("one\n", 300) := by
    decide +kernel
  obtain ⟨⟨left, result⟩, executed, same⟩ := Option.map_eq_some_iff.mp ran
  obtain ⟨output, code⟩ := Prod.mk.inj same
  obtain rfl := eq_exit_of_batchCode code (by decide) (by decide)
  have builtins : (Call.batch (leaver.firstShell nested .empty) leaver).shell.OnlyBuiltins :=
    leaver.onlyBuiltins_firstShell nested .empty
  obtain ⟨sh, text, encloses, asks⟩ := Call.reachesExit_of_execute builtins executed
  obtain ⟨general, process⟩ := exit_passes_every_level 300
  obtain ⟨records, -, enough, left'⟩ :=
    general Invocation.noHost builtins encloses (.inr asks)
  have written : sh.output.text = "one\n" := by
    have answer := executeBatch_below Invocation.noHost (Nat.le_max_right enough 3) executed
    obtain ⟨same, -⟩ := Prod.mk.inj (Option.some.inj ((left' _ (Nat.le_max_left _ _)).symm.trans answer))
    rw [← output, ← same]
  obtain ⟨enough, ended⟩ := process leaver nested .empty encloses (.inr asks)
  refine ⟨sh, text, encloses, asks, enough, fun depth le => ?_⟩
  obtain ⟨-, r, ran, status, -, shown, messages⟩ := ended depth le
  refine ⟨r, ran, ?_, shown.trans written, ?_⟩
  · rw [status]
    decide
  · rw [messages]
    decide +kernel

end LineConsole
