import LineConsole.Shell.Execution

/-! # Lines that fail

A line fails before anything comes of it, or not at all: a handler that fails is reported and its
line succeeds, and a variable is set only by a line that succeeds. So a line with a fault has
entered the history, what was tried is noted, and all else is as before, whatever the handlers do. A
request to leave is not a failure; it comes from handlers only.
-/

namespace LineConsole

/-- Notes that a handler is about to run. -/
def LogRecord.IsInvocation : LogRecord → Prop
  | .invoking _ _ => True
  | _ => False

namespace Shell

variable {H : Type} {sh sh' : Shell H} {fault : Fault}

/-- What a handler comes to fails its line only by a request to leave. -/
theorem exit_of_settle_eq_error {command : String} {outcome : Outcome}
    (settled : sh.settle command outcome = (sh', .error fault)) : ∃ code, fault = .exit code := by
  cases outcome with
  | exit code =>
    cases settled
    exact ⟨code, rfl⟩
  | done => cases settled
  | failed message => cases settled
  | crashed reason => cases settled

/-- A variable line that fails leaves everything as it is. -/
theorem eq_of_executeVariableLine_eq_error {word rest : List Char}
    (failed : sh.executeVariableLine word rest = (sh', .error fault)) : sh' = sh := by
  unfold executeVariableLine at failed
  split at failed
  · cases failed
    rfl
  · split at failed
    · cases failed
      rfl
    · split at failed
      · cases failed
      · cases failed
        rfl
    · cases failed
    · unfold assignVariable at failed
      cases failed

theorem noteAll_nil (sh : Shell H) : sh.noteAll [] = sh := by
  rw [noteAll, List.append_nil]

/-- Attempts note what was tried and run nothing. -/
theorem not_isInvocation_of_mem_records {attempt : Attempt (Handler H)} {record : LogRecord}
    (noted : record ∈ attempt.records) : ¬ record.IsInvocation := by
  rcases Attempt.eq_of_mem_records noted with ⟨_, rfl⟩ | ⟨_, rfl⟩
  · exact id
  · exact id

/-- All that a fault leaves of the search for a command are notes of what was tried. -/
theorem resolve_eq_error {name text : String}
    (failed : sh.resolve name text = (sh', .settled (.error fault))) :
    ∃ records, (∀ record ∈ records, ¬ record.IsInvocation) ∧ sh' = sh.noteAll records := by
  have untried (same : sh' = sh) : ∃ records, (∀ record ∈ records, ¬ record.IsInvocation) ∧
      sh' = sh.noteAll records := ⟨[], nofun, same.trans (noteAll_nil sh).symm⟩
  unfold resolve at failed
  split at failed
  · cases failed
    exact untried rfl
  · simp only at failed
    split at failed
    · cases failed
      exact untried rfl
    · split at failed
      · refine ⟨_, fun record noted => ?_, (congrArg Prod.fst failed).symm⟩
        obtain ⟨attempt, -, noted⟩ := List.mem_flatMap.mp noted
        exact not_isInvocation_of_mem_records noted
      · cases failed

theorem prepare_eq_error {line : String}
    (failed : sh.prepare line = (sh', .settled (.error fault))) :
    ∃ records, (∀ record ∈ records, ¬ record.IsInvocation) ∧
      sh' = (sh.addHistory (Text.trimmed line)).noteAll records := by
  unfold prepare at failed
  simp only at failed
  split at failed
  · cases failed
  · split at failed
    · obtain ⟨after, result⟩ := Prod.mk.inj failed
      have same := eq_of_executeVariableLine_eq_error (Prod.ext after (Verdict.settled.inj result))
      exact ⟨[], nofun, same.trans (noteAll_nil _).symm⟩
    · exact resolve_eq_error failed

/-- A line that fails failed before a handler could run. -/
theorem prepare_of_executeLine_eq_error {host : Host H} {depth : Nat} {line : String}
    (failed : sh.executeLine host depth line = some (sh', .error fault))
    (failure : ∀ code, fault ≠ .exit code) : sh.prepare line = (sh', .settled (.error fault)) := by
  cases depth with
  | zero => cases failed
  | succ depth =>
    rw [executeLine, runner] at failed
    simp only [executeLineWith] at failed
    split at failed
    · rename_i prepared
      cases failed
      exact prepared
    · obtain ⟨⟨sh'', outcome⟩, -, settled⟩ := Option.map_eq_some_iff.mp failed
      obtain ⟨code, same⟩ := exit_of_settle_eq_error settled
      exact absurd same (failure code)

/-- A line that fails changes the history and the log and nothing else, and so it does with any
other handlers; typed, it writes its fault. -/
theorem executeLine_eq_error (host : Host H) (depth : Nat) (sh : Shell H) (line : String)
    {sh' : Shell H} {fault : Fault}
    (failed : sh.executeLine host depth line = some (sh', .error fault))
    (failure : ∀ code, fault ≠ .exit code) :
    ∃ records, (∀ record ∈ records, ¬ record.IsInvocation) ∧
      sh' = { sh with
        history := sh.history.add (Text.trimmed line)
        log := sh.log ++ records } ∧
      (∀ other depth', sh.executeLine other (depth' + 1) line = some (sh', .error fault)) ∧
      sh.runLine host depth line = some
        ({ sh with
          history := sh.history.add (Text.trimmed line)
          log := sh.log ++ records ++ [.lineFailed fault]
          output := sh.output.writeLine fault.text .error }, none) := by
  have prepared := prepare_of_executeLine_eq_error failed failure
  obtain ⟨records, quiet, rfl⟩ := prepare_eq_error prepared
  refine ⟨records, quiet, rfl, fun other depth' => ?_, ?_⟩
  · rw [executeLine, runner]
    simp only [executeLineWith, prepared]
  · rw [runLine, failed]
    cases fault with
    | exit code => exact absurd rfl (failure code)
    | _ => rfl

/-- A shell without commands. -/
def mute : Shell Unit := ({} : ShellSetup Unit).shell

/-- A host that is never asked. -/
def unasked : Host Unit := fun _ _ => .finish .done

theorem executeLine_nobody :
    mute.executeLine unasked 1 " $nobody " =
      some (mute.addHistory "$nobody", .error (.variableNotFound "nobody")) ∧
    (mute.runLine unasked 1 " $nobody ").map (fun (sh, code) => (sh.output, code)) =
      some ([⟨"No variable found with name 'nobody'", .error⟩, ⟨"\n", .plain⟩], none) := by
  have failed : mute.executeLine unasked 1 " $nobody " =
      some (mute.addHistory "$nobody", .error (.variableNotFound "nobody")) := rfl
  obtain ⟨records, -, -, -, ran⟩ := executeLine_eq_error unasked 1 mute _ failed nofun
  refine ⟨failed, ?_⟩
  rw [ran]
  rfl

end Shell

end LineConsole
