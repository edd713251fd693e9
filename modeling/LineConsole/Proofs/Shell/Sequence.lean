import LineConsole.CommandLine.Batch

/-! # One item after the other

The scripts of a batch are executed in order, up to the first that does not succeed. The statements
of a script are too, if what the script notes before a statement and makes of its fault is counted as
part of that statement. So what is known of items in order is known of statements.
-/

namespace LineConsole.Shell

variable {H α : Type} {sh reached after : Shell H} {fault : Fault}

/-! ## Items -/

section Items

variable {execute : Shell H → α → Execution H}

theorem executeAll_singleton (a : α) (sh : Shell H) :
    executeAll execute [a] sh = execute sh a := by
  rw [executeAll]
  split
  · rename_i executed
    rw [executed]
    rfl
  · rfl

/-- Items behind others that succeeded are executed where those have led. -/
theorem executeAll_append {before : List α}
    (done : executeAll execute before sh = some (reached, .ok ())) (rest : List α) :
    executeAll execute (before ++ rest) sh = executeAll execute rest reached := by
  induction before generalizing sh with
  | nil =>
    cases done
    rfl
  | cons a before ih =>
    rw [List.cons_append, executeAll]
    rw [executeAll] at done
    split at done
    · exact ih done
    · rename_i stopped
      exact absurd done (stopped reached ())

/-- Where items stopped, the last of them failed and the ones before it did not. -/
theorem exists_of_executeAll_eq_error {items : List α}
    (stopped : executeAll execute items sh = some (after, .error fault)) :
    ∃ before a rest reached, items = before ++ a :: rest ∧
      executeAll execute before sh = some (reached, .ok ()) ∧
      execute reached a = some (after, .error fault) := by
  induction items generalizing sh with
  | nil => cases stopped
  | cons a items ih =>
    rw [executeAll] at stopped
    split at stopped
    · rename_i executed
      obtain ⟨before, a', rest, reached, rfl, done, failed⟩ := ih stopped
      refine ⟨a :: before, a', rest, reached, rfl, ?_, failed⟩
      rw [executeAll, executed]
      exact done
    · exact ⟨[], a, items, sh, rfl, rfl, stopped⟩

end Items

/-! ## Statements -/

section Statements

variable {execute : Shell H → String → Execution H} {path : String}

/-- A statement with its number, and what the script makes of it. -/
def executeStatement (execute : Shell H → String → Execution H) (path : String) (sh : Shell H)
    (line : Nat × String) : Execution H :=
  (execute (sh.note (.scriptStatement line.1 line.2)) line.2).map fun (sh, result) =>
    (sh, result.mapError (scriptFault path line.1))

theorem runStatements_eq_executeAll (lines : List (Nat × String)) (sh : Shell H) :
    runStatements execute path lines sh = executeAll (executeStatement execute path) lines sh := by
  induction lines generalizing sh with
  | nil => rfl
  | cons first rest ih =>
    rw [runStatements, executeAll, executeStatement]
    cases execute (sh.note (.scriptStatement first.1 first.2)) first.2 with
    | none => rfl
    | some answer =>
      obtain ⟨next, result⟩ := answer
      cases result with
      | ok done => exact ih next
      | error fault => rfl

theorem runStatements_append {before : List (Nat × String)}
    (done : runStatements execute path before sh = some (reached, .ok ()))
    (rest : List (Nat × String)) :
    runStatements execute path (before ++ rest) sh = runStatements execute path rest reached := by
  rw [runStatements_eq_executeAll] at done
  rw [runStatements_eq_executeAll, runStatements_eq_executeAll, executeAll_append done]

/-- Where statements stopped, the last of them failed and the ones before it did not. -/
theorem exists_of_runStatements_eq_error {lines : List (Nat × String)}
    (stopped : runStatements execute path lines sh = some (after, .error fault)) :
    ∃ before number text rest reached cause, lines = before ++ (number, text) :: rest ∧
      runStatements execute path before sh = some (reached, .ok ()) ∧
      execute (reached.note (.scriptStatement number text)) text = some (after, .error cause) ∧
      fault = scriptFault path number cause := by
  rw [runStatements_eq_executeAll] at stopped
  obtain ⟨before, ⟨number, text⟩, rest, reached, rfl, done, failed⟩ :=
    exists_of_executeAll_eq_error stopped
  rw [← runStatements_eq_executeAll] at done
  obtain ⟨⟨next, result⟩, executed, same⟩ := Option.map_eq_some_iff.mp failed
  cases result with
  | ok _ => cases same
  | error cause =>
    cases same
    exact ⟨before, number, text, rest, reached, cause, rfl, done, executed, rfl⟩

end Statements

end LineConsole.Shell
