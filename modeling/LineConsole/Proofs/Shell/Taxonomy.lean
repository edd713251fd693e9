import LineConsole.Proofs.Shell.Scripts
import LineConsole.Proofs.Shell.Sequence

/-! # What comes out of lines and scripts

A line fails of one of a few faults or asks to leave. A script that fails was not found, could not be
read, has a statement that failed of one of those faults, or passes a request to leave on. Nothing else
comes out, whatever the handlers do and however deep lines and scripts nest: what a handler fails of is
its own text, also if a line or a script that it had executed failed.
-/

namespace LineConsole

/-- The faults that a script can come to, given the files and the path of the script. -/
inductive Fault.OfScript (files : Files) (path : String) : Fault → Prop where
  | notFound (absent : files.isFile path = false) : OfScript files path (.scriptNotFound path)
  | unreadable (fault : IoFault) (refused : files.readText path = .error fault) :
    OfScript files path (.io fault)
  /-- One of the statements failed; which line it is in is told, and of what it failed. -/
  | statement {source : String} {number : Nat} {text : String} {cause : Fault}
    (readable : files.readText path = .ok source) (listed : (number, text) ∈ statements source)
    (ofLine : cause.OfLine) :
    OfScript files path (.script path number (lowerFirst cause.message))
  | exit (code : Int32) : OfScript files path (.exit code)

namespace Shell

variable {H : Type} {sh sh' : Shell H} {fault : Fault}

/-- A script fails before its first statement, or one of its statements does. -/
theorem ofScript_of_executeScript_eq_error {host : Host H} {depth : Nat} {path : String}
    (failed : sh.executeScript host depth path = some (sh', .error fault)) :
    fault.OfScript sh.files (Path.withDefaultExtension sh.scriptExtension path) := by
  cases depth with
  | zero => cases failed
  | succ depth =>
    rw [executeScript_succ] at failed
    unfold executeScriptWith at failed
    dsimp only at failed
    split at failed
    · rename_i absent
      cases failed
      exact .notFound (Bool.not_eq_true' _ ▸ absent)
    · split at failed
      · rename_i refused
        cases failed
        exact .unreadable _ refused
      · rename_i source readable
        split at failed
        · cases failed
        · obtain ⟨before, number, text, rest, reached, cause, lines, -, executed, rfl⟩ :=
            exists_of_runStatements_eq_error failed
          have listed : (number, text) ∈ statements source := by simp [lines]
          rcases ofLine_of_executeLine_eq_error executed with ofLine | ⟨code, rfl⟩
          · rw [scriptFault, if_pos ofLine.isUserFault]
            exact .statement readable listed ofLine
          · exact .exit code

/-- Whatever the handlers are and however deep they nest, a line that is not done fails of one of the
faults of lines or asks to leave, and a script that is not done fails of one of the faults of scripts. -/
theorem faults_of_lines_and_scripts (host : Host H) (depth : Nat) (sh sh' : Shell H)
    (text : String) (result : Except Fault Unit) :
    (sh.executeLine host depth text = some (sh', result) →
      result = .ok () ∨ ∃ fault, result = .error fault ∧
        (fault.OfLine ∨ ∃ code, fault = .exit code)) ∧
    (sh.executeScript host depth text = some (sh', result) →
      result = .ok () ∨ ∃ fault, result = .error fault ∧
        fault.OfScript sh.files (Path.withDefaultExtension sh.scriptExtension text)) := by
  cases result with
  | ok done => exact ⟨fun _ => .inl rfl, fun _ => .inl rfl⟩
  | error fault =>
    refine ⟨fun failed => .inr ⟨fault, rfl, ?_⟩, fun failed => .inr ⟨fault, rfl, ?_⟩⟩
    · exact ofLine_of_executeLine_eq_error failed
    · exact ofScript_of_executeScript_eq_error failed

/-- Whether an execution comes to a fault is found out by executing. -/
instance decidableFails (execution : Execution H) (fault : Fault) :
    Decidable (∃ after, execution = some (after, .error fault)) :=
  match execution with
  | none => isFalse (by simp)
  | some (_, .ok _) => isFalse (by simp)
  | some (_, .error told) => decidable_of_iff (told = fault) (by simp)

/-- A script that runs another one, whose fault stays there, and then fails of its own; and a line
whose argument is no number. -/
theorem faults_of_outer :
    (∃ script, scripted.executeScript unasked 2 "outer" = some (script,
        .error (.script "outer.lsf" 5 "no variable found with name 'nobody'")) ∧
      Fault.OfScript scripted.files (Path.withDefaultExtension scripted.scriptExtension "outer")
        (.script "outer.lsf" 5 "no variable found with name 'nobody'")) ∧
    ∃ after, scripted.executeLine unasked 2 "exit now" = some (after,
        .error (.notConvertible "code" "int" "now")) ∧
      Fault.OfLine (.notConvertible "code" "int" "now") := by
  have script : ∃ script, scripted.executeScript unasked 2 "outer" = some (script,
      .error (.script "outer.lsf" 5 "no variable found with name 'nobody'")) := by decide +kernel
  have line : ∃ after, scripted.executeLine unasked 2 "exit now" = some (after,
      .error (.notConvertible "code" "int" "now")) := by decide +kernel
  constructor
  · obtain ⟨script, executed⟩ := script
    have known := (faults_of_lines_and_scripts unasked 2 scripted script "outer" _).2 executed
    obtain ⟨fault, same, ofScript⟩ := known.resolve_left nofun
    cases same
    exact ⟨script, executed, ofScript⟩
  · obtain ⟨after, executed⟩ := line
    have known := (faults_of_lines_and_scripts unasked 2 scripted after "exit now" _).1 executed
    obtain ⟨fault, same, ofLine | ⟨code, exits⟩⟩ := known.resolve_left nofun
    · cases same
      exact ⟨after, executed, ofLine⟩
    · cases same
      cases exits

end Shell

end LineConsole
