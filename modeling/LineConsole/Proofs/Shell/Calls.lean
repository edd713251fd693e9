import LineConsole.Shell.Execution

/-! # Lines that call a command

A line calls a command only if the command is a candidate for the name in the line, takes the count of
the line's arguments and binds them. Up to the call the line has entered the history, and what was
tried is noted.
-/

namespace LineConsole

variable {H : Type}

/-- Notes that a statement of a script begins. -/
def LogRecord.IsStatement : LogRecord → Prop
  | .scriptStatement _ _ => True
  | _ => False

/-- The statement that begins. -/
def LogRecord.statement? : LogRecord → Option String
  | .scriptStatement _ text => some text
  | _ => none

theorem LogRecord.statement?_eq_none {record : LogRecord} (other : ¬ record.IsStatement) :
    record.statement? = none := by
  cases record with
  | scriptStatement line text => exact absurd trivial other
  | _ => rfl

/-- The candidates that were tried are all that a call has noted. -/
theorem not_isStatement_of_mem_records {attempt : Attempt (Handler H)} {record : LogRecord}
    (noted : record ∈ attempt.records) : ¬ record.IsStatement := by
  rcases Attempt.eq_of_mem_records noted with ⟨_, rfl⟩ | ⟨_, rfl⟩
  · exact id
  · exact id

theorem Attempt.success?_eq_some {attempt : Attempt H} {command : Command H} {arguments : Arguments}
    (succeeded : attempt.success? = some (command, arguments)) :
    attempt.command = command ∧ attempt.result = .ok arguments := by
  unfold success? at succeeded
  split at succeeded
  · rename_i bound
    cases succeeded
    exact ⟨rfl, bound⟩
  · cases succeeded

namespace Shell

variable {sh ready : Shell H} {command : Command (Handler H)} {arguments : Arguments}

theorem choose_eq_call {candidates : List (Command (Handler H))} {tokens : List String}
    {text : String} (called : (sh.choose candidates tokens text).2 = .call command arguments) :
    command ∈ candidates ∧ command.accepts tokens.length ∧
      command.bind sh.converters tokens text = .ok arguments := by
  simp only [choose] at called
  split at called
  · rename_i found
    cases called
    obtain ⟨attempt, tried, succeeded⟩ := List.exists_of_findSome?_eq_some found
    obtain ⟨rfl, bound⟩ := Attempt.success?_eq_some succeeded
    obtain ⟨viable, result⟩ := Attempt.mem_all tried
    obtain ⟨among, accepts⟩ := List.mem_filter.mp viable
    exact ⟨among, accepts, result.symm.trans bound⟩
  all_goals cases called

/-- A name and an argument text that come to a call. -/
theorem resolve_eq_call {name text : String}
    (called : sh.resolve name text = (ready, .call command arguments)) :
    ∃ tokens, ArgumentText.tokens text = .ok tokens ∧
      command ∈ sh.registry.candidates name ∧ command.accepts tokens.length ∧
      command.bind sh.converters tokens text = .ok arguments ∧
      ∃ records, (∀ record ∈ records, ¬ record.IsStatement) ∧ ready = sh.noteAll records := by
  unfold resolve at called
  split at called
  · cases called
  · rename_i tokens tokenized
    dsimp only at called
    split at called
    · cases called
    · split at called
      · obtain ⟨among, accepts, bound⟩ := choose_eq_call (congrArg Prod.snd called)
        refine ⟨tokens, tokenized, among, accepts, bound, _, fun record noted => ?_,
          (congrArg Prod.fst called).symm⟩
        obtain ⟨attempt, -, noted⟩ := List.mem_flatMap.mp noted
        exact not_isStatement_of_mem_records noted
      · cases called

/-- All that a line has come to when it calls a command. -/
structure Called (sh : Shell H) (line : String) (ready : Shell H) (command : Command (Handler H))
    (arguments : Arguments) : Prop where
  candidate : command ∈
    sh.registry.candidates (String.ofList (splitCommand (Text.trim line.toList)).1)
  bound : ∃ tokens,
    ArgumentText.tokens (sh.argumentText (splitCommand (Text.trim line.toList)).2) = .ok tokens ∧
      command.accepts tokens.length ∧ command.bind sh.converters tokens
        (sh.argumentText (splitCommand (Text.trim line.toList)).2) = .ok arguments
  ready : ∃ records, (∀ record ∈ records, ¬ record.IsStatement) ∧
    ready = (sh.addHistory (Text.trimmed line)).noteAll records

theorem called_of_prepare {line : String}
    (called : sh.prepare line = (ready, .call command arguments)) :
    sh.Called line ready command arguments := by
  unfold prepare at called
  simp only at called
  split at called
  · cases called
  · split at called
    · cases called
    · obtain ⟨tokens, tokenized, among, accepts, bound, noted⟩ := resolve_eq_call called
      exact ⟨among, ⟨tokens, tokenized, accepts, bound⟩, noted⟩

end Shell

end LineConsole
