import LineConsole.Proofs.Shell.FailedLines

/-! # What a line can fail of

A line that fails comes to one of a few faults, all of them the user's, whatever the commands are and
whatever their handlers do: what a handler fails of is reported and stays with it. A command is chosen
only if some candidate takes the count of arguments, so that a conversion is all that choosing can fail
of.
-/

namespace LineConsole

/-- The faults that a line can come to; a request to leave is none. -/
inductive Fault.OfLine : Fault → Prop where
  | openQuote : OfLine (.malformed "missing closing delimiter")
  | noEqualsSign (name : String) : OfLine (.malformed ("expected '=' after $" ++ name))
  | commandNotFound (name : String) : OfLine (.commandNotFound name)
  | notConvertible (parameter typeName value : String) :
    OfLine (.notConvertible parameter typeName value)
  | variableNotFound (name : String) : OfLine (.variableNotFound name)
  | invalidVariable (name : String) : OfLine (.invalidVariable name)
  | variablesDisabled : OfLine .variablesDisabled

theorem Fault.OfLine.isUserFault {fault : Fault} (ofLine : fault.OfLine) :
    fault.isUserFault = true := by
  cases ofLine <;> rfl

theorem Fault.OfLine.ne_exit {fault : Fault} (ofLine : fault.OfLine) (code : Int32) :
    fault ≠ .exit code := by
  rintro rfl
  cases ofLine

/-- A text that is not empty and begins with an ASCII character. -/
def Text.BeginsInAscii (text : String) : Prop := ∃ c cs, text.toList = c :: cs ∧ c.toNat < 128

theorem Text.BeginsInAscii.append {text : String} (begins : BeginsInAscii text) (more : String) :
    BeginsInAscii (text ++ more) := by
  obtain ⟨c, cs, text, ascii⟩ := begins
  exact ⟨c, cs ++ more.toList, by rw [String.toList_append, text, List.cons_append], ascii⟩

/-- What the user is told of a line needs no more than ASCII to have its first letter changed. -/
theorem Fault.OfLine.message_beginsInAscii {fault : Fault} (ofLine : fault.OfLine) :
    Text.BeginsInAscii fault.message := by
  cases ofLine with
  | openQuote => exact ⟨'m', _, rfl, by decide⟩
  | noEqualsSign name => exact .append ⟨'e', _, rfl, by decide⟩ name
  | commandNotFound name => exact .append ⟨'C', _, rfl, by decide⟩ name
  | notConvertible parameter typeName value =>
    have begins : Text.BeginsInAscii "Cannot convert '" := ⟨'C', _, rfl, by decide⟩
    exact .append (.append (.append (.append (.append (.append begins _) _) _) _) _) _
  | variableNotFound name => exact .append (.append ⟨'N', _, rfl, by decide⟩ name) _
  | invalidVariable name => exact .append (.append ⟨'I', _, rfl, by decide⟩ name) _
  | variablesDisabled => exact ⟨'V', _, rfl, by decide⟩

variable {H : Type} {fault : Fault}

private theorem eq_error_of_map {α β : Type} {f : α → β} {result : Except Fault α}
    (failed : result.map f = .error fault) : result = .error fault := by
  cases result with
  | ok a => cases failed
  | error other =>
    cases failed
    rfl

/-- By induction on the arguments: an open quote is all that can be wrong with them. -/
theorem ArgumentText.split_eq_error {cs : List Char} (failed : split cs = .error fault) :
    fault = .malformed "missing closing delimiter" := by
  fun_induction split cs with
  | case1 => cases failed
  | case2 => cases failed
  | case3 => exact (Except.error.inj failed).symm
  | case4 _ _ _ _ _ _ _ _ _ ih => exact ih (eq_error_of_map failed)
  | case5 _ _ _ _ _ _ ih => exact ih (eq_error_of_map failed)

theorem ArgumentText.tokens_eq_error {text : String} (failed : tokens text = .error fault) :
    fault = .malformed "missing closing delimiter" :=
  split_eq_error (eq_error_of_map failed)

theorem VariableRequest.ofLine_eq_error {word rest : List Char}
    (failed : ofLine word rest = .error fault) : fault.OfLine := by
  unfold ofLine at failed
  dsimp only at failed
  split at failed
  · cases failed
    exact .invalidVariable _
  · split at failed
    · cases failed
    · cases failed
    · cases failed
    · cases failed
      exact .noEqualsSign _

/-- The first argument is converted, and then the others are. -/
theorem convertArguments_cons (table : Converters) (parameter : Parameter)
    (parameters : List Parameter) (raw : String) (raws : List String) :
    convertArguments table (parameter :: parameters) (raw :: raws) =
      match table.convert raw parameter.type with
      | .ok value => (convertArguments table parameters raws).map (value :: ·)
      | .error fault => .error (.notConvertible parameter.name fault.typeName fault.raw) := by
  rw [convertArguments]
  cases table.convert raw parameter.type with
  | ok value => cases convertArguments table parameters raws <;> rfl
  | error fault => rfl

theorem convertArguments_eq_error {table : Converters} {parameters : List Parameter}
    {raws : List String} (failed : convertArguments table parameters raws = .error fault) :
    ∃ parameter typeName value, fault = .notConvertible parameter typeName value := by
  induction parameters generalizing raws with
  | nil =>
    rw [convertArguments] at failed
    cases failed
  | cons parameter parameters ih =>
    cases raws with
    | nil => cases failed
    | cons raw raws =>
      rw [convertArguments_cons] at failed
      split at failed
      · exact ih (eq_error_of_map failed)
      · cases failed
        exact ⟨_, _, _, rfl⟩

namespace Attempt

variable {table : Converters} {tokens : List String} {text : String}

theorem fault_of_mem_all {commands : List (Command H)} {a : Attempt H}
    (tried : a ∈ all table tokens text commands) (failed : a.fault? = some fault) :
    ∃ parameter typeName value, fault = .notConvertible parameter typeName value := by
  obtain ⟨-, result⟩ := mem_all tried
  rw [fault?, result] at failed
  cases bound : a.command.bind table tokens text with
  | ok arguments =>
    rw [bound] at failed
    cases failed
  | error other =>
    rw [bound] at failed
    cases failed
    unfold Command.bind at bound
    split at bound
    · cases bound
    · exact convertArguments_eq_error (eq_error_of_map bound)

/-- Where there is something to try, the first of it succeeds or has a fault. -/
theorem exists_fault_of_no_success {commands : List (Command H)} (some : commands ≠ [])
    (none : (all table tokens text commands).findSome? success? = .none) :
    (all table tokens text commands).findSome? fault? ≠ .none := by
  obtain ⟨c, rest, rfl⟩ := List.exists_cons_of_ne_nil some
  intro faultless
  rw [List.findSome?_eq_none_iff] at none faultless
  have tried : ⟨c, c.bind table tokens text⟩ ∈ all table tokens text (c :: rest) := by
    rw [all]
    exact List.mem_cons_self
  have unsuccessful := none _ tried
  have unfailing := faultless _ tried
  simp only [success?, fault?] at unsuccessful unfailing
  cases bound : c.bind table tokens text with
  | ok arguments => simp [bound] at unsuccessful
  | error fault => simp [bound] at unfailing

end Attempt

namespace Shell

variable {sh sh' : Shell H}

theorem ofLine_of_executeVariableLine_eq_error {word rest : List Char}
    (failed : sh.executeVariableLine word rest = (sh', .error fault)) : fault.OfLine := by
  unfold executeVariableLine at failed
  split at failed
  · cases failed
    exact .variablesDisabled
  · split at failed
    · rename_i refused
      cases failed
      exact VariableRequest.ofLine_eq_error refused
    · split at failed
      · cases failed
      · cases failed
        exact .variableNotFound _
    · cases failed
    · unfold assignVariable at failed
      cases failed

/-- Where a candidate takes the count of arguments, a conversion is all that can fail. -/
theorem choose_eq_error {candidates : List (Command (Handler H))} {tokens : List String}
    {text : String} (taken : candidates.any (·.accepts tokens.length))
    (failed : sh.choose candidates tokens text = (sh', .settled (.error fault))) :
    ∃ parameter typeName value, fault = .notConvertible parameter typeName value := by
  obtain ⟨c, known, accepts⟩ := List.any_eq_true.mp taken
  have viable : c ∈ candidates.filter (·.accepts tokens.length) :=
    List.mem_filter.mpr ⟨known, accepts⟩
  have verdict := congrArg Prod.snd failed
  simp only [choose] at verdict
  split at verdict
  · cases verdict
  · rename_i fault' _ _ found
    cases verdict
    obtain ⟨a, tried, refused⟩ := List.exists_of_findSome?_eq_some found
    exact Attempt.fault_of_mem_all tried refused
  · cases known
  · rename_i none faultless
    exact absurd faultless (Attempt.exists_fault_of_no_success (List.ne_nil_of_mem viable) none)

theorem ofLine_of_resolve_eq_error {name text : String}
    (failed : sh.resolve name text = (sh', .settled (.error fault))) : fault.OfLine := by
  unfold resolve at failed
  split at failed
  · rename_i unclosed
    cases failed
    rw [ArgumentText.tokens_eq_error unclosed]
    exact .openQuote
  · dsimp only at failed
    split at failed
    · cases failed
      exact .commandNotFound name
    · split at failed
      · rename_i taken
        obtain ⟨parameter, typeName, value, rfl⟩ := choose_eq_error taken failed
        exact .notConvertible parameter typeName value
      · cases failed

theorem ofLine_of_prepare_eq_error {line : String}
    (failed : sh.prepare line = (sh', .settled (.error fault))) : fault.OfLine := by
  unfold prepare at failed
  dsimp only at failed
  split at failed
  · cases failed
  · split at failed
    · obtain ⟨after, result⟩ := Prod.mk.inj failed
      exact ofLine_of_executeVariableLine_eq_error (Prod.ext after (Verdict.settled.inj result))
    · exact ofLine_of_resolve_eq_error failed

/-- What handlers fail of does not come out of a line; only a request to leave does. -/
theorem ofLine_of_executeLine_eq_error {host : Host H} {depth : Nat} {line : String}
    (failed : sh.executeLine host depth line = some (sh', .error fault)) :
    fault.OfLine ∨ ∃ code, fault = .exit code := by
  by_cases leaves : ∃ code, fault = .exit code
  · exact .inr leaves
  · refine .inl (ofLine_of_prepare_eq_error (prepare_of_executeLine_eq_error failed ?_))
    exact fun code same => leaves ⟨code, same⟩

end Shell

end LineConsole
