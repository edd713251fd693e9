import LineConsole.Proofs.Command.Registering
import LineConsole.Proofs.Shell.Arguments
import LineConsole.Proofs.Shell.Overloads

/-! # A further overload

A line that calls a command goes on to call it, with the same arguments, when another command is
registered: the other one is another name's, or it is tried later because it needs no fewer
parameters. What is tried behind the first success does not count.
-/

namespace LineConsole

variable {H : Type}

namespace Attempt

variable {table : Converters} {tokens : List String} {text : String} {c : Command H}
  {arguments : Arguments}

/-- Nothing is tried behind a success. -/
theorem all_of_bound (bound : c.bind table tokens text = .ok arguments)
    (before behind : List (Command H)) :
    all table tokens text (before ++ c :: behind) = all table tokens text (before ++ [c]) := by
  induction before with
  | nil =>
    rw [List.nil_append, List.nil_append, all, all, bound]
    rfl
  | cons first rest ih => rw [List.cons_append, List.cons_append, all, all, ih]

theorem exists_success (bound : c.bind table tokens text = .ok arguments)
    (before : List (Command H)) :
    ∃ found, (all table tokens text (before ++ [c])).findSome? success? = some found := by
  induction before with
  | nil =>
    rw [List.nil_append, all, List.findSome?_cons, success?, bound]
    exact ⟨_, rfl⟩
  | cons first rest ih =>
    rw [List.cons_append, all, List.findSome?_cons, success?]
    cases first.bind table tokens text with
    | ok arguments => exact ⟨_, rfl⟩
    | error fault => exact ih

end Attempt

namespace Shell

variable {sh : Shell H} {c d : Command (Handler H)} {arguments : Arguments} {tokens : List String}
  {text : String}

/-- The choice depends on the candidates up to the one that is chosen, and of the shell it depends on
the converters. -/
theorem choose_of_bound (accepts : c.accepts tokens.length)
    (bound : c.bind sh.converters tokens text = .ok arguments) {sh' : Shell H}
    (same : sh'.converters = sh.converters) (before behind behind' : List (Command (Handler H))) :
    ∃ records, (sh.choose (before ++ c :: behind) tokens text).1 = sh.noteAll records ∧
      sh'.choose (before ++ c :: behind') tokens text =
        (sh'.noteAll records, (sh.choose (before ++ c :: behind) tokens text).2) := by
  have tried (behind : List (Command (Handler H))) :
      Attempt.all sh.converters tokens text
          ((before ++ c :: behind).filter (·.accepts tokens.length)) =
        Attempt.all sh.converters tokens text
          (before.filter (·.accepts tokens.length) ++ [c]) := by
    rw [List.filter_append, List.filter_cons, accepts, if_pos rfl, Attempt.all_of_bound bound]
  obtain ⟨found, success⟩ :=
    Attempt.exists_success bound (before.filter (·.accepts tokens.length))
  refine ⟨_, rfl, ?_⟩
  simp only [choose, same, tried, success]

/-- What a name and an argument text call they call with a further command as well. -/
theorem resolve_register {ready : Shell H} {name : String}
    (called : sh.resolve name text = (ready, .call c arguments))
    (last : sh.registry.sameName d.name name = false ∨ c.requiredCount ≤ d.requiredCount) :
    ∃ records, ready = sh.noteAll records ∧
      (sh.register d).resolve name text = ((sh.register d).noteAll records, .call c arguments) := by
  obtain ⟨tokens, tokenized, known, accepts, bound, -⟩ := resolve_eq_call called
  obtain ⟨before, behind, split⟩ := List.append_of_mem known
  obtain ⟨behind', split'⟩ := Registry.exists_candidates_register split last
  have known' : c ∈ (sh.register d).registry.candidates name :=
    split' ▸ List.mem_append_right before List.mem_cons_self
  rw [resolve_of_accepts tokenized known accepts, split] at called
  obtain ⟨records, noted, chosen⟩ :=
    choose_of_bound accepts bound (rfl : (sh.register d).converters = sh.converters) before behind
      behind'
  rw [called] at noted chosen
  refine ⟨records, noted, ?_⟩
  rw [resolve_of_accepts tokenized known' accepts]
  exact (congrArg ((sh.register d).choose · tokens text) split').trans chosen

/-- In every shell a line that calls a command in one shell is about the command that it names. -/
theorem prepare_of_call {line : String} {ready : Shell H}
    (called : sh.prepare line = (ready, .call c arguments)) (sh' : Shell H) :
    sh'.prepare line = (sh'.addHistory (Text.trimmed line)).resolve
      (String.ofList (splitCommand (Text.trim line.toList)).1)
      (sh'.argumentText (splitCommand (Text.trim line.toList)).2) := by
  unfold prepare at called
  simp only at called
  split at called
  · cases called
  · rename_i full
    split at called
    · cases called
    · rename_i plain
      simp only [prepare, if_neg full]
      rfl

/-- Whatever a line calls, it calls with the same arguments once a further command is registered, and
the same candidates are tried before, unless the name in the line matches the further command and that
needs fewer parameters. Names that do not match it stand for the same commands as before. -/
theorem registering_keeps_calls (sh : Shell H) (d : Command (Handler H)) :
    (∀ line ready c arguments, sh.prepare line = (ready, .call c arguments) →
      (sh.registry.sameName d.name (String.ofList (splitCommand (Text.trim line.toList)).1) = false ∨
        c.requiredCount ≤ d.requiredCount) →
      ∃ records, ready = (sh.addHistory (Text.trimmed line)).noteAll records ∧
        (sh.register d).prepare line =
          (((sh.register d).addHistory (Text.trimmed line)).noteAll records, .call c arguments)) ∧
    ∀ name, sh.registry.sameName d.name name = false →
      (sh.register d).registry.candidates name = sh.registry.candidates name ∧
      ∀ count, (sh.register d).registry.find? name count = sh.registry.find? name count := by
  refine ⟨fun line ready c arguments called last => ?_, fun name other =>
    ⟨Registry.candidates_register_of_other other, Registry.find?_register_of_other other⟩⟩
  have resolved := (prepare_of_call called sh).symm.trans called
  obtain ⟨records, noted, resolved'⟩ := resolve_register (d := d) resolved last
  exact ⟨records, noted, (prepare_of_call called (sh.register d)).trans resolved'⟩

/-- Takes any two words, and needs as many parameters as the command that was there before. -/
def repainted : Command (Handler Unit) :=
  ⟨"PAINT", [⟨"color", .string, false⟩, ⟨"coats", .string, false⟩, ⟨"label", .string, true⟩], "",
    .host ()⟩

/-- The further command would take the arguments as well, but it is tried second. -/
theorem registering_keeps_paint : ∃ ready ready' arguments,
    painter.prepare paintLine = (ready, .call painted arguments) ∧
    repainted.fits painter.converters ["red", "3", "first floor"] = true ∧
    painter.registry.sameName repainted.name painted.name = true ∧
    (painter.register repainted).prepare paintLine = (ready', .call painted arguments) ∧
    arguments.values = [.custom "color" "red", .int 3, .str "first floor", .notSupplied] := by
  have call : (painter.prepare paintLine).2.call? = some (painted, ⟨painted.parameters,
      [.custom "color" "red", .int 3, .str "first floor", .notSupplied]⟩) := by decide +kernel
  rcases called : painter.prepare paintLine with ⟨ready, verdict⟩
  rw [called] at call
  obtain rfl := Verdict.call?_eq_some call
  have last : painted.requiredCount ≤ repainted.requiredCount := by decide
  obtain ⟨records, -, called'⟩ :=
    (registering_keeps_calls painter repainted).1 _ _ _ _ called (.inr last)
  exact ⟨ready, _, _, rfl, by decide +kernel, by decide +kernel, called', rfl⟩

end Shell

end LineConsole
