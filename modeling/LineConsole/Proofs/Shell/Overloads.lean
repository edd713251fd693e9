import LineConsole.Proofs.Command.Candidates
import LineConsole.Proofs.Shell.LineFaults

/-! # Which overload runs

A line whose command has several overloads runs the first that takes the count of its arguments and
to whose types they all convert. If none takes the count, the line shows how each is used. If some
do and the arguments convert for none of them, the line fails of the first argument that does not
convert for the first of them.
-/

namespace LineConsole

variable {H : Type}

/-- The first of the given arguments that has no value at its parameter's type. -/
def firstMisfit? (table : Converters) (parameters : List Parameter) (raws : List String) :
    Option (Parameter × String) :=
  (parameters.zip raws).find? fun given => (table.value? given.2 given.1.type).isNone

namespace Command

/-- The first argument that keeps a command from running. A single string takes any text. -/
def misfit? (c : Command H) (table : Converters) (tokens : List String) :
    Option (Parameter × String) :=
  if c.isSingleString then none else firstMisfit? table c.parameters tokens

/-- The command takes the count of arguments, and they all convert. -/
def fits (c : Command H) (table : Converters) (tokens : List String) : Bool :=
  c.accepts tokens.length && (c.misfit? table tokens).isNone

end Command

section Conversion

variable {table : Converters} {tokens : List String} {text : String}

private theorem convertArguments_of_none {parameters : List Parameter} {raws : List String}
    (none : firstMisfit? table parameters raws = .none) :
    ∃ values, convertArguments table parameters raws = .ok values := by
  induction parameters generalizing raws with
  | nil => exact ⟨_, rfl⟩
  | cons p parameters ih =>
    cases raws with
    | nil => exact ⟨_, rfl⟩
    | cons raw raws =>
      rw [firstMisfit?, List.zip_cons_cons, List.find?_cons] at none
      rw [convertArguments_cons, Converters.convert]
      cases value : table.value? raw p.type with
      | none => simp [value] at none
      | some v =>
        simp only [value, Option.isNone_some] at none
        obtain ⟨values, converted⟩ := ih none
        exact ⟨v :: values, by rw [converted]; rfl⟩

/-- By induction on the parameters: what stands before the first misfit converts. -/
private theorem convertArguments_of_some {parameters : List Parameter} {raws : List String}
    {p : Parameter} {raw : String} (some : firstMisfit? table parameters raws = .some (p, raw)) :
    convertArguments table parameters raws = .error (.notConvertible p.name p.type.name raw) := by
  induction parameters generalizing raws with
  | nil => cases some
  | cons first parameters ih =>
    cases raws with
    | nil => cases some
    | cons given raws =>
      rw [firstMisfit?, List.zip_cons_cons, List.find?_cons] at some
      rw [convertArguments_cons, Converters.convert]
      cases value : table.value? given first.type with
      | none =>
        simp only [value, Option.isNone_none] at some
        cases some
        rfl
      | some v =>
        simp only [value, Option.isNone_some] at some
        simp only [ih some]
        rfl

namespace Command

variable {c : Command H}

theorem bind_of_fitting (text : String) (fitting : c.misfit? table tokens = none) :
    ∃ arguments, c.bind table tokens text = .ok arguments := by
  unfold misfit? at fitting
  unfold bind
  split at fitting
  · exact ⟨_, if_pos ‹_›⟩
  · obtain ⟨values, converted⟩ := convertArguments_of_none fitting
    rw [if_neg ‹_›, converted]
    exact ⟨_, rfl⟩

theorem bind_of_misfit (text : String) {p : Parameter} {raw : String}
    (misfit : c.misfit? table tokens = some (p, raw)) :
    c.bind table tokens text = .error (.notConvertible p.name p.type.name raw) := by
  unfold misfit? at misfit
  unfold bind
  split at misfit
  · cases misfit
  · rw [if_neg ‹_›, convertArguments_of_some misfit]
    rfl

end Command

namespace Attempt

/-- By induction on the candidates: each that does not fit is tried in vain. -/
theorem success_of_find (text : String) {commands : List (Command H)} {c : Command H}
    (found : commands.find? (fun c => (c.misfit? table tokens).isNone) = some c) :
    ∃ arguments, c.bind table tokens text = .ok arguments ∧
      (all table tokens text commands).findSome? success? = some (c, arguments) := by
  induction commands with
  | nil => cases found
  | cons first rest ih =>
    rw [List.find?_cons] at found
    cases misfit : first.misfit? table tokens with
    | none =>
      rw [misfit] at found
      obtain rfl : first = c := Option.some.inj found
      obtain ⟨arguments, bound⟩ := Command.bind_of_fitting text misfit
      refine ⟨arguments, bound, ?_⟩
      rw [all, List.findSome?_cons, success?, bound]
    | some unfit =>
      rw [misfit] at found
      obtain ⟨arguments, bound, success⟩ := ih found
      refine ⟨arguments, bound, ?_⟩
      have failed := Command.bind_of_misfit text misfit
      rw [all, failed, List.findSome?_cons]
      exact success

/-- Where none fits, nothing succeeds. -/
theorem no_success {commands : List (Command H)}
    (unfit : ∀ c ∈ commands, (c.misfit? table tokens).isSome) :
    (all table tokens text commands).findSome? success? = none := by
  rw [List.findSome?_eq_none_iff]
  intro attempt tried
  obtain ⟨among, result⟩ := mem_all tried
  obtain ⟨⟨p, raw⟩, misfit⟩ := Option.isSome_iff_exists.mp (unfit _ among)
  rw [success?, result, Command.bind_of_misfit text misfit]

theorem first_fault (text : String) (rest : List (Command H)) {c : Command H} {p : Parameter}
    {raw : String} (misfit : c.misfit? table tokens = some (p, raw)) :
    (all table tokens text (c :: rest)).findSome? fault? =
      some (.notConvertible p.name p.type.name raw) := by
  rw [all, List.findSome?_cons, fault?, Command.bind_of_misfit text misfit]

end Attempt

end Conversion

namespace Shell

variable {sh : Shell H} {tokens : List String} {text : String}

/-- Choosing notes what was tried and does nothing else. -/
theorem choose_notes (sh : Shell H) (candidates : List (Command (Handler H)))
    (tokens : List String) (text : String) :
    ∃ records, (∀ record ∈ records, ¬ record.IsInvocation) ∧
      (sh.choose candidates tokens text).1 = sh.noteAll records := by
  refine ⟨_, fun record noted => ?_, rfl⟩
  obtain ⟨attempt, -, noted⟩ := List.mem_flatMap.mp noted
  exact not_isInvocation_of_mem_records noted

theorem choose_of_fits (sh : Shell H) (text : String) {candidates : List (Command (Handler H))}
    {c : Command (Handler H)}
    (fits : candidates.find? (·.fits sh.converters tokens) = some c) :
    ∃ arguments, c.bind sh.converters tokens text = .ok arguments ∧
      (sh.choose candidates tokens text).2 = .call c arguments := by
  have found : (candidates.filter (·.accepts tokens.length)).find?
      (fun c => (c.misfit? sh.converters tokens).isNone) = some c := by
    simpa only [List.find?_filter, Bool.decide_and, Bool.decide_eq_true, Command.fits] using fits
  obtain ⟨arguments, bound, success⟩ := Attempt.success_of_find text found
  refine ⟨arguments, bound, ?_⟩
  simp only [choose, success]

theorem choose_of_misfits (sh : Shell H) (text : String)
    {candidates : List (Command (Handler H))} {first : Command (Handler H)}
    (accepts : candidates.find? (·.accepts tokens.length) = some first)
    (unfit : candidates.find? (·.fits sh.converters tokens) = none) :
    ∃ p raw, first.misfit? sh.converters tokens = some (p, raw) ∧
      (sh.choose candidates tokens text).2 =
        .settled (.error (.notConvertible p.name p.type.name raw)) := by
  have misfits : ∀ c ∈ candidates, c.accepts tokens.length →
      (c.misfit? sh.converters tokens).isSome := by
    intro c among accepts
    have unfit := List.find?_eq_none.mp unfit c among
    simpa [Command.fits, accepts, Option.isSome_iff_ne_none] using unfit
  obtain ⟨rest, viable⟩ : ∃ rest, candidates.filter (·.accepts tokens.length) = first :: rest := by
    rw [← List.head?_filter] at accepts
    exact List.head?_eq_some_iff.mp accepts
  have known : first ∈ candidates.filter (·.accepts tokens.length) := viable ▸ List.mem_cons_self
  obtain ⟨among, takes⟩ := List.mem_filter.mp known
  obtain ⟨⟨p, raw⟩, misfit⟩ := Option.isSome_iff_exists.mp (misfits first among takes)
  have unsuccessful : (Attempt.all sh.converters tokens text
      (candidates.filter (·.accepts tokens.length))).findSome? Attempt.success? = none := by
    refine Attempt.no_success fun c among => ?_
    obtain ⟨among, accepts⟩ := List.mem_filter.mp among
    exact misfits c among accepts
  have fault := Attempt.first_fault text rest misfit
  rw [← viable] at fault
  refine ⟨p, raw, misfit, ?_⟩
  simp only [choose, unsuccessful, fault]

/-! ## Lines -/

private theorem foldl_usage (sh : Shell H) (candidates : List (Command (Handler H))) :
    candidates.foldl (fun sh c => sh.writeLine c.usage .usage) sh =
      { sh with output := sh.output ++
          candidates.flatMap fun c => [⟨c.usage, .usage⟩, ⟨"\n", .plain⟩] } := by
  induction candidates generalizing sh with
  | nil => rw [List.foldl_nil, List.flatMap_nil, List.append_nil]
  | cons c rest ih =>
    rw [List.foldl_cons, ih]
    simp [writeLine, Transcript.writeLine, Transcript.write]

/-- Where some candidate takes the count of arguments, one of those is chosen. -/
theorem resolve_of_accepts {name : String} {c : Command (Handler H)}
    (tokenized : ArgumentText.tokens text = .ok tokens)
    (known : c ∈ sh.registry.candidates name) (accepts : c.accepts tokens.length) :
    sh.resolve name text = sh.choose (sh.registry.candidates name) tokens text := by
  have some : ¬ (sh.registry.candidates name).isEmpty := by
    rw [List.isEmpty_iff]
    exact List.ne_nil_of_mem known
  have any : (sh.registry.candidates name).any (·.accepts tokens.length) :=
    List.any_eq_true.mpr ⟨c, known, accepts⟩
  simp only [resolve, tokenized, if_neg some, if_pos any]

/-- What a line comes to whose name stands for `candidates` and whose arguments are `tokens`. -/
theorem executeLine_overloads (host : Host H) (depth : Nat) (sh : Shell H) {line : String}
    {c : Char} {word rest : List Char} {tokens : List String}
    {candidates : List (Command (Handler H))}
    (named : splitCommand (Text.trim line.toList) = (c :: word, rest)) (plain : c ≠ '$')
    (tokenized : ArgumentText.tokens (sh.argumentText rest) = .ok tokens)
    (inOrder : sh.registry.InOrder (String.ofList (c :: word)) candidates) :
    let entered := sh.addHistory (Text.trimmed line)
    let execution := sh.executeLine host (depth + 1) line
    (candidates = [] →
      execution = some (entered, .error (.commandNotFound (String.ofList (c :: word))))) ∧
    (candidates ≠ [] → candidates.find? (·.accepts tokens.length) = none →
      execution = some ({ entered with
        output := sh.output ++ candidates.flatMap fun c => [⟨c.usage, .usage⟩, ⟨"\n", .plain⟩]
        log := sh.log ++ [.noOverload (String.ofList (c :: word)) tokens.length] }, .ok ())) ∧
    (∀ command, candidates.find? (·.fits sh.converters tokens) = some command →
      ∃ arguments records,
        command.bind sh.converters tokens (sh.argumentText rest) = .ok arguments ∧
        (∀ record ∈ records, ¬ record.IsInvocation) ∧
        execution = ((command.handler.program host arguments).run (runner host depth)
          ((entered.noteAll records).note (.invoking command.name arguments.values.length))).map
            fun (sh, outcome) => sh.settle command.name outcome) ∧
    ∀ first, candidates.find? (·.accepts tokens.length) = some first →
      candidates.find? (·.fits sh.converters tokens) = none →
      ∃ p raw records, first.misfit? sh.converters tokens = some (p, raw) ∧
        (∀ record ∈ records, ¬ record.IsInvocation) ∧
        execution = some (entered.noteAll records,
          .error (.notConvertible p.name p.type.name raw)) := by
  intro entered execution
  let name := String.ofList (c :: word)
  obtain rfl : candidates = sh.registry.candidates name :=
    inOrder.unique (sh.registry.inOrder_candidates name)
  have prepared : sh.prepare line = entered.resolve name (sh.argumentText rest) :=
    prepare_of_named named plain
  have settles {after : Shell H} {result : Except Fault Unit}
      (resolved : entered.resolve name (sh.argumentText rest) = (after, .settled result)) :
      execution = some (after, result) := by
    simp only [execution, executeLine, runner, executeLineWith, prepared, resolved]
  refine ⟨fun unknown => settles ?_, fun known refused => settles ?_, fun command fits => ?_,
    fun first accepts unfit => ?_⟩
  · have unknown : entered.registry.candidates name = [] := unknown
    simp only [resolve, tokenized, unknown, List.isEmpty_nil, if_true]
    rfl
  · have known : ¬ (entered.registry.candidates name).isEmpty := by
      rw [List.isEmpty_iff]
      exact known
    have none : ¬ (entered.registry.candidates name).any (·.accepts tokens.length) := by
      rw [List.any_eq_true]
      rintro ⟨c, among, accepts⟩
      exact List.find?_eq_none.mp refused c among accepts
    simp only [resolve, tokenized, if_neg known, if_neg none, foldl_usage]
    rfl
  · have takes := (List.find?_eq_some_iff_append.mp fits).1
    have known : command ∈ entered.registry.candidates name := List.mem_of_find?_eq_some fits
    have accepts : command.accepts tokens.length := (Bool.and_eq_true_iff.mp takes).1
    obtain ⟨arguments, bound, verdict⟩ :=
      choose_of_fits entered (sh.argumentText rest) fits
    obtain ⟨records, quiet, notes⟩ := choose_notes entered (entered.registry.candidates name) tokens
      (sh.argumentText rest)
    have resolved : entered.resolve name (sh.argumentText rest) =
        (entered.noteAll records, .call command arguments) :=
      (resolve_of_accepts tokenized known accepts).trans (Prod.ext notes verdict)
    refine ⟨arguments, records, bound, quiet, ?_⟩
    simp only [execution, executeLine, runner, executeLineWith, prepared, resolved, invoke]
  · have known : first ∈ entered.registry.candidates name := List.mem_of_find?_eq_some accepts
    have takes := (List.find?_eq_some_iff_append.mp accepts).1
    obtain ⟨p, raw, misfit, verdict⟩ :=
      choose_of_misfits entered (sh.argumentText rest) accepts unfit
    obtain ⟨records, quiet, notes⟩ := choose_notes entered (entered.registry.candidates name) tokens
      (sh.argumentText rest)
    refine ⟨p, raw, records, misfit, quiet, settles ?_⟩
    exact (resolve_of_accepts tokenized known takes).trans (Prod.ext notes verdict)

/-- Two numbers, registered first. -/
def areaOfSides : Command (Handler Bool) :=
  ⟨"area", [⟨"width", .int, false⟩, ⟨"height", .int, false⟩], "", .host false⟩

/-- As many parameters, but a name comes first. -/
def areaOfShape : Command (Handler Bool) :=
  ⟨"Area", [⟨"shape", .string, false⟩, ⟨"size", .int, false⟩], "", .host true⟩

/-- Fewer parameters, registered last. -/
def areaOfDisc : Command (Handler Bool) := ⟨"area", [⟨"radius", .float, false⟩], "", .host false⟩

def areas : Shell Bool :=
  ({ commands := [areaOfSides, areaOfShape, areaOfDisc] } : ShellSetup Bool).shell

/-- The second host answers. -/
def surveyor : Host Bool := fun answers _ =>
  if answers then .update (·.writeLine "known" .plain) (.finish .done)
  else .finish (.failed "unknown")

theorem executeLine_area :
    ∃ sh, areas.executeLine surveyor 1 " AREA square 3" = some (sh, .ok ()) ∧
      sh.output = [⟨"known", .plain⟩, ⟨"\n", .plain⟩] := by
  have inOrder : areas.registry.InOrder "AREA" [areaOfDisc, areaOfSides, areaOfShape] := by
    have known : (areas.registry.commands.filter fun c => areas.registry.sameName c.name "AREA") =
        [areaOfSides, areaOfShape, areaOfDisc] := by decide +kernel
    refine ⟨by decide, fun count => ?_⟩
    rw [known]
    have two : areaOfSides.requiredCount = 2 ∧ areaOfShape.requiredCount = 2 := by decide
    have one : areaOfDisc.requiredCount = 1 := by decide
    by_cases disc : 1 = count
    · subst disc
      decide
    · simp only [List.filter_cons, one, disc, decide_false, two.1, two.2]
      rfl
  have named : splitCommand (Text.trim " AREA square 3".toList) =
      ("AREA".toList, "square 3".toList) := by decide +kernel
  have tokenized : ArgumentText.tokens (areas.argumentText "square 3".toList) =
      .ok ["square", "3"] := by
    have read : (ArgumentText.tokens (areas.argumentText "square 3".toList)).toOption =
        some ["square", "3"] := by decide +kernel
    revert read
    cases ArgumentText.tokens (areas.argumentText "square 3".toList) with
    | ok tokens => exact fun read => congrArg Except.ok (Option.some.inj read)
    | error fault => exact nofun
  obtain ⟨-, -, runs, -⟩ :=
    executeLine_overloads surveyor 0 areas named (by decide) tokenized inOrder
  have fits : [areaOfDisc, areaOfSides, areaOfShape].find?
      (·.fits areas.converters ["square", "3"]) = some areaOfShape := by decide +kernel
  obtain ⟨arguments, records, -, -, ran⟩ := runs areaOfShape fits
  exact ⟨_, ran, rfl⟩

end Shell

end LineConsole
