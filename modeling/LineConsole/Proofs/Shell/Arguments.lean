import LineConsole.Proofs.Shell.Calls
import LineConsole.Proofs.Shell.LineFaults
import LineConsole.Proofs.Value.Conversion

/-! # What handlers are handed

A handler gets one value for each parameter of its command. A parameter with a token has the value of
that token at its type; the parameters behind the last token are optional and hold nothing. Two facts
meet here: a command that was built has its required parameters in front, and no command is called
with fewer tokens than it requires.
-/

namespace LineConsole

variable {H : Type}

/-! ## Required parameters come first -/

/-- By induction on the parameters: behind the first optional one there is no required one, and those
in front of it are counted. -/
theorem isOptional_of_requiredCount_le {parameters : List Parameter} {i : Nat} {p : Parameter}
    (orderly : misplaced? parameters = none) (behind : parameters.countP (!·.isOptional) ≤ i)
    (there : parameters[i]? = some p) : p.isOptional = true := by
  induction parameters generalizing i with
  | nil => cases there
  | cons first rest ih =>
    cases optional : first.isOptional with
    | true =>
      have none : (first :: rest).find? (!·.isOptional) = none := by
        rwa [misplaced?, List.dropWhile_cons_of_neg (by simp [optional])] at orderly
      have every := List.find?_eq_none.mp none p (List.mem_of_getElem? there)
      simpa using every
    | false =>
      rw [misplaced?, List.dropWhile_cons_of_pos (by simp [optional])] at orderly
      rw [List.countP_cons_of_pos (by simp [optional])] at behind
      obtain ⟨i, rfl⟩ := Nat.exists_eq_succ_of_ne_zero (Nat.ne_zero_of_lt behind)
      exact ih orderly (Nat.le_of_succ_le_succ behind) there

/-- A command that was built has no required parameter behind an optional one. -/
theorem CommandDraft.misplaced?_of_build {draft : CommandDraft H} {command : Command H}
    (built : draft.build = .ok command) : misplaced? command.parameters = none := by
  simp only [build] at built
  split at built
  · cases built
  · split at built
    · cases built
    · split at built
      · cases built
      · cases built
      · cases built
        assumption

/-! ## Binding -/

/-- What a parameter holds: the value of its token, or nothing without one. A single string may hold
more of the text. -/
inductive Parameter.Holds (p : Parameter) (table : Converters) (single : Bool) :
    Option String → Value → Prop where
  | token {raw : String} {value : Value} (converted : table.value? raw p.type = some value) :
      Holds p table single (some raw) value
  | text {raw : String} (text : String) (alone : single = true) (string : p.type = .string) :
      Holds p table single (some raw) (.str text)
  | missing : Holds p table single none .notSupplied

section Binding

variable {table : Converters} {parameters : List Parameter} {tokens : List String}
  {values : List Value} {p : Parameter} {i : Nat} {single : Bool}

theorem exists_of_convertArguments_cons {raw : String}
    (converted : convertArguments table (p :: parameters) (raw :: tokens) = .ok values) :
    ∃ value others, table.value? raw p.type = some value ∧
      convertArguments table parameters tokens = .ok others ∧ values = value :: others := by
  rw [convertArguments_cons, Converters.convert] at converted
  cases first : table.value? raw p.type with
  | none =>
    rw [first] at converted
    cases converted
  | some value =>
    rw [first] at converted
    cases rest : convertArguments table parameters tokens with
    | error fault =>
      rw [rest] at converted
      cases converted
    | ok others =>
      rw [rest] at converted
      cases converted
      exact ⟨value, others, rfl, rfl, rfl⟩

/-- By induction on the parameters, with the tokens along. -/
theorem length_of_convertArguments
    (converted : convertArguments table parameters tokens = .ok values) :
    values.length = parameters.length := by
  induction parameters generalizing tokens values with
  | nil =>
    cases converted
    rfl
  | cons first rest ih =>
    cases tokens with
    | nil =>
      cases converted
      exact List.length_map _
    | cons raw raws =>
      obtain ⟨value, others, -, later, rfl⟩ := exists_of_convertArguments_cons converted
      exact congrArg Nat.succ (ih later)

theorem exists_holds_of_convertArguments
    (converted : convertArguments table parameters tokens = .ok values)
    (there : parameters[i]? = some p) :
    ∃ value, values[i]? = some value ∧ p.Holds table single tokens[i]? value := by
  induction parameters generalizing tokens values i with
  | nil => cases there
  | cons first rest ih =>
    cases tokens with
    | nil =>
      cases converted
      refine ⟨.notSupplied, ?_, .missing⟩
      rw [List.getElem?_map, there, Option.map_some]
    | cons raw raws =>
      obtain ⟨value, others, given, later, rfl⟩ := exists_of_convertArguments_cons converted
      cases i with
      | zero =>
        obtain rfl := Option.some.inj there
        exact ⟨value, rfl, .token given⟩
      | succ i =>
        rw [List.getElem?_cons_succ] at there
        simpa only [List.getElem?_cons_succ] using ih later there

end Binding

namespace Command

variable {c : Command H} {table : Converters} {tokens : List String} {text : String}
  {arguments : Arguments} {i : Nat} {p : Parameter}

theorem parameters_of_bind (bound : c.bind table tokens text = .ok arguments) :
    arguments.parameters = c.parameters ∧ arguments.values.length = c.parameters.length := by
  unfold bind at bound
  split at bound
  · rename_i single
    obtain ⟨p, one, -⟩ := exists_of_isSingleString single
    cases bound
    exact ⟨rfl, by rw [one]; rfl⟩
  · cases converted : convertArguments table c.parameters tokens with
    | error fault =>
      rw [converted] at bound
      cases bound
    | ok values =>
      rw [converted] at bound
      cases bound
      exact ⟨rfl, length_of_convertArguments converted⟩

theorem exists_holds_of_bind (bound : c.bind table tokens text = .ok arguments)
    (there : c.parameters[i]? = some p) :
    ∃ value, arguments.values[i]? = some value ∧ p.Holds table c.isSingleString tokens[i]? value := by
  unfold bind at bound
  split at bound
  · rename_i single
    obtain ⟨only, one, string⟩ := exists_of_isSingleString single
    rw [one] at there
    obtain ⟨rfl, rfl⟩ : i = 0 ∧ only = p := by
      cases i with
      | zero => exact ⟨rfl, Option.some.inj there⟩
      | succ i => cases there
    cases bound
    refine ⟨_, rfl, ?_⟩
    match tokens with
    | [] => exact .missing
    | [raw] => exact .text raw single string
    | _ :: _ :: _ => exact .text text single string
  · cases converted : convertArguments table c.parameters tokens with
    | error fault =>
      rw [converted] at bound
      cases bound
    | ok values =>
      rw [converted] at bound
      cases bound
      exact exists_holds_of_convertArguments converted there

/-- Behind the tokens that a command takes it has no required parameter. -/
theorem isOptional_of_length_le (orderly : misplaced? c.parameters = none)
    (accepts : c.accepts tokens.length = true)
    (there : c.parameters[i]? = some p) (behind : tokens.length ≤ i) : p.isOptional = true := by
  simp only [Command.accepts, Bool.and_eq_true, decide_eq_true_eq] at accepts
  exact isOptional_of_requiredCount_le orderly (Nat.le_trans accepts.1 behind) there

end Command

/-- The arguments of a command for a line with these tokens are typed and complete. -/
structure Arguments.Complete (arguments : Arguments) (c : Command H) (table : Converters)
    (tokens : List String) : Prop where
  parameters_eq : arguments.parameters = c.parameters
  length_eq : arguments.values.length = c.parameters.length
  /-- In order: unless a single string takes the whole text, each token is the one converted for the
  parameter in its place. -/
  inOrder : ∀ {i : Nat} {p : Parameter} {raw : String}, c.isSingleString = false →
    c.parameters[i]? = some p → tokens[i]? = some raw →
    ∃ value, table.value? raw p.type = some value ∧ arguments.values[i]? = some value
  /-- Where a type is built in, a required parameter has a value. -/
  required : ∀ {i : Nat} {p : Parameter}, c.parameters[i]? = some p → p.isOptional = false →
    p.type.IsBuiltin → ∃ value, arguments.values[i]? = some value ∧ value.isSupplied = true
  /-- Where a type is built in, a value is of this type. -/
  typed : ∀ {i : Nat} {p : Parameter} {value : Value}, c.parameters[i]? = some p →
    p.type.IsBuiltin → arguments.values[i]? = some value → value.isSupplied = true →
    value.OfType p.type
  /-- Where a type is of the host, the value of a token is what the converter makes of it. -/
  custom : ∀ {i : Nat} {p : Parameter} {raw name : String}, c.parameters[i]? = some p →
    p.type = .custom name → tokens[i]? = some raw →
    ∃ converter value, table.find? name = some converter ∧
      converter.convert raw = some value ∧ arguments.values[i]? = some value
  /-- Behind the tokens there are optional parameters alone, and they hold nothing. -/
  missing : ∀ {i : Nat} {p : Parameter}, c.parameters[i]? = some p → tokens.length ≤ i →
    p.isOptional = true ∧ arguments.values[i]? = some .notSupplied

namespace Command

variable {c : Command H} {table : Converters} {tokens : List String} {text : String}
  {arguments : Arguments}

/-- What binds the tokens that a command takes is complete. -/
theorem complete_of_bind (orderly : misplaced? c.parameters = none)
    (accepts : c.accepts tokens.length = true) (bound : c.bind table tokens text = .ok arguments) :
    arguments.Complete c table tokens where
  parameters_eq := (parameters_of_bind bound).1
  length_eq := (parameters_of_bind bound).2
  inOrder {i p raw} several there given := by
    obtain ⟨value, held, holds⟩ := exists_holds_of_bind bound there
    rw [given, several] at holds
    cases holds with
    | token converted => exact ⟨value, converted, held⟩
    | text text alone string => cases alone
  required {i p} there required builtin := by
    obtain ⟨value, held, holds⟩ := exists_holds_of_bind bound there
    refine ⟨value, held, ?_⟩
    generalize token : tokens[i]? = given at holds
    cases holds with
    | token converted => exact (Converters.ofType_of_value? builtin converted).isSupplied
    | text text alone string => rfl
    | missing =>
      have behind := List.getElem?_eq_none_iff.mp token
      rw [isOptional_of_length_le orderly accepts there behind] at required
      cases required
  typed {i p value} there builtin held supplied := by
    obtain ⟨value', held', holds⟩ := exists_holds_of_bind bound there
    obtain rfl : value' = value := Option.some.inj (held'.symm.trans held)
    generalize tokens[i]? = given at holds
    cases holds with
    | token converted => exact Converters.ofType_of_value? builtin converted
    | text text alone string =>
      rw [string]
      exact .str text
    | missing => cases supplied
  custom {i p raw name} there type given := by
    obtain ⟨value, held, holds⟩ := exists_holds_of_bind bound there
    rw [given] at holds
    cases holds with
    | token converted =>
      rw [type, Converters.value?, Option.bind_eq_some_iff] at converted
      obtain ⟨converter, found, converted⟩ := converted
      exact ⟨converter, value, found, converted, held⟩
    | text text alone string =>
      rw [type] at string
      cases string
  missing {i p} there behind := by
    obtain ⟨value, held, holds⟩ := exists_holds_of_bind bound there
    rw [List.getElem?_eq_none_iff.mpr behind] at holds
    cases holds
    exact ⟨isOptional_of_length_le orderly accepts there behind, held⟩

end Command

/-- The call that a verdict is, if it is one. -/
def Verdict.call? : Verdict H → Option (Command (Handler H) × Arguments)
  | .call command arguments => some (command, arguments)
  | .settled _ => none

theorem Verdict.call?_eq_some {verdict : Verdict H} {command : Command (Handler H)}
    {arguments : Arguments} (call : verdict.call? = some (command, arguments)) :
    verdict = .call command arguments := by
  cases verdict with
  | call command' arguments' =>
    cases call
    rfl
  | settled result => cases call

namespace Shell

/-- Whatever a line calls a command with, the arguments of the call are typed and complete for the
tokens of the line, if the command was built. -/
theorem arguments_complete {sh ready : Shell H} {draft : CommandDraft (Handler H)}
    {command : Command (Handler H)} {arguments : Arguments} {line : String}
    (built : draft.build = .ok command)
    (called : sh.prepare line = (ready, .call command arguments)) :
    (∀ host depth, sh.executeLine host (depth + 1) line =
      ready.invoke host (runner host depth) command arguments) ∧
    ∃ tokens,
      ArgumentText.tokens (sh.argumentText (splitCommand (Text.trim line.toList)).2) = .ok tokens ∧
      arguments.Complete command sh.converters tokens := by
  constructor
  · intro host depth
    rw [executeLine, runner]
    simp only [executeLineWith, called]
  · obtain ⟨tokens, tokenized, accepts, bound⟩ := (called_of_prepare called).bound
    exact ⟨tokens, tokenized,
      Command.complete_of_bind (CommandDraft.misplaced?_of_build built) accepts bound⟩

/-- The colours that the host knows. -/
def colors : Converter :=
  ⟨"color", fun raw => if raw = "red" then some (.custom "color" raw) else none⟩

def paint : CommandDraft (Handler Unit) where
  name := "paint"
  parameters := [⟨"color", .custom "color", false⟩, ⟨"coats", .int, false⟩,
    ⟨"label", .string, true⟩, ⟨"gloss", .float, true⟩]
  description := ""
  handler := some (.host ())

def painted : Command (Handler Unit) := ⟨paint.name, paint.parameters, "", .host ()⟩

def painter : Shell Unit :=
  (ShellSetup.shell { converters := [colors], builtins := true, commands := [painted] }).setVariable
    "coats" "3"

def paintLine : String := "paint red $coats 'first floor'"

theorem arguments_complete_paint : paint.build = .ok painted ∧ ∃ ready arguments,
    painter.prepare paintLine = (ready, .call painted arguments) ∧
    arguments.values = [.custom "color" "red", .int 3, .str "first floor", .notSupplied] ∧
    ∃ tokens, arguments.Complete painted painter.converters tokens := by
  have built : paint.build = .ok painted := rfl
  have call : (painter.prepare paintLine).2.call? = some (painted, ⟨painted.parameters,
      [.custom "color" "red", .int 3, .str "first floor", .notSupplied]⟩) := by decide +kernel
  rcases called : painter.prepare paintLine with ⟨ready, verdict⟩
  rw [called] at call
  obtain rfl := Verdict.call?_eq_some call
  obtain ⟨-, tokens, -, complete⟩ := arguments_complete built called
  exact ⟨built, ready, _, rfl, rfl, tokens, complete⟩

end Shell

end LineConsole
