import LineConsole.Proofs.ArgumentText.Quoting
import LineConsole.Shell.Execution

/-! # Commands with quoted arguments

A command all of whose parameters are required strings can be given any texts: quoted and separated
by single blanks they reach its handler as they are, whether variables have a meaning or not, if no
other command has its name.
-/

namespace LineConsole

/-- A command that was built has a name without blanks that is not taken for a variable. -/
theorem CommandDraft.name_of_build {H : Type} {draft : CommandDraft H} {command : Command H}
    (built : draft.build = .ok command) : command.name.toList ≠ [] ∧
      (∀ c ∈ command.name.toList, Text.isBlank c = false) ∧
      command.name.toList.head? ≠ some '$' := by
  simp only [build] at built
  by_cases untypeable : (draft.name.isEmpty || draft.name.toList.any Text.isBlank) = true
  · rw [if_pos untypeable] at built
    cases built
  · by_cases dollar : draft.name.toList.head? = some '$'
    · rw [if_neg untypeable, if_pos dollar] at built
      cases built
    · rw [if_neg untypeable, if_neg dollar] at built
      have name : command.name = draft.name := by
        split at built <;> cases built
        rfl
      simp only [Bool.or_eq_true, not_or, List.any_eq_true, not_exists, not_and,
        Bool.not_eq_true] at untypeable
      rw [name]
      refine ⟨fun none => ?_, untypeable.2, dollar⟩
      rw [String.toList_eq_nil_iff.mp none] at untypeable
      exact absurd untypeable.1 (by decide)

/-- All parameters are required strings. -/
def Command.TakesStrings {H : Type} (c : Command H) : Prop :=
  ∀ p ∈ c.parameters, p.type = .string ∧ p.isOptional = false

instance {H : Type} (c : Command H) : Decidable c.TakesStrings :=
  inferInstanceAs (Decidable (∀ p ∈ c.parameters, p.type = .string ∧ p.isOptional = false))

section Binding

variable {H : Type} {command : Command H} {table : Converters} {strings : List String}

private theorem convertArguments_strings {parameters : List Parameter}
    (typed : ∀ p ∈ parameters, p.type = .string ∧ p.isOptional = false)
    (count : strings.length = parameters.length) :
    convertArguments table parameters strings = .ok (strings.map .str) := by
  induction parameters generalizing strings with
  | nil =>
    obtain rfl := List.eq_nil_of_length_eq_zero count
    rfl
  | cons p parameters ih =>
    obtain ⟨first, others⟩ := List.forall_mem_cons.mp typed
    cases strings with
    | nil => cases count
    | cons raw strings =>
      have rest := ih others (Nat.succ.inj count)
      rw [convertArguments, Converters.convert, first.1]
      simp only [Converters.value?, rest]
      rfl

/-- Required strings are bound as they are, one alone as much as several. -/
theorem Command.bind_strings (typed : command.TakesStrings)
    (count : strings.length = command.parameters.length) (text : String) :
    command.bind table strings text = .ok ⟨command.parameters, strings.map .str⟩ := by
  unfold bind
  split
  · rename_i single
    obtain ⟨p, one, -⟩ := exists_of_isSingleString single
    obtain ⟨only, rfl⟩ := List.length_eq_one_iff.mp (count.trans (congrArg List.length one))
    rfl
  · rw [convertArguments_strings typed count]
    rfl

/-- A command takes as many arguments as it has parameters. -/
theorem Command.accepts_totalCount : command.accepts command.totalCount = true := by
  have required : command.requiredCount ≤ command.totalCount := List.countP_le_length
  simp [accepts, required]

end Binding

namespace Shell

open ArgumentText (quoteAll inText)

variable {H : Type}

/-- A command that no other has the name of is called if it can be. -/
theorem resolve_of_only {sh : Shell H} {command : Command (Handler H)} {name text : String}
    {tokens : List String} {arguments : Arguments} (split : ArgumentText.tokens text = .ok tokens)
    (only : sh.registry.candidates name = [command])
    (accepted : command.accepts tokens.length = true)
    (bound : command.bind sh.converters tokens text = .ok arguments) :
    sh.resolve name text = (sh.note (.tryingCandidate command.usage), .call command arguments) := by
  have attempts : Attempt.all sh.converters tokens text [command] = [⟨command, .ok arguments⟩] := by
    simp only [Attempt.all, bound]
    rfl
  simp only [resolve, split, only, List.isEmpty_cons, Bool.false_eq_true, if_false, List.any_cons,
    accepted, Bool.true_or, if_true, choose, List.filter_cons, List.filter_nil, attempts]
  rfl

/-! ## Lines of a name and strings -/

/-- A text falls into arguments as if a blank stood in front of it. -/
theorem tokens_argumentText {sh : Shell H} {cs : List Char} {pieces : List (List Char)}
    (replaced : ArgumentText.split (ArgumentText.expand sh.environment (' ' :: cs)) = .ok pieces)
    (kept : ArgumentText.split (' ' :: cs) = .ok pieces) :
    ArgumentText.tokens (sh.argumentText cs) = .ok (pieces.map String.ofList) := by
  have read : ArgumentText.split (sh.argumentText cs).toList = .ok pieces := by
    rw [argumentText]
    split
    · rw [String.toList_ofList, ← replaced, ArgumentText.expand_cons (by decide) (by decide),
        ArgumentText.split_blank_cons]
    · rw [String.toList_ofList, ← kept, ArgumentText.split_blank_cons]
  rw [ArgumentText.tokens, read]
  rfl

section Alone

variable {sh : Shell H} {draft : CommandDraft (Handler H)} {command : Command (Handler H)}
  {strings : List String} {line : String} {cs : List Char}

/-- Strings as many as its parameters reach a command that no other has the name of. -/
theorem prepare_of_only (built : draft.build = .ok command) (typed : command.TakesStrings)
    (alone : sh.registry.commands.filter (sh.registry.sameName ·.name command.name) = [command])
    (count : strings.length = command.parameters.length)
    (whole : Text.trim line.toList = command.name.toList ++ ' ' :: cs)
    (first : ∀ c ∈ cs.head?, Text.isBlank c = false)
    (read : ArgumentText.tokens (sh.argumentText cs) = .ok strings) :
    sh.prepare line =
      ((sh.addHistory (Text.trimmed line)).note (.tryingCandidate command.usage),
        .call command ⟨command.parameters, strings.map .str⟩) := by
  obtain ⟨typeable, word, dollar⟩ := CommandDraft.name_of_build built
  obtain ⟨c, name, same⟩ := List.exists_cons_of_ne_nil typeable
  have named := splitCommand_of_trim word (by decide) first whole
  have plain : c ≠ '$' := by
    rintro rfl
    exact dollar (congrArg List.head? same)
  have only : sh.registry.candidates command.name = [command] := by
    rw [Registry.candidates, alone, List.mergeSort_singleton]
  have takes : command.accepts strings.length = true := by
    rw [count]
    exact Command.accepts_totalCount
  rw [same] at named
  rw [prepare_of_named named plain, ← same, String.ofList_toList]
  exact resolve_of_only read only takes (Command.bind_strings typed count _)

/-- A name has no blank in front. -/
theorem trim_name_append (built : draft.build = .ok command) (cs : List Char) :
    Text.trim (command.name.toList ++ cs) = Text.trimEnd (command.name.toList ++ cs) := by
  obtain ⟨typeable, word, -⟩ := CommandDraft.name_of_build built
  obtain ⟨c, name, same⟩ := List.exists_cons_of_ne_nil typeable
  have inked : ¬ Text.isBlank c = true := by
    rw [word c (same ▸ List.mem_cons_self)]
    exact Bool.false_ne_true
  rw [Text.trim, Text.trimStart, same, List.cons_append, List.dropWhile_cons_of_neg inked]

end Alone

/-! ## Quoted strings -/

/-- The line of a name and quoted strings. -/
def quotedLine (name : String) (strings : List String) : String :=
  String.ofList (name.toList ++ quoteAll inText (strings.map String.toList))

theorem prepare_quotedLine (sh : Shell H) {draft : CommandDraft (Handler H)}
    {command : Command (Handler H)} {strings : List String} (built : draft.build = .ok command)
    (typed : command.TakesStrings) (some : command.parameters ≠ [])
    (alone : sh.registry.commands.filter (sh.registry.sameName ·.name command.name) = [command])
    (count : strings.length = command.parameters.length) :
    sh.prepare (quotedLine command.name strings) =
      (((sh.addHistory (quotedLine command.name strings)).note (.tryingCandidate command.usage)),
        .call command ⟨command.parameters, strings.map .str⟩) := by
  have texts : strings.map String.toList ≠ [] := by
    rintro none
    obtain rfl := List.map_eq_nil_iff.mp none
    exact some (List.eq_nil_of_length_eq_zero count.symm)
  have whole : Text.trim (quotedLine command.name strings).toList =
      command.name.toList ++ quoteAll inText (strings.map String.toList) := by
    rw [quotedLine, String.toList_ofList, trim_name_append built]
    exact ArgumentText.trimEnd_append_quoteAll inText texts _
  have entry : Text.trimmed (quotedLine command.name strings) = quotedLine command.name strings :=
    congrArg String.ofList whole
  have kept : ArgumentText.split (quoteAll inText (strings.map String.toList)) =
      .ok (strings.map String.toList) := ArgumentText.split_quoteAll rfl rfl _
  have replaced : ArgumentText.split (ArgumentText.expand sh.environment
      (quoteAll inText (strings.map String.toList))) = .ok (strings.map String.toList) := by
    rw [ArgumentText.expand_quoteAll]
    exact ArgumentText.split_quoteAll rfl rfl _
  obtain ⟨inner, same⟩ := ArgumentText.exists_quoteAll inText texts
  rw [same] at whole kept replaced
  have read := tokens_argumentText replaced kept
  have back : (strings.map String.toList).map String.ofList = strings := by simp
  rw [back] at read
  have first : ∀ c ∈ ('"' :: (inner ++ ['"'])).head?, Text.isBlank c = false := by
    rintro c ⟨⟩
    decide
  have prepared := prepare_of_only built typed alone count whole first read
  rw [entry] at prepared
  exact prepared

/-- The handler runs once, on just these strings. -/
theorem executeLine_quotedLine (host : Host H) (depth : Nat) (sh : Shell H)
    {draft : CommandDraft (Handler H)} {command : Command (Handler H)} {strings : List String}
    (built : draft.build = .ok command)
    (typed : command.TakesStrings) (some : command.parameters ≠ [])
    (alone : sh.registry.commands.filter (sh.registry.sameName ·.name command.name) = [command])
    (count : strings.length = command.parameters.length) :
    sh.executeLine host (depth + 1) (quotedLine command.name strings) =
      ((command.handler.program host ⟨command.parameters, strings.map .str⟩).run (runner host depth)
        (((sh.addHistory (quotedLine command.name strings)).note
          (.tryingCandidate command.usage)).note (.invoking command.name strings.length))).map
        fun (sh, outcome) => sh.settle command.name outcome := by
  rw [executeLine, runner]
  simp only [executeLineWith]
  rw [prepare_quotedLine sh built typed some alone count]
  simp only [invoke, List.length_map]

/-- A command of two strings. -/
def say : Command (Handler Unit) :=
  ⟨"say", [⟨"whom", .string, false⟩, ⟨"what", .string, false⟩], "", .host ()⟩

/-- The one host writes what it is given. -/
def speaker : Host Unit := fun _ arguments =>
  .update (fun sh => sh.writeLine (String.join (arguments.values.map Value.text)) .plain)
    (.finish .done)

/-- A shell with nothing but that command. -/
def sayer : Shell Unit := ({ commands := [say] } : ShellSetup Unit).shell

/-- An empty text, and one with all that means something else in other places. -/
def awkward : List String := ["", "a \"b\" $c \\ # 'd'\n"]

theorem executeLine_say_awkward : sayer.executeLine speaker 1 (quotedLine say.name awkward) =
    some (((((sayer.addHistory (quotedLine say.name awkward)).note
      (.tryingCandidate say.usage)).note (.invoking say.name 2)).writeLine
        "a \"b\" $c \\ # 'd'\n" .plain), .ok ()) := by
  have built : CommandDraft.build ⟨"say", say.parameters, "", some say.handler⟩ = .ok say := rfl
  have typed : say.TakesStrings := by decide
  have alone :
      sayer.registry.commands.filter (sayer.registry.sameName ·.name say.name) = [say] := by
    decide +kernel
  rw [executeLine_quotedLine speaker 0 sayer built typed (List.cons_ne_nil _ _) alone rfl]
  rfl

end Shell

end LineConsole
