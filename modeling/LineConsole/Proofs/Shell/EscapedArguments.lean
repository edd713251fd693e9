import LineConsole.Proofs.ArgumentText.Escaping
import LineConsole.Proofs.Shell.QuotedArguments

/-! # Commands with escaped arguments

A command all of whose parameters are required strings can be given texts without quotes, if no other
command has its name: escaped and separated by single blanks, texts that are not empty reach its
handler as they are, whether variables have a meaning or not. The one exception is a blank at the end
of the last text. It stands at the end of the line, where it is taken for a blank that does not count,
and its backslash reaches the handler instead.
-/

namespace LineConsole.Shell

open ArgumentText (escapeAll inBare inBareText)

variable {H : Type}

/-- The line of a name and escaped strings. -/
def escapedLine (name : String) (strings : List String) : String :=
  String.ofList (name.toList ++ escapeAll inBareText (strings.map String.toList))

/-- What of a string arrives that is escaped at the end of a line. -/
def atLineEnd (s : String) : String := String.ofList (ArgumentText.atLineEnd s.toList)

theorem atLineEnd_eq_self_iff {s : String} :
    atLineEnd s = s ↔ ∀ c ∈ s.toList.getLast?, Text.isBlank c = false := by
  rw [atLineEnd, ← ArgumentText.atLineEnd_eq_self_iff, ← String.toList_inj, String.toList_ofList]

section Escaped

variable {draft : CommandDraft (Handler H)} {command : Command (Handler H)} {front : List String}
  {last : String}

/-- What trimming leaves of the escaped texts. -/
def leftOfTexts (front : List String) (last : String) : List Char :=
  escapeAll inBareText (front.map String.toList ++ [ArgumentText.stem last.toList]) ++
    ArgumentText.lone (ArgumentText.endsBlank last.toList)

theorem trim_escapedLine (built : draft.build = .ok command) (front : List String)
    (some : last ≠ "") :
    Text.trim (escapedLine command.name (front ++ [last])).toList =
      command.name.toList ++ leftOfTexts front last := by
  have blanks (c : Char) (blank : Text.isBlank c = true) : inBareText c = true := by
    simp [inBareText, inBare, ArgumentText.isStop, blank]
  rw [escapedLine, String.toList_ofList, trim_name_append built, List.map_append]
  exact ArgumentText.trimEnd_append_escapeAll blanks _ _ (mt String.toList_eq_nil_iff.mp some)

theorem prepare_escapedLine (sh : Shell H) (built : draft.build = .ok command)
    (typed : command.TakesStrings)
    (alone : sh.registry.commands.filter (sh.registry.sameName ·.name command.name) = [command])
    (count : (front ++ [last]).length = command.parameters.length)
    (some : ∀ s ∈ front ++ [last], s ≠ "") :
    sh.prepare (escapedLine command.name (front ++ [last])) =
      ((sh.addHistory (Text.trimmed (escapedLine command.name (front ++ [last])))).note
        (.tryingCandidate command.usage),
        .call command ⟨command.parameters, (front ++ [atLineEnd last]).map .str⟩) := by
  obtain ⟨inked, given⟩ := List.forall_mem_append.mp some
  have given : last ≠ "" := given last List.mem_cons_self
  have inked : ∀ cs ∈ front.map String.toList, cs ≠ [] := by
    simpa [String.toList_eq_nil_iff] using inked
  have arrives := ArgumentText.atLineEnd_ne_nil (mt String.toList_eq_nil_iff.mp given)
  have covers (c : Char) (special : inBare c = true) : inBareText c = true := by
    simp [inBareText, special]
  -- With variables or without, the texts fall into the same arguments.
  have written : ArgumentText.split (leftOfTexts front last) =
      .ok (front.map String.toList ++ [ArgumentText.atLineEnd last.toList]) :=
    ArgumentText.split_escapeAll covers inked arrives
  have replaced : ArgumentText.split (ArgumentText.expand sh.environment (leftOfTexts front last)) =
      .ok (front.map String.toList ++ [ArgumentText.atLineEnd last.toList]) := by
    rw [leftOfTexts, ArgumentText.expand_escapeAll, ArgumentText.expand_lone]
    exact ArgumentText.split_escapeAll (fun _ => id) inked arrives
  have whole := trim_escapedLine built front given
  obtain ⟨cs, same, first⟩ := ArgumentText.exists_escapeAll covers inked arrives
  rw [leftOfTexts, same] at whole written replaced
  have read := tokens_argumentText replaced written
  have back : (front.map String.toList ++ [ArgumentText.atLineEnd last.toList]).map String.ofList =
      front ++ [atLineEnd last] := by simp [atLineEnd]
  refine prepare_of_only built typed alone ?_ whole first (read.trans (congrArg Except.ok back))
  rw [← count, List.length_append, List.length_append]
  rfl

/-- The handler runs once, on just these strings, but for a blank at the end of the last. -/
theorem executeLine_escapedLine (host : Host H) (depth : Nat) (sh : Shell H)
    (built : draft.build = .ok command) (typed : command.TakesStrings)
    (alone : sh.registry.commands.filter (sh.registry.sameName ·.name command.name) = [command])
    (count : (front ++ [last]).length = command.parameters.length)
    (some : ∀ s ∈ front ++ [last], s ≠ "") :
    sh.executeLine host (depth + 1) (escapedLine command.name (front ++ [last])) =
        ((command.handler.program host
          ⟨command.parameters, (front ++ [atLineEnd last]).map .str⟩).run (runner host depth)
            (((sh.addHistory (Text.trimmed (escapedLine command.name (front ++ [last])))).note
              (.tryingCandidate command.usage)).note
                (.invoking command.name (front ++ [last]).length))).map
          (fun (sh, outcome) => sh.settle command.name outcome) ∧
      (atLineEnd last = last ↔ ∀ c ∈ last.toList.getLast?, Text.isBlank c = false) := by
  refine ⟨?_, atLineEnd_eq_self_iff⟩
  rw [executeLine_of_call (prepare_escapedLine sh built typed alone count some)]
  simp only [invoke, List.length_map, List.length_append, List.length_singleton]

end Escaped

/-- Two texts that hold much that means something else in other places. -/
theorem executeLine_say_escaped :
    sayer.executeLine speaker 1 (escapedLine say.name ["\"a\t", "#\\ $b'"]) =
      some (((((sayer.addHistory (escapedLine say.name ["\"a\t", "#\\ $b'"])).note
        (.tryingCandidate say.usage)).note (.invoking say.name 2)).writeLine
          "\"a\t#\\ $b'" .plain), .ok ()) := by
  have built : CommandDraft.build ⟨"say", say.parameters, "", some say.handler⟩ = .ok say := rfl
  have typed : say.TakesStrings := by decide
  have alone :
      sayer.registry.commands.filter (sayer.registry.sameName ·.name say.name) = [say] := by
    decide +kernel
  have some : ∀ s ∈ ["\"a\t"] ++ ["#\\ $b'"], s ≠ "" := by decide
  exact (executeLine_escapedLine speaker 0 sayer built typed alone rfl some).1.trans rfl

/-- An escaped blank at the end of the line does not arrive, and its backslash does. -/
theorem prepare_say_escaped_blank :
    (∀ s ∈ ["b", "a "], s ≠ "") ∧ say.TakesStrings ∧
      sayer.registry.commands.filter (sayer.registry.sameName ·.name say.name) = [say] ∧
      (sayer.prepare (escapedLine say.name ["b", "a "])).2 =
        .call say ⟨say.parameters, ["b", "a\\"].map .str⟩ ∧
      ["b", "a\\"].map Value.str ≠ ["b", "a "].map Value.str := by
  have built : CommandDraft.build ⟨"say", say.parameters, "", some say.handler⟩ = .ok say := rfl
  have typed : say.TakesStrings := by decide
  have alone :
      sayer.registry.commands.filter (sayer.registry.sameName ·.name say.name) = [say] := by
    decide +kernel
  have some : ∀ s ∈ ["b"] ++ ["a "], s ≠ "" := by decide
  have prepared := prepare_escapedLine sayer built typed alone rfl some
  exact ⟨some, typed, alone, congrArg Prod.snd prepared, by decide⟩

end LineConsole.Shell
