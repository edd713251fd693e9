import LineConsole.Proofs.ArgumentText.Plain
import LineConsole.Proofs.Shell.Builtins
import LineConsole.Proofs.Shell.QuotedArguments

/-! # Lines of a built-in command and a plain word

A word of plain characters is one argument, whether variables have a meaning or not. Where there are no
other commands, the name of a built-in command in front of it calls that command, if the word can be
bound.
-/

namespace LineConsole

/-- A word of characters that stand for themselves. -/
structure PlainWord (word : String) : Prop where
  ne_nil : word.toList ≠ []
  all_plain : word.toList.all ArgumentText.isPlain = true

namespace PlainWord

variable {H : Type} {word : String}

theorem plain (plainWord : PlainWord word) : ∀ c ∈ word.toList, ArgumentText.isPlain c = true :=
  List.all_eq_true.mp plainWord.all_plain

theorem inked (plainWord : PlainWord word) : ∀ c ∈ word.toList, Text.isBlank c = false :=
  fun c there => ArgumentText.isBlank_of_isPlain (plainWord.plain c there)

theorem argumentText_eq (plainWord : PlainWord word) (sh : Shell H) :
    sh.argumentText word.toList = word := by
  have dollar : '$' ∉ word.toList := fun there => absurd (plainWord.plain _ there) (by decide)
  unfold Shell.argumentText
  rw [ArgumentText.expand_of_not_mem dollar, ite_self, String.ofList_toList]

theorem tokens_eq (plainWord : PlainWord word) : ArgumentText.tokens word = .ok [word] := by
  rw [ArgumentText.tokens, ArgumentText.split_of_plain plainWord.ne_nil plainWord.plain]
  simp [Except.map]

end PlainWord

theorem Builtin.plainWord_name (b : Builtin) : PlainWord b.name := by
  cases b <;> exact ⟨by decide, by decide⟩

namespace Shell

variable {H : Type} {sh : Shell H} {word : String} {arguments : Arguments}

/-- A built-in command and a word. -/
def plainLine (b : Builtin) (word : String) : String := b.name ++ " " ++ word

theorem toList_plainLine (b : Builtin) (word : String) :
    (plainLine b word).toList = b.name.toList ++ ' ' :: word.toList := by
  rw [plainLine, String.toList_append, String.toList_append, List.append_assoc]
  rfl

theorem trim_plainLine (b : Builtin) (plainWord : PlainWord word) :
    Text.trim (plainLine b word).toList = (plainLine b word).toList := by
  rw [toList_plainLine]
  refine Text.trim_of_inked (fun c first => ?_) (fun c last => ?_)
  · rw [List.head?_append_of_ne_nil _ b.plainWord_name.ne_nil] at first
    exact b.plainWord_name.inked c (List.mem_of_mem_head? first)
  · rw [List.getLast?_append_of_ne_nil _ (List.cons_ne_nil _ _),
      List.getLast?_cons_of_ne_nil plainWord.ne_nil] at last
    exact plainWord.inked c (List.mem_of_mem_getLast? last)

/-- What the word is bound to reaches the command. -/
theorem prepare_plainLine (builtins : sh.OnlyBuiltins) (b : Builtin) (plainWord : PlainWord word)
    (takes : (b.command : Command (Handler H)).accepts 1 = true)
    (bound : (b.command : Command (Handler H)).bind sh.converters [word] word = .ok arguments) :
    sh.prepare (plainLine b word) =
      ((sh.addHistory (Text.trimmed (plainLine b word))).note
        (.tryingCandidate (b.command : Command (Handler H)).usage), .call b.command arguments) := by
  have named : splitCommand (Text.trim (plainLine b word).toList) = (b.name.toList, word.toList) :=
    splitCommand_of_trim b.plainWord_name.inked (by decide)
      (fun c first => plainWord.inked c (List.mem_of_mem_head? first))
      ((trim_plainLine b plainWord).trans (toList_plainLine b word))
  obtain ⟨c, name, same⟩ := List.exists_cons_of_ne_nil b.plainWord_name.ne_nil
  have dollar : c ≠ '$' := by
    rintro rfl
    exact absurd (b.plainWord_name.plain _ (same ▸ List.mem_cons_self)) (by decide)
  have entered : (sh.addHistory (Text.trimmed (plainLine b word))).OnlyBuiltins := builtins
  rw [same] at named
  rw [prepare_of_named named dollar, ← same, String.ofList_toList, plainWord.argumentText_eq]
  exact resolve_of_only plainWord.tokens_eq (entered.candidates b) takes bound

end Shell

end LineConsole
