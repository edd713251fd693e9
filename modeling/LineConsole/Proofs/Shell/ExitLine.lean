import LineConsole.Proofs.Shell.LineFaults
import LineConsole.Proofs.Shell.PlainLines
import LineConsole.Proofs.Value.Conversion

/-! # Lines that ask to leave

A line asks to leave if it calls the built-in command for that with a code that fits. Where there are
no other commands, `exit` with any code in decimal is such a line. It changes the history and what was
noted, and nothing else.
-/

namespace LineConsole

variable {H : Type}

namespace Shell

variable {sh : Shell H}

/-- The line calls the built-in command that asks to leave, and asks with this code. -/
def AsksToLeave (sh : Shell H) (line : String) (n : Int32) : Prop :=
  ∃ arguments, (sh.prepare line).2 = .call Builtin.exit.command arguments ∧
    (Builtin.exitProgram arguments : Program H) = .finish (.exit n)

/-- `exit` with a code in decimal. -/
def exitLine (n : Int32) : String := "exit " ++ Decimal.intText n.toInt

theorem plainWord_intText (i : Int) : PlainWord (Decimal.intText i) where
  ne_nil := Decimal.intText_ne_nil i
  all_plain := List.all_eq_true.mpr fun c there => by
    rcases Decimal.mem_intText there with rfl | digit
    · decide
    · exact ArgumentText.isPlain_of_isDigit digit

theorem convert_intText (table : Converters) (n : Int32) :
    table.convert (Decimal.intText n.toInt) .int = .ok (.int n.toInt64) := by
  rw [← Int32.toInt_toInt64]
  exact Converters.convert_text_int table n.toInt64

theorem bind_exit (table : Converters) (n : Int32) :
    (Builtin.exit.command : Command (Handler H)).bind table [Decimal.intText n.toInt]
      (Decimal.intText n.toInt) = .ok ⟨Builtin.exit.parameters, [.int n.toInt64]⟩ := by
  have converted : convertArguments table Builtin.exit.parameters [Decimal.intText n.toInt] =
      .ok [.int n.toInt64] := by
    rw [Builtin.parameters, convertArguments_cons, convert_intText]
    rfl
  have several : (Builtin.exit.command : Command (Handler H)).isSingleString = false := rfl
  rw [Command.bind, several, if_neg Bool.false_ne_true, Builtin.command, converted]
  rfl

theorem exitProgram_int (n : Int32) :
    (Builtin.exitProgram ⟨Builtin.exit.parameters, [.int n.toInt64]⟩ : Program H) =
      .finish (.exit n) := by
  have code : (Arguments.int? ⟨Builtin.exit.parameters, [.int n.toInt64]⟩ "code") =
      some n.toInt64 := rfl
  unfold Builtin.exitProgram
  rw [code, Option.getD_some, Int32.toInt_toInt64]
  dsimp only
  rw [Decimal.int32?_toInt]

/-- Where the only commands are those built in, `exit` with a code asks to leave with it. -/
theorem asksToLeave_exitLine (builtins : sh.OnlyBuiltins) (n : Int32) :
    sh.AsksToLeave (exitLine n) n := by
  have line : exitLine n = plainLine .exit (Decimal.intText n.toInt) := rfl
  refine ⟨⟨Builtin.exit.parameters, [.int n.toInt64]⟩, ?_, exitProgram_int n⟩
  rw [line, prepare_plainLine builtins .exit (plainWord_intText n.toInt) rfl (bind_exit _ n)]

end Shell

end LineConsole
