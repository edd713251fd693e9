import LineConsole.Proofs.Lexeme.Front
import LineConsole.Proofs.Text.LineEnds

/-! # Texts in quotes

Between quotes any text can be written: a backslash stands in front of itself and of the quote, and
the characters that would end the line, the text or a word are written as letters. What is written so
is one lexeme without an oddity, and its value is the text.
-/

namespace LineConsole

namespace Lexeme

/-- A character between quotes. -/
def spelled (quote : Char) : Char → List Char
  | '\\' => ['\\', '\\']
  | '\n' => ['\\', 'n']
  | '\r' => ['\\', 'r']
  | '\t' => ['\\', 't']
  | '\x00' => ['\\', '0']
  | c => if c = quote then ['\\', c] else [c]

/-- The characters between quotes and the closing quote. -/
def spelledAll (quote : Char) (cs : List Char) : List Char := cs.flatMap (spelled quote) ++ [quote]

/-- A text in quotes. -/
def quoted (quote : Char) (text : String) : String :=
  String.ofList (quote :: spelledAll quote text.toList)

variable {quote c : Char} {cs : List Char}

theorem spelledAll_cons (quote c : Char) (cs : List Char) :
    spelledAll quote (c :: cs) = spelled quote c ++ spelledAll quote cs := by
  rw [spelledAll, List.flatMap_cons, List.append_assoc, ← spelledAll]

/-- A character is written as a backslash and a letter or sign that stands for it there, or as it is
if it means nothing else. -/
theorem spelled_cases (opens : isQuote quote = true) (c : Char) :
    (∃ d, spelled quote c = ['\\', d] ∧ isKnownEscape d = true ∧ unescaped d = c ∧ d ≠ '\n' ∧
        d ≠ '\r') ∨
      spelled quote c = [c] ∧ c ≠ '\\' ∧ c ≠ quote ∧ c ≠ '\n' ∧ c ≠ '\r' := by
  fun_cases spelled quote c with
  | case1 | case2 | case3 | case4 | case5 => exact .inl ⟨_, rfl, by decide⟩
  | case6 =>
    simp only [isQuote, Bool.or_eq_true, beq_iff_eq] at opens
    rcases opens with rfl | rfl <;> exact .inl ⟨_, rfl, by decide⟩
  | case7 c slash line back tab nul other => exact .inr ⟨rfl, slash, other, line, back⟩

theorem closed_spelledAll (opens : isQuote quote = true) (cs : List Char) :
    Closed quote (spelledAll quote cs) := by
  induction cs with
  | nil => exact .quote
  | cons c cs ih =>
    rw [spelledAll_cons]
    rcases spelled_cases opens c with ⟨d, pair, -, -, line, -⟩ | ⟨same, slash, other, line, -⟩
    · rw [pair]
      exact .pair line ih
    · rw [same]
      exact .other slash other line ih

theorem quotedRemarks_spelledAll (opens : isQuote quote = true) (offset : Nat) (cs : List Char) :
    quotedRemarks quote offset (spelledAll quote cs) = [] := by
  induction cs generalizing offset with
  | nil =>
    obtain ⟨slash, line⟩ := ne_of_isQuote opens
    rw [spelledAll, List.flatMap_nil, List.nil_append, quotedRemarks, if_pos rfl]
    all_goals simp [slash, line]
  | cons c cs ih =>
    rw [spelledAll_cons]
    rcases spelled_cases opens c with ⟨d, pair, known, -, line, -⟩ | ⟨same, slash, other, line, -⟩
    · rw [pair, List.cons_append, List.singleton_append, quotedRemarks, if_pos known, ih]
      exact line
    · rw [same, List.singleton_append, quotedRemarks, if_neg other, ih]
      all_goals simp [slash, line]

theorem not_mem_spelledAll (opens : isQuote quote = true) (cs : List Char) :
    '\r' ∉ spelledAll quote cs := by
  induction cs with
  | nil =>
    rw [spelledAll, List.flatMap_nil, List.nil_append, List.mem_singleton]
    rintro rfl
    exact absurd opens (by decide)
  | cons c cs ih =>
    rw [spelledAll_cons, List.mem_append, not_or]
    refine ⟨?_, ih⟩
    rcases spelled_cases opens c with ⟨d, pair, -, -, -, back⟩ | ⟨same, -, -, -, back⟩
    · simp [pair, back.symm]
    · simp [same, back.symm]

theorem unescape_cons (slash : c ≠ '\\') (cs : List Char) : unescape (c :: cs) = c :: unescape cs := by
  rw [unescape]
  exact fun _ _ same _ => slash same

/-- Leaving the backslashes out gives the text back. -/
theorem unescape_spelled (opens : isQuote quote = true) (cs : List Char) :
    unescape (cs.flatMap (spelled quote)) = cs := by
  induction cs with
  | nil => rfl
  | cons c cs ih =>
    rw [List.flatMap_cons]
    rcases spelled_cases opens c with ⟨d, pair, -, back, -, -⟩ | ⟨same, slash, -, -, -⟩
    · rw [pair, List.cons_append, List.singleton_append, unescape, back, ih]
    · rw [same, List.singleton_append, unescape_cons slash, ih]

/-- What is written between quotes is read as a whole, and nothing about it is odd. -/
theorem front_spelledAll (opens : isQuote quote = true) (cs : List Char) :
    front (quote :: spelledAll quote cs) =
      .lexeme .quotedString (quote :: spelledAll quote cs) [] [] := by
  have run := quotedRun_append_of_closed opens (closed_spelledAll opens cs) []
  rw [List.append_nil] at run
  rw [front_of_quote opens, run, quotedRemarks_spelledAll opens]

theorem value_quoted (opens : isQuote quote = true) (text : String) (start stop : Location) :
    value ⟨.quotedString, start, stop, quoted quote text⟩ = text := by
  rw [value, if_pos rfl, quoted, String.toList_ofList, List.drop_one, List.tail_cons, spelledAll,
    List.dropLast_concat, unescape_spelled opens, String.ofList_toList]

end Lexeme

namespace Lexer

open Lexeme

variable {quote : Char}

/-- The quotes keep the line ends and the end of the text away. -/
theorem body_quoted (opens : isQuote quote = true) (text : String) :
    body (quoted quote text) = quote :: spelledAll quote text.toList := by
  have back : quote ≠ '\r' := by
    rintro rfl
    exact absurd opens (by decide)
  have nul : quote ≠ '\x00' := by
    rintro rfl
    exact absurd opens (by decide)
  have alone : ¬ Text.returnFeed <:+: quote :: spelledAll quote text.toList := fun inside =>
    absurd (inside.subset List.mem_cons_self)
      (by simp [back.symm, not_mem_spelledAll opens text.toList])
  have last : (quote :: spelledAll quote text.toList).getLast? = some quote := by
    rw [List.getLast?_cons, spelledAll, List.getLast?_concat, Option.getD_some]
  rw [body, quoted, String.toList_ofList, Text.unifyLineEnds_eq_self_iff.mpr alone, last,
    if_neg (by simpa using nul)]

/-- Reading a text in quotes takes two steps. -/
theorem run_quoted (opens : isQuote quote = true) (text : String) :
    let stop := Location.start.advance (quote :: spelledAll quote text.toList)
    (ofSource (quoted quote text)).run =
      ([.ok ⟨.quotedString, .start, stop, quoted quote text⟩,
        .ok ⟨.endOfFile, stop, stop.advance ['\x00'], "\x00"⟩],
        ⟨[], stop.advance ['\x00'], [], true⟩) := by
  intro stop
  have first : (ofSource (quoted quote text)).next? =
      (some (.ok ⟨.quotedString, .start, stop, quoted quote text⟩), ⟨[], stop, [], false⟩) := by
    simp only [next?, ofSource, body_quoted opens, front_spelledAll opens]
    rfl
  have last (count : Nat) : (⟨[], stop, [], false⟩ : Lexer).take (count + 1) =
      ([.ok ⟨.endOfFile, stop, stop.advance ['\x00'], "\x00"⟩],
        ⟨[], stop.advance ['\x00'], [], true⟩) := by
    simp only [take, next?, Bool.false_eq_true, if_false, front, decide_true, take_of_finished,
      List.map_nil, List.append_nil]
  rw [run, ofSource, body_quoted opens, List.length_cons, ← body_quoted opens text, ← ofSource, take,
    first]
  simp only [last]

/-- A text in quotes is read without a remark as one lexeme and the end, and its value is the text. -/
theorem quoted_read_back (opens : isQuote quote = true) (text : String) :
    ∃ lexeme last, (ofSource (quoted quote text)).run.1 = [.ok lexeme, .ok last] ∧
      (ofSource (quoted quote text)).run.2.diagnostics = [] ∧
      (ofSource (quoted quote text)).run.2.next?.1 = none ∧
      Lexeme.ofSource (quoted quote text) = .ok [lexeme, last] ∧
      lexeme.kind = .quotedString ∧ lexeme.content = quoted quote text ∧ lexeme.value = text ∧
      last.kind = .endOfFile ∧ last.content = "\x00" := by
  have read := run_quoted opens text
  refine ⟨_, _, congrArg Prod.fst read, ?_, ?_, ?_, rfl, rfl, value_quoted opens text _ _, rfl, rfl⟩
  · rw [read]
  · rw [read]
    rfl
  · rw [Lexeme.ofSource, read]
    rfl

/-- Quotes of both sorts, letters that stand for something behind a backslash, and a backslash at the
end. -/
theorem quoted_read_back_awkward :
    isQuote '\'' = true ∧
      quoted '\'' "n\n\t'\"$\x00\r\n\\" = "'n\\n\\t\\'\"$\\0\\r\\n\\\\'" ∧
      ∃ lexeme last, Lexeme.ofSource "'n\\n\\t\\'\"$\\0\\r\\n\\\\'" = .ok [lexeme, last] ∧
        lexeme.value = "n\n\t'\"$\x00\r\n\\" := by
  have opens : isQuote '\'' = true := by decide
  have written : quoted '\'' "n\n\t'\"$\x00\r\n\\" = "'n\\n\\t\\'\"$\\0\\r\\n\\\\'" := by
    decide
  obtain ⟨lexeme, last, -, -, -, read, -, -, value, -⟩ :=
    quoted_read_back opens "n\n\t'\"$\x00\r\n\\"
  rw [written] at read
  exact ⟨opens, written, lexeme, last, read, value⟩

end Lexer

end LineConsole
