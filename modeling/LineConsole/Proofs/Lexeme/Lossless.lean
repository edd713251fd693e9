import LineConsole.Lexeme.Lexer
import LineConsole.Proofs.Text.Backslashes
import Mathlib.Data.List.Infix

/-! # Lexing loses nothing

Every item but the last is a lexeme with characters of its own, taken off the front of what is left,
so that reading comes to an end. The last item is the closing NUL, and then the lexemes are the whole
text; or it is an error at a quote that is not closed on its line, and then they are all that stands
before that quote.
-/

namespace LineConsole

/-- The offset behind a beginning of a text is where that beginning leads to. -/
theorem Location.ofOffset_append (before after : List Char) :
    ofOffset (before ++ after) before.length = start.advance before := by
  simp [ofOffset]

namespace Lexeme

/-- The characters that are not part of a backslash pair. -/
def outsidePairs : List Char → List Char
  | '\\' :: _ :: rest => outsidePairs rest
  | c :: rest => c :: outsidePairs rest
  | [] => []

/-- The characters of lexemes one after the other. -/
def joined (lexemes : List Lexeme) : List Char := lexemes.flatMap (·.content.toList)

/-- The characters up to the end of the line. -/
def restOfLine (cs : List Char) : List Char := cs.takeWhile (· != '\n')

theorem restOfLine_cons {c : Char} (inside : c ≠ '\n') (cs : List Char) :
    restOfLine (c :: cs) = c :: restOfLine cs :=
  List.takeWhile_cons_of_pos (bne_iff_ne.mpr inside)

private theorem outsidePairs_cons {c : Char} (slash : c ≠ '\\') (cs : List Char) :
    outsidePairs (c :: cs) = c :: outsidePairs cs := by
  rw [outsidePairs]
  exact fun _ _ same _ => slash same

/-- A quoted run ends unless the rest of the line has no such quote outside the backslash pairs. -/
theorem quotedRun_eq_none_iff {quote : Char} (slash : quote ≠ '\\') (cs : List Char) :
    quotedRun quote cs = none ↔ quote ∉ outsidePairs (restOfLine cs) := by
  fun_induction quotedRun quote cs with
  | case1 => simp [restOfLine, outsidePairs]
  | case2 rest => simp [restOfLine, outsidePairs]
  | case3 => simp [restOfLine, outsidePairs, slash]
  | case4 rest => simp [restOfLine, outsidePairs, slash]
  | case5 c rest inside ih =>
    rw [Option.map_eq_none_iff, ih, restOfLine_cons (by decide), restOfLine_cons inside, outsidePairs]
  | case6 rest inside single pair =>
    have closing : quote ∈ outsidePairs (restOfLine (quote :: rest)) := by
      rw [restOfLine_cons inside, outsidePairs_cons slash]
      exact List.mem_cons_self
    simp [closing]
  | case7 c rest inside single _ pair other ih =>
    have plain : c ≠ '\\' := Text.ne_slash single pair
    rw [Option.map_eq_none_iff, ih, restOfLine_cons inside, outsidePairs_cons plain, List.mem_cons]
    simp [Ne.symm other]

theorem symbol_ne_endOfFile {c : Char} {kind : LexemeKind} (found : symbol? c = some kind) :
    kind ≠ .endOfFile := by
  rintro rfl
  unfold symbol? at found
  split at found <;> cases found

theorem operator_ne_endOfFile {c : Char} {op : Operator} (found : operator? c = some op) :
    op.single ≠ .endOfFile ∧ op.double ≠ .endOfFile := by
  unfold operator? at found
  split at found <;> cases found <;> decide

theorem wordKind_ne_endOfFile (word : List Char) : wordKind word ≠ .endOfFile := by
  unfold wordKind
  split <;> decide

/-- A lexeme at the front of a text that is not empty takes something and is not the end. -/
theorem front_cons_eq_lexeme {c : Char} {cs content rest : List Char} {kind : LexemeKind}
    {remarks : List Remark} (found : front (c :: cs) = .lexeme kind content rest remarks) :
    content ≠ [] ∧ kind ≠ .endOfFile := by
  simp only [front] at found
  split at found
  · cases found
    exact ⟨List.cons_ne_nil _ _, by decide⟩
  rename_i newline
  split at found
  · cases found
    exact ⟨List.cons_ne_nil _ _, by decide⟩
  rename_i space
  split at found
  · rename_i symbol
    cases found
    exact ⟨List.cons_ne_nil _ _, symbol_ne_endOfFile symbol⟩
  rename_i symbol
  split at found
  · rename_i operator
    split at found <;> cases found
    · exact ⟨List.cons_ne_nil _ _, (operator_ne_endOfFile operator).2⟩
    · exact ⟨List.cons_ne_nil _ _, (operator_ne_endOfFile operator).1⟩
  rename_i operator
  split at found
  · split at found <;> cases found
    exact ⟨List.cons_ne_nil _ _, by decide⟩
  cases found
  have begins : (!isBoundary c) = true := by
    have noSymbol : symbol? c = none := Option.eq_none_iff_forall_ne_some.mpr symbol
    have noOperator : operator? c = none := Option.eq_none_iff_forall_ne_some.mpr operator
    simp [isBoundary, newline, space, noSymbol, noOperator]
  have word : (c :: cs).takeWhile (!isBoundary ·) = c :: cs.takeWhile (!isBoundary ·) :=
    List.takeWhile_cons_of_pos begins
  rw [word]
  exact ⟨List.cons_ne_nil _ _, wordKind_ne_endOfFile _⟩

theorem length_lt_of_front {c : Char} {cs content rest : List Char} {kind : LexemeKind}
    {remarks : List Remark} (found : front (c :: cs) = .lexeme kind content rest remarks) :
    rest.length < (c :: cs).length := by
  rw [← front_append found, List.length_append]
  exact Nat.lt_add_of_pos_left (List.length_pos_iff.mpr (front_cons_eq_lexeme found).1)

/-- What cannot be read is a quote that is not closed on its line. -/
theorem front_eq_unterminated {cs : List Char} {remarks : List Remark}
    (found : front cs = .unterminated remarks) :
    ∃ quote rest, cs = quote :: rest ∧ isQuote quote ∧ quote ∉ outsidePairs (restOfLine rest) := by
  cases cs with
  | nil => cases found
  | cons c cs =>
    simp only [front] at found
    repeat' split at found
    all_goals cases found
    rename_i opens _ unclosed
    have slash : c ≠ '\\' := by
      rintro rfl
      exact absurd opens (by decide)
    exact ⟨c, cs, rfl, opens, (quotedRun_eq_none_iff slash cs).mp unclosed⟩

end Lexeme

namespace Lexer

open Lexeme

/-- The items of a text that begins at a location: lexemes up to the closing NUL, or up to a quote
that is not closed on its line. -/
inductive Items : Location → List Char → List (Except Fault Lexeme) → Prop where
  | last (l : Location) : Items l [] [.ok ⟨.endOfFile, l, l.advance ['\x00'], "\x00"⟩]
  | lexeme {l : Location} {kind : LexemeKind} {content rest : List Char}
      {items : List (Except Fault Lexeme)} (some : content ≠ []) (inner : kind ≠ .endOfFile)
      (later : Items (l.advance content) rest items) :
      Items l (content ++ rest)
        (.ok ⟨kind, l, l.advance content, String.ofList content⟩ :: items)
  | unterminated {l : Location} {quote : Char} {rest : List Char} (opens : isQuote quote)
      (unclosed : quote ∉ outsidePairs (restOfLine rest)) :
      Items l (quote :: rest) [.error (.lexical ⟨.error, "unterminated quoted string", l⟩)]

theorem take_of_finished {l : Lexer} (finished : l.finished = true) (count : Nat) :
    l.take count = ([], l) := by
  cases count with
  | zero => rfl
  | succ count => simp only [take, next?, finished, if_true]

/-- Reading goes on where it was left. -/
theorem take_add (l : Lexer) (count more : Nat) :
    l.take (count + more) =
      ((l.take count).1 ++ ((l.take count).2.take more).1, ((l.take count).2.take more).2) := by
  induction count generalizing l with
  | zero => simp only [Nat.zero_add, take, List.nil_append]
  | succ count ih =>
    rw [Nat.succ_add, take, take]
    cases next : l.next? with
    | mk item later =>
      cases item with
      | none =>
        have finished : later.finished = true := by
          simp only [next?] at next
          split at next
          · cases next
            assumption
          · split at next <;> cases next
        simp only [take_of_finished finished, List.nil_append]
      | some item => simp only [ih later, List.cons_append]

/-- One item more than there are characters is enough: each lexeme in front takes at least one. -/
theorem take_items (l : Lexer) (going : l.finished = false) {count : Nat}
    (enough : l.rest.length < count) :
    Items l.location l.rest (l.take count).1 ∧ (l.take count).2.finished = true := by
  induction count generalizing l with
  | zero => omega
  | succ count ih =>
    simp only [take, next?, going, Bool.false_eq_true, if_false]
    cases found : front l.rest with
    | unterminated remarks =>
      obtain ⟨quote, rest, text, opens, unclosed⟩ := front_eq_unterminated found
      simp only [take_of_finished, text]
      exact ⟨.unterminated opens unclosed, trivial⟩
    | lexeme kind content rest remarks =>
      cases text : l.rest with
      | nil =>
        rw [text] at found
        cases found
        simp only [take_of_finished, decide_true]
        exact ⟨.last l.location, trivial⟩
      | cons c cs =>
        rw [text] at found
        obtain ⟨some, inner⟩ := front_cons_eq_lexeme found
        have split : content ++ rest = c :: cs := front_append found
        have shorter : rest.length < count := by
          have behind := length_lt_of_front found
          rw [text] at enough
          omega
        obtain ⟨items, finished⟩ := ih ⟨rest, l.location.advance content,
          l.diagnostics ++ remarks.map l.warning, decide (kind = .endOfFile)⟩
          (decide_eq_false inner) shorter
        rw [← split]
        exact ⟨.lexeme some inner items, finished⟩

/-- By induction on the items: they end in the closing NUL behind all of the text, or in an error
behind all that stands before an open quote. -/
theorem Items.ends {l : Location} {cs : List Char} {items : List (Except Fault Lexeme)}
    (read : Items l cs items) :
    ∃ lexemes : List Lexeme, (∀ lexeme ∈ lexemes, lexeme.kind ≠ .endOfFile) ∧
      ((∃ last, items = lexemes.map .ok ++ [.ok last] ∧ last.kind = .endOfFile ∧
          last.content = "\x00" ∧ joined lexemes = cs) ∨
        ∃ quote rest, items = lexemes.map .ok ++
            [.error (.lexical ⟨.error, "unterminated quoted string", l.advance (joined lexemes)⟩)] ∧
          cs = joined lexemes ++ quote :: rest ∧ isQuote quote ∧
          quote ∉ outsidePairs (restOfLine rest)) := by
  induction read with
  | last l => exact ⟨[], nofun, .inl ⟨_, rfl, rfl, rfl, rfl⟩⟩
  | unterminated opens unclosed =>
    exact ⟨[], nofun, .inr ⟨_, _, rfl, rfl, opens, unclosed⟩⟩
  | @lexeme l kind content rest items some inner later ih =>
    obtain ⟨lexemes, others, ends⟩ := ih
    have front : joined (⟨kind, l, l.advance content, String.ofList content⟩ :: lexemes) =
        content ++ joined lexemes := by
      simp [joined]
    refine ⟨⟨kind, l, l.advance content, String.ofList content⟩ :: lexemes,
      List.forall_mem_cons.mpr ⟨inner, others⟩, ?_⟩
    rcases ends with ⟨last, all, kind, nul, same⟩ | ⟨quote, after, all, same, opens, unclosed⟩
    · refine .inl ⟨last, ?_, kind, nul, ?_⟩
      · rw [all]
        rfl
      · rw [front, same]
    · refine .inr ⟨quote, after, ?_, ?_, opens, unclosed⟩
      · rw [all, front, Location.advance_append]
        rfl
      · rw [front, same, List.append_assoc]

/-- A text that ends in NUL as it is, and any other with a NUL behind it. -/
def terminated (cs : List Char) : List Char :=
  if cs.getLast? = some '\x00' then cs else cs ++ ['\x00']

theorem normalized_eq_terminated (source : String) :
    normalized source = terminated (Text.unifyLineEnds source.toList) := by
  simp only [normalized, body, terminated]
  split
  · rename_i ends
    exact List.dropLast_append_getLast? _ ends
  · rfl

/-- The lexemes are all of a text, and the last of them and no other is its end. -/
def Complete (text : List Char) (items : List (Except Fault Lexeme)) : Prop :=
  ∃ lexemes last, items = (lexemes ++ [last]).map .ok ∧ joined (lexemes ++ [last]) = text ∧
    last.kind = .endOfFile ∧ last.content = "\x00" ∧ ∀ lexeme ∈ lexemes, lexeme.kind ≠ .endOfFile

/-- The lexemes are what stands in front of a quote that is not closed on its line; the error that
follows them is located there. -/
def BreaksOff (text : List Char) (items : List (Except Fault Lexeme)) : Prop :=
  ∃ lexemes diagnostic quote rest, items = lexemes.map .ok ++ [.error (.lexical diagnostic)] ∧
    text = joined lexemes ++ quote :: rest ++ ['\x00'] ∧ isQuote quote ∧
    quote ∉ outsidePairs (restOfLine rest) ∧ diagnostic.severity = .error ∧
    diagnostic.location = .ofOffset text (joined lexemes).length ∧
    ∀ lexeme ∈ lexemes, lexeme.kind ≠ .endOfFile

theorem filterMap_ok (lexemes : List Lexeme) :
    (lexemes.map Except.ok : List (Except Fault Lexeme)).filterMap Except.toOption = lexemes := by
  rw [List.filterMap_map]
  exact List.filterMap_some

theorem Complete.joined {text : List Char} {items : List (Except Fault Lexeme)}
    (complete : Complete text items) : Lexeme.joined (items.filterMap Except.toOption) = text := by
  obtain ⟨lexemes, last, all, same, -⟩ := complete
  rw [all, filterMap_ok, same]

theorem BreaksOff.joined {text : List Char} {items : List (Except Fault Lexeme)}
    (breaksOff : BreaksOff text items) :
    Lexeme.joined (items.filterMap Except.toOption) <+: text := by
  obtain ⟨lexemes, diagnostic, quote, rest, all, same, -⟩ := breaksOff
  have front : items.filterMap Except.toOption = lexemes := by
    rw [all, List.filterMap_append, filterMap_ok]
    exact List.append_nil _
  rw [front, same, List.append_assoc]
  exact List.prefix_append _ _

/-- Whatever is read is the beginning of all there is to read. -/
theorem take_prefix_run (l : Lexer) (going : l.finished = false) (count : Nat) :
    (l.take count).1 <+: l.run.1 := by
  rcases Nat.le_total count (l.rest.length + 1) with fewer | more
  · obtain ⟨left, total⟩ := Nat.exists_eq_add_of_le fewer
    rw [run, total, take_add]
    exact List.prefix_append _ _
  · obtain ⟨left, total⟩ := Nat.exists_eq_add_of_le more
    have finished := (take_items l going (Nat.lt_succ_self _)).2
    rw [total, take_add, take_of_finished finished, List.append_nil]
    exact List.prefix_rfl

theorem run_complete_or_breaksOff (source : String) :
    Complete (normalized source) (ofSource source).run.1 ∨
      BreaksOff (normalized source) (ofSource source).run.1 := by
  have read := (take_items (ofSource source) rfl (Nat.lt_succ_self _)).1
  change Items .start (body source) (ofSource source).run.1 at read
  obtain ⟨lexemes, others, ends⟩ := read.ends
  rcases ends with ⟨last, all, kind, nul, whole⟩ | ⟨quote, rest, all, front, opens, unclosed⟩
  · refine .inl ⟨lexemes, last, by rw [all, List.map_append]; rfl, ?_, kind, nul, others⟩
    rw [joined, List.flatMap_append, ← joined, whole, List.flatMap_singleton, nul]
    rfl
  · have text : normalized source = joined lexemes ++ quote :: rest ++ ['\x00'] := by
      rw [normalized, front]
    refine .inr ⟨lexemes, _, quote, rest, all, text, opens, unclosed, rfl, ?_, others⟩
    rw [text, List.append_assoc, Location.ofOffset_append]

end Lexer

end LineConsole
