import LineConsole.Proofs.Lexeme.Lossless
import LineConsole.Proofs.Text.Runs

/-! # The lexeme at the front

Which contents a kind of lexeme has, and where a lexeme of that kind ends, is said without reading a
text. The first character of a content tells which kinds it can be. What is read off the front of a
text is the one lexeme that matches its kind and ends where that kind does; if none is read, there is
none.
-/

namespace LineConsole

namespace LexemeKind

/-- The content of a lexeme whose kind has one content only. -/
def spelling? : LexemeKind → Option (List Char)
  | .newLine => some ['\n']
  | .endOfFile => some ['\x00']
  | .leftParen => some ['(']
  | .rightParen => some [')']
  | .leftBrace => some ['{']
  | .rightBrace => some ['}']
  | .plus => some ['+']
  | .minus => some ['-']
  | .star => some ['*']
  | .slash => some ['/']
  | .semicolon => some [';']
  | .hash => some ['#']
  | .comma => some [',']
  | .dollar => some ['$']
  | .at => some ['@']
  | .question => some ['?']
  | .colon => some [':']
  | .and => some ['&']
  | .andAlso => some ['&', '&']
  | .or => some ['|']
  | .orElse => some ['|', '|']
  | .not => some ['!']
  | .notEqual => some ['!', '=']
  | .assign => some ['=']
  | .equal => some ['=', '=']
  | .less => some ['<']
  | .lessEqual => some ['<', '=']
  | .greater => some ['>']
  | .greaterEqual => some ['>', '=']
  | .whitespace | .keyword | .quotedString | .string => none

/-- The character behind an operator of one character that makes it another operator. -/
def upgrade? : LexemeKind → Option Char
  | .and => some '&'
  | .or => some '|'
  | .not | .assign | .less | .greater => some '='
  | _ => none

def IsWord (kind : LexemeKind) : Prop := kind = .string ∨ kind = .keyword

instance (kind : LexemeKind) : Decidable kind.IsWord := inferInstanceAs (Decidable (_ ∨ _))

end LexemeKind

namespace Lexeme

/-- What follows an opening quote: backslash pairs and other characters, none of them a line feed, up
to the first such quote outside the pairs. -/
inductive Closed (quote : Char) : List Char → Prop where
  | quote : Closed quote [quote]
  | pair {c : Char} {cs : List Char} (inside : c ≠ '\n') (later : Closed quote cs) :
      Closed quote ('\\' :: c :: cs)
  | other {c : Char} {cs : List Char} (slash : c ≠ '\\') (going : c ≠ quote) (inside : c ≠ '\n')
      (later : Closed quote cs) : Closed quote (c :: cs)

/-- Characters that end no word, of which the first is not a quote. -/
structure Wordlike (content : List Char) : Prop where
  some : content ≠ []
  inside : ∀ c ∈ content, isBoundary c = false
  unquoted : ∀ c ∈ content.head?, isQuote c = false

/-- The contents of the lexemes of a kind. -/
def Matches : LexemeKind → List Char → Prop
  | .whitespace, content => content ≠ [] ∧ ∀ c ∈ content, c ≠ '\n' ∧ Text.isBlank c = true
  | .quotedString, content =>
    ∃ quote cs, content = quote :: cs ∧ isQuote quote = true ∧ Closed quote cs
  | .string, content => Wordlike content ∧ String.ofList content ∉ keywords
  | .keyword, content => Wordlike content ∧ String.ofList content ∈ keywords
  | kind, content => kind.spelling? = some content

/-- Where a lexeme of a kind ends: no white space goes on, no word does, and no operator can be
upgraded. -/
structure StopsAt (kind : LexemeKind) (rest : List Char) : Prop where
  blank : kind = .whitespace → ∀ c ∈ rest.head?, isSpace c = false
  word : kind.IsWord → ∀ c ∈ rest.head?, isBoundary c = true
  operator : ∀ c, kind.upgrade? = some c → rest.head? ≠ some c

variable {kind : LexemeKind} {content rest : List Char}

theorem StopsAt.of_plain (blank : kind ≠ .whitespace) (word : ¬ kind.IsWord)
    (operator : kind.upgrade? = none) : StopsAt kind rest where
  blank same := absurd same blank
  word same := absurd same word
  operator c same := by
    rw [operator] at same
    cases same

theorem StopsAt.of_upgrade {c : Char} (upgrade : kind.upgrade? = some c) (single : rest.head? ≠ some c) :
    StopsAt kind rest where
  blank same := by
    subst same
    cases upgrade
  word same := by
    rcases same with rfl | rfl <;> cases upgrade
  operator d same := by
    obtain rfl := Option.some.inj (upgrade.symm.trans same)
    exact single

theorem StopsAt.of_word (word : kind.IsWord) (stops : ∀ c ∈ rest.head?, isBoundary c = true) :
    StopsAt kind rest where
  blank same := by
    subst same
    exact absurd word (by decide)
  word _ := stops
  operator c same := by
    rcases word with rfl | rfl <;> cases same

/-! ## What the first character tells -/

theorem isSpace_iff {c : Char} : isSpace c = true ↔ c ≠ '\n' ∧ Text.isBlank c = true := by
  simp [isSpace]

theorem isBoundary_eq_false_iff {c : Char} : isBoundary c = false ↔
    c ≠ '\n' ∧ isSpace c = false ∧ symbol? c = none ∧ operator? c = none := by
  simp [isBoundary, and_assoc]

theorem isBoundary_of_isSpace {c : Char} (space : isSpace c = true) : isBoundary c = true := by
  simp [isBoundary, space]

theorem isBoundary_of_isQuote {c : Char} (quote : isQuote c = true) : isBoundary c = false := by
  simp only [isQuote, Bool.or_eq_true, beq_iff_eq] at quote
  rcases quote with rfl | rfl <;> decide

/-- A content is white space, quoted, a word, or the spelling of its kind. -/
theorem Matches.cases (fits : Matches kind content) :
    (kind = .whitespace ∧ content ≠ [] ∧ ∀ c ∈ content, isSpace c = true) ∨
      (kind = .quotedString ∧
        ∃ quote cs, content = quote :: cs ∧ isQuote quote = true ∧ Closed quote cs) ∨
      (kind.IsWord ∧ Wordlike content) ∨ kind.spelling? = some content := by
  cases kind with
  | whitespace => exact .inl ⟨rfl, fits.1, fun c there => isSpace_iff.mpr (fits.2 c there)⟩
  | quotedString => exact .inr (.inl ⟨rfl, fits⟩)
  | string => exact .inr (.inr (.inl ⟨.inl rfl, fits.1⟩))
  | keyword => exact .inr (.inr (.inl ⟨.inr rfl, fits.1⟩))
  | _ => exact .inr (.inr (.inr fits))

theorem Matches.exists_cons (fits : Matches kind content) : ∃ c cs, content = c :: cs := by
  rcases fits.cases with ⟨-, some, -⟩ | ⟨-, quote, cs, rfl, -⟩ | ⟨-, word⟩ | spelled
  · exact List.exists_cons_of_ne_nil some
  · exact ⟨quote, cs, rfl⟩
  · exact List.exists_cons_of_ne_nil word.some
  · cases kind <;> cases spelled <;> exact ⟨_, _, rfl⟩

theorem Matches.isSpace_iff {c : Char} {cs : List Char} (fits : Matches kind (c :: cs)) :
    isSpace c = true ↔ kind = .whitespace := by
  have other (inside : isBoundary c = false) (kindly : kind ≠ .whitespace) :
      isSpace c = true ↔ kind = .whitespace := by
    rw [(isBoundary_eq_false_iff.mp inside).2.1]
    simp [kindly]
  rcases fits.cases with ⟨rfl, -, blank⟩ | ⟨rfl, quote, cs, same, opens, -⟩ | ⟨kindly, word⟩ | spelled
  · exact iff_of_true (blank c List.mem_cons_self) rfl
  · obtain ⟨rfl, -⟩ := List.cons.inj same
    exact other (isBoundary_of_isQuote opens) (by decide)
  · refine other (word.inside c List.mem_cons_self) ?_
    rintro rfl
    exact absurd kindly (by decide)
  · cases kind <;> cases spelled <;> decide

theorem Matches.isBoundary_iff {c : Char} {cs : List Char} (fits : Matches kind (c :: cs))
    (inner : kind ≠ .endOfFile) :
    isBoundary c = false ↔ kind.IsWord ∨ kind = .quotedString := by
  rcases fits.cases with ⟨rfl, -, blank⟩ | ⟨rfl, quote, cs, same, opens, -⟩ | ⟨kindly, word⟩ | spelled
  · rw [isBoundary_of_isSpace (blank c List.mem_cons_self)]
    decide
  · obtain ⟨rfl, -⟩ := List.cons.inj same
    exact iff_of_true (isBoundary_of_isQuote opens) (.inr rfl)
  · exact iff_of_true (word.inside c List.mem_cons_self) (.inl kindly)
  · cases kind with
    | endOfFile => exact absurd rfl inner
    | _ => cases spelled <;> decide

/-! ## Each class of first characters -/

theorem front_of_symbol {c : Char} (found : symbol? c = some kind) (cs : List Char) :
    front (c :: cs) = .lexeme kind [c] cs [] := by
  unfold symbol? at found
  split at found <;> cases found <;> rfl

theorem front_of_operator {c : Char} {op : Operator} (found : operator? c = some op) (cs : List Char) :
    front (c :: cs) =
      if cs.head? = some op.upgrade then .lexeme op.double [c, op.upgrade] cs.tail []
      else .lexeme op.single [c] cs [] := by
  unfold operator? at found
  split at found <;> cases found <;> rfl

theorem front_of_quote {c : Char} (opens : isQuote c = true) (cs : List Char) :
    front (c :: cs) =
      match quotedRun c cs with
      | some (run, left) => .lexeme .quotedString (c :: run) left (quotedRemarks c 1 cs)
      | none => .unterminated (quotedRemarks c 1 cs) := by
  simp only [isQuote, Bool.or_eq_true, beq_iff_eq] at opens
  rcases opens with rfl | rfl <;> rfl

theorem front_of_space {c : Char} (space : isSpace c = true) (cs : List Char) :
    front (c :: cs) = .lexeme .whitespace (c :: cs.takeWhile isSpace) (cs.dropWhile isSpace) [] := by
  rw [front, if_neg (isSpace_iff.mp space).1, if_pos space]

theorem front_of_word {c : Char} (inside : isBoundary c = false) (unquoted : isQuote c = false)
    (cs : List Char) :
    front (c :: cs) =
      .lexeme (wordKind ((c :: cs).takeWhile (!isBoundary ·))) ((c :: cs).takeWhile (!isBoundary ·))
        ((c :: cs).dropWhile (!isBoundary ·)) (wordRemarks ((c :: cs).takeWhile (!isBoundary ·))) := by
  obtain ⟨line, space, symbol, operator⟩ := isBoundary_eq_false_iff.mp inside
  simp [front, line, space, symbol, operator, unquoted]

theorem fits_of_symbol {c : Char} (found : symbol? c = some kind) :
    Matches kind [c] ∧ StopsAt kind rest := by
  unfold symbol? at found
  split at found <;> cases found <;> exact ⟨rfl, .of_plain (by decide) (by decide) rfl⟩

theorem fits_of_operator {c : Char} {op : Operator} (found : operator? c = some op) (rest : List Char) :
    Matches op.single [c] ∧ (rest.head? ≠ some op.upgrade → StopsAt op.single rest) ∧
      Matches op.double [c, op.upgrade] ∧ StopsAt op.double rest := by
  unfold operator? at found
  split at found <;> cases found <;>
    exact ⟨rfl, .of_upgrade rfl, rfl, .of_plain (by decide) (by decide) rfl⟩

theorem isWord_wordKind (word : List Char) : (wordKind word).IsWord := by
  rw [wordKind]
  split
  · exact .inr rfl
  · exact .inl rfl

theorem matches_wordKind (like : Wordlike content) : Matches (wordKind content) content := by
  rw [wordKind]
  split
  · rename_i reserved
    exact ⟨like, List.contains_iff_mem.mp reserved⟩
  · rename_i free
    exact ⟨like, fun reserved => free (List.contains_iff_mem.mpr reserved)⟩

theorem wordKind_of_matches (word : kind.IsWord) (fits : Matches kind content) :
    wordKind content = kind := by
  rcases word with rfl | rfl
  · rw [wordKind, if_neg (mt List.contains_iff_mem.mp fits.2)]
  · rw [wordKind, if_pos (List.contains_iff_mem.mpr fits.2)]

/-! ## Quotes -/

theorem ne_of_isQuote {c : Char} (quote : isQuote c = true) : c ≠ '\\' ∧ c ≠ '\n' := by
  simp only [isQuote, Bool.or_eq_true, beq_iff_eq] at quote
  rcases quote with rfl | rfl <;> decide

theorem closed_of_quotedRun {quote : Char} {cs run left : List Char}
    (found : quotedRun quote cs = some (run, left)) : Closed quote run := by
  fun_induction quotedRun quote cs generalizing run with
  | case1 => cases found
  | case2 => cases found
  | case3 => cases found
  | case4 => cases found
  | case5 c rest inside ih =>
    obtain ⟨⟨run, left⟩, later, same⟩ := Option.map_eq_some_iff.mp found
    cases same
    exact .pair inside (ih later)
  | case6 =>
    cases found
    exact .quote
  | case7 c rest line single feed pair other ih =>
    obtain ⟨⟨run, left⟩, later, same⟩ := Option.map_eq_some_iff.mp found
    cases same
    have slash : c ≠ '\\' := Text.ne_slash single pair
    exact .other slash other line (ih later)

theorem quotedRun_append_of_closed {quote : Char} (opens : isQuote quote = true) {run : List Char}
    (closed : Closed quote run) (left : List Char) :
    quotedRun quote (run ++ left) = some (run, left) := by
  obtain ⟨slash, line⟩ := ne_of_isQuote opens
  induction closed with
  | quote =>
    rw [List.singleton_append, quotedRun, if_pos rfl]
    all_goals simp [slash, line]
  | @pair c cs inside later ih =>
    rw [List.cons_append, List.cons_append, quotedRun, ih, Option.map_some]
    exact inside
  | @other c cs slash closing inside later ih =>
    rw [List.cons_append, quotedRun, if_neg closing, ih, Option.map_some]
    all_goals simp [slash, inside]

/-! ## Reading -/

theorem wordlike_takeWhile {c : Char} (inside : isBoundary c = false) (unquoted : isQuote c = false)
    (cs : List Char) : Wordlike ((c :: cs).takeWhile (!isBoundary ·)) where
  some := by
    rw [List.takeWhile_cons_of_pos (by simp [inside])]
    exact List.cons_ne_nil _ _
  inside d there := by simpa using List.mem_takeWhile_imp there
  unquoted d first := by
    rw [List.takeWhile_cons_of_pos (by simp [inside])] at first
    cases first
    exact unquoted

/-- What is read matches its kind and ends where that kind does. -/
theorem fits_of_front {c : Char} {cs : List Char} {remarks : List Remark}
    (found : front (c :: cs) = .lexeme kind content rest remarks) :
    Matches kind content ∧ StopsAt kind rest := by
  by_cases line : c = '\n'
  · subst line
    cases found
    exact ⟨rfl, .of_plain (by decide) (by decide) rfl⟩
  cases space : isSpace c with
  | true =>
    rw [front_of_space space] at found
    cases found
    have blank : ∀ d ∈ c :: cs.takeWhile isSpace, isSpace d = true :=
      List.forall_mem_cons.mpr ⟨space, fun d there => List.mem_takeWhile_imp there⟩
    exact ⟨⟨List.cons_ne_nil _ _, fun d there => isSpace_iff.mp (blank d there)⟩,
      fun _ => Text.head_dropWhile, fun same => absurd same (by decide), nofun⟩
  | false =>
  cases symbol : symbol? c with
  | some kind' =>
    rw [front_of_symbol symbol] at found
    cases found
    exact fits_of_symbol symbol
  | none =>
  cases operator : operator? c with
  | some op =>
    rw [front_of_operator operator] at found
    obtain ⟨fits, stops, fits', stops'⟩ := fits_of_operator operator rest
    split at found <;> cases found
    · exact ⟨fits', stops'⟩
    · rename_i single
      exact ⟨fits, stops single⟩
  | none =>
  have inside : isBoundary c = false := isBoundary_eq_false_iff.mpr ⟨line, space, symbol, operator⟩
  cases quote : isQuote c with
  | true =>
    rw [front_of_quote quote] at found
    split at found
    · rename_i closed
      cases found
      exact ⟨⟨c, _, rfl, quote, closed_of_quotedRun closed⟩, .of_plain (by decide) (by decide) rfl⟩
    · cases found
  | false =>
    rw [front_of_word inside quote] at found
    obtain ⟨rfl, rfl, rfl, -⟩ := Front.lexeme.inj found
    have word := isWord_wordKind ((c :: cs).takeWhile (!isBoundary ·))
    refine ⟨matches_wordKind (wordlike_takeWhile inside quote cs), .of_word word fun d first => ?_⟩
    exact (Bool.not_eq_false' ..).mp (Text.head_dropWhile d first)

/-! ## Nothing else is read -/

theorem front_of_spelling (spelled : kind.spelling? = some content) (inner : kind ≠ .endOfFile)
    (stops : StopsAt kind rest) : front (content ++ rest) = .lexeme kind content rest [] := by
  cases kind <;> cases spelled
  case endOfFile => exact absurd rfl inner
  case and | or | not | assign | less | greater => exact if_neg (stops.operator _ rfl)
  all_goals rfl

/-- In front of a text where it ends, a content is what is read. -/
theorem front_of_matches (fits : Matches kind content) (inner : kind ≠ .endOfFile)
    (stops : StopsAt kind rest) :
    ∃ remarks, front (content ++ rest) = .lexeme kind content rest remarks := by
  rcases fits.cases with ⟨rfl, some, blank⟩ | ⟨rfl, quote, cs, rfl, opens, closed⟩ | ⟨kindly, word⟩ | spelled
  · obtain ⟨c, cs, rfl⟩ := List.exists_cons_of_ne_nil some
    obtain ⟨space, blank⟩ := List.forall_mem_cons.mp blank
    obtain ⟨run, left⟩ := Text.takeWhile_append_of_stops blank (stops.blank rfl)
    rw [List.cons_append, front_of_space space, run, left]
    exact ⟨_, rfl⟩
  · rw [List.cons_append, front_of_quote opens, quotedRun_append_of_closed opens closed]
    exact ⟨_, rfl⟩
  · obtain ⟨c, cs, rfl⟩ := List.exists_cons_of_ne_nil word.some
    obtain ⟨run, left⟩ := Text.takeWhile_append_of_stops (p := (!isBoundary ·))
      (fun d there => by simp [word.inside d there]) fun d first => by simp [stops.word kindly d first]
    rw [List.cons_append, front_of_word (word.inside c List.mem_cons_self) (word.unquoted c rfl),
      ← List.cons_append, run, left, wordKind_of_matches kindly fits]
    exact ⟨_, rfl⟩
  · exact ⟨[], front_of_spelling spelled inner stops⟩

/-- The lexeme at the front of a text is the one beginning of it that matches its kind and ends where
lexemes of that kind do. -/
theorem front_eq_lexeme_iff {c : Char} {cs : List Char} :
    (∃ remarks, front (c :: cs) = .lexeme kind content rest remarks) ↔
      kind ≠ .endOfFile ∧ content ++ rest = c :: cs ∧ Matches kind content ∧ StopsAt kind rest := by
  constructor
  · rintro ⟨remarks, found⟩
    exact ⟨(front_cons_eq_lexeme found).2, front_append found, fits_of_front found⟩
  · rintro ⟨inner, text, fits, stops⟩
    rw [← text]
    exact front_of_matches fits inner stops

/-- A quote inside a word does not open anything. -/
example : front "it's &&&".toList = .lexeme .string "it's".toList " &&&".toList [] := by decide

example : front "&&&".toList = .lexeme .andAlso "&&".toList "&".toList [] := by decide

end Lexeme

end LineConsole
