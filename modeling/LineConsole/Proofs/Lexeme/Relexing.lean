import LineConsole.Proofs.Lexeme.Tokenization
import LineConsole.Proofs.Text.LineEnds

/-! # Reading the lexemes of a text again

The contents of the lexemes are the text with unified line ends. Reading them again unifies the line
ends once more, which changes nothing unless the first pass has left a pair of a carriage return and a
line feed. The carriage return of such a pair ends a lexeme of white space, so that the second reading
finds lexemes as well, only one character less before the line feed.
-/

namespace LineConsole

namespace Lexeme

open Text (returnFeed unifyLineEnds)

variable {kind : LexemeKind} {content rest cs : List Char} {pairs : List (LexemeKind × String)}

theorem Closed.not_mem_newline {quote : Char} (closed : Closed quote cs) (line : quote ≠ '\n') :
    '\n' ∉ cs := by
  induction closed with
  | quote => simp [line.symm]
  | pair inside later ih => simp [inside.symm, ih]
  | other slash going inside later ih => simp [inside.symm, ih]

theorem Closed.getLast? {quote : Char} (closed : Closed quote cs) : cs.getLast? = some quote := by
  induction closed with
  | quote => rfl
  | pair inside later ih => simp [List.getLast?_cons, ih]
  | other slash going inside later ih => simp [List.getLast?_cons, ih]

/-- Only a lexeme of white space ends in a carriage return. -/
theorem Matches.eq_whitespace (fits : Matches kind content) (last : content.getLast? = some '\r') :
    kind = .whitespace := by
  rcases fits.cases with ⟨rfl, -⟩ | ⟨rfl, quote, cs, rfl, opens, closed⟩ | ⟨-, word⟩ | spelled
  · rfl
  · rw [List.getLast?_cons, closed.getLast?, Option.getD_some] at last
    cases last
    exact absurd opens (by decide)
  · exact absurd (word.inside '\r' (List.mem_of_getLast? last)) (by decide)
  · cases kind <;> cases spelled <;> cases last

/-- No lexeme holds a line feed together with what stands in front of it. -/
theorem Matches.unifyLineEnds_eq (fits : Matches kind content) : unifyLineEnds content = content := by
  rw [Text.unifyLineEnds_eq_self_iff]
  have apart (none : '\n' ∉ content) : ¬ returnFeed <:+: content := fun inside =>
    none (inside.subset (by decide))
  rcases fits.cases with ⟨rfl, -, blank⟩ | ⟨rfl, quote, cs, rfl, opens, closed⟩ | ⟨-, word⟩ | spelled
  · exact apart fun there => absurd (blank _ there) (by decide)
  · have line := (ne_of_isQuote opens).2
    exact apart (by simp [line.symm, closed.not_mem_newline line])
  · exact apart fun there => absurd (word.inside _ there) (by decide)
  · cases kind <;> cases spelled <;> decide

/-- A line feed in the place of a pair ends a lexeme as well. -/
theorem StopsAt.unified (stops : StopsAt kind rest) : StopsAt kind (unifyLineEnds rest) := by
  have head := Text.head_unifyLineEnds rest
  split at head
  · rename_i pair
    obtain ⟨rest', rfl⟩ := pair
    refine ⟨fun same => ?_, fun _ => ?_, fun c upgrade feed => ?_⟩
    · exact absurd (stops.blank same '\r' rfl) (by decide)
    · rw [head]
      rintro _ ⟨⟩
      decide
    · rw [head] at feed
      cases feed
      cases kind <;> cases upgrade
  · refine ⟨?_, ?_, ?_⟩ <;> rw [head]
    exacts [stops.blank, stops.word, stops.operator]

/-- By induction on the lexemes: each is found again, but that white space in front of a line feed
loses a carriage return at its end. -/
theorem Munched.unified (munched : Munched cs pairs) :
    ∃ pairs', Munched (unifyLineEnds cs) pairs' := by
  induction munched with
  | last => exact ⟨_, .last⟩
  | @lexeme kind content rest later inner fits stops munched ih =>
    obtain ⟨later', ih⟩ := ih
    by_cases joins : content.toList.getLast? = some '\r' ∧ rest.head? = some '\n'
    · obtain ⟨last, feed⟩ := joins
      obtain rfl := fits.eq_whitespace last
      obtain ⟨front, content'⟩ := List.getLast?_eq_some_iff.mp last
      obtain ⟨rest, rfl⟩ := List.head?_eq_some_iff.mp feed
      have same := Text.unifyLineEnds_eq_self_iff.mp fits.unifyLineEnds_eq
      have alone : unifyLineEnds front = front := Text.unifyLineEnds_eq_self_iff.mpr fun inside =>
        same (content' ▸ inside.trans (List.prefix_append front _).isInfix)
      rw [content', Text.unifyLineEnds_append_of_pair, alone]
      by_cases none : front = []
      · rw [none]
        exact ⟨_, ih⟩
      · have blank : Matches .whitespace (String.ofList front).toList := by
          rw [String.toList_ofList]
          exact ⟨none, fun c there => fits.2 c (content' ▸ List.mem_append_left _ there)⟩
        have munched := Munched.lexeme inner blank stops.unified ih
        rw [String.toList_ofList] at munched
        exact ⟨_, munched⟩
    · rw [Text.unifyLineEnds_append fun last feed => joins ⟨last, feed⟩, fits.unifyLineEnds_eq]
      exact ⟨_, .lexeme inner fits stops.unified ih⟩

end Lexeme

namespace Lexer

open Lexeme
open Text (returnFeed unifyLineEnds)

variable {source : String} {lexemes : List Lexeme}

theorem munched_iff_ofSource (source : String) {pairs : List (LexemeKind × String)} :
    Munched (body source) pairs ↔ ∃ lexemes, Lexeme.ofSource source = .ok lexemes ∧
      pairs = lexemes.map fun lexeme => (lexeme.kind, lexeme.content) :=
  munched_iff_take (ofSource source) rfl (Nat.lt_succ_self _)

theorem joined_of_ofSource (read : Lexeme.ofSource source = .ok lexemes) :
    joined lexemes = normalized source := by
  have munched := (munched_iff_ofSource source).mpr ⟨lexemes, read, rfl⟩
  rw [normalized, ← munched.tokenization.joined, List.flatMap_map]
  rfl

/-- The text that is read again is the one that was read, its line ends unified once more. -/
theorem body_normalized (source : String) :
    body (String.ofList (normalized source)) = unifyLineEnds (body source) := by
  have whole : unifyLineEnds (normalized source) = unifyLineEnds (body source) ++ ['\x00'] :=
    Text.unifyLineEnds_append fun _ => by decide
  rw [body, String.toList_ofList, whole, List.getLast?_concat, if_pos rfl, List.dropLast_concat]

theorem returnFeed_infix_body_iff (source : String) :
    returnFeed <:+: body source ↔ returnFeed <:+: unifyLineEnds source.toList := by
  rw [body]
  split
  · rename_i ends
    obtain ⟨front, whole⟩ := List.getLast?_eq_some_iff.mp ends
    have last : ¬ returnFeed <:+ front ++ ['\x00'] := by
      rintro ⟨front', same⟩
      have ends := congrArg List.getLast? same
      rw [List.getLast?_append, List.getLast?_concat] at ends
      cases ends
    rw [whole, List.dropLast_concat, List.infix_concat_iff, or_iff_right last]
  · rfl

/-- The contents of lexemes can be read again. That gives the same lexemes just where no pair of a
carriage return and a line feed is left of the line ends of the text, which is so unless two carriage
returns stand in front of a line feed. -/
theorem relexed_iff (read : Lexeme.ofSource source = .ok lexemes) :
    ∃ again, Lexeme.ofSource (String.ofList (joined lexemes)) = .ok again ∧
      (again = lexemes ↔ ¬ ['\r', '\n'] <:+: unifyLineEnds source.toList) ∧
      (['\r', '\n'] <:+: unifyLineEnds source.toList ↔ ['\r', '\r', '\n'] <:+: source.toList) := by
  rw [joined_of_ofSource read]
  obtain ⟨pairs, munched⟩ := ((munched_iff_ofSource source).mpr ⟨lexemes, read, rfl⟩).unified
  rw [← body_normalized] at munched
  obtain ⟨again, reread, -⟩ := (munched_iff_ofSource _).mp munched
  refine ⟨again, reread, ?_, Text.returnFeed_infix_unifyLineEnds_iff⟩
  rw [← returnFeed, ← returnFeed_infix_body_iff, ← Text.unifyLineEnds_eq_self_iff, ← body_normalized]
  constructor
  · rintro rfl
    have whole := (joined_of_ofSource reread).symm.trans (joined_of_ofSource read)
    exact List.append_cancel_right whole
  · intro same
    have lexer : ofSource (String.ofList (normalized source)) = ofSource source := by
      rw [ofSource, same, ← ofSource]
    have reread' : ((ofSource (String.ofList (normalized source))).run).1.mapM id = .ok again := reread
    rw [lexer] at reread'
    exact Except.ok.inj (reread'.symm.trans read)

/-- A carriage return in quotes stays, and one in front of a line feed is gone at once. -/
theorem relexed_returns :
    let lexemes : List Lexeme := [⟨.quotedString, ⟨0, 0⟩, ⟨0, 4⟩, "'a\r'"⟩,
      ⟨.newLine, ⟨0, 4⟩, ⟨1, 0⟩, "\n"⟩, ⟨.endOfFile, ⟨1, 0⟩, ⟨1, 1⟩, "\x00"⟩]
    Lexeme.ofSource "'a\r'\r\n" = .ok lexemes ∧
      ¬ ['\r', '\r', '\n'] <:+: "'a\r'\r\n".toList ∧
      Lexeme.ofSource (String.ofList (joined lexemes)) = .ok lexemes := by
  intro lexemes
  have read : Lexeme.ofSource "'a\r'\r\n" = .ok lexemes := by decide
  have single : ¬ ['\r', '\r', '\n'] <:+: "'a\r'\r\n".toList := by decide
  obtain ⟨again, reread, same, left⟩ := relexed_iff read
  obtain rfl := same.mpr (mt left.mp single)
  exact ⟨read, single, reread⟩

/-- Two carriage returns in front of a line feed leave a pair behind, and reading again finds no white
space where there was some. -/
theorem relexed_differs :
    let lexemes : List Lexeme := [⟨.whitespace, ⟨0, 0⟩, ⟨0, 1⟩, "\r"⟩,
      ⟨.newLine, ⟨0, 1⟩, ⟨1, 0⟩, "\n"⟩, ⟨.endOfFile, ⟨1, 0⟩, ⟨1, 1⟩, "\x00"⟩]
    let again : List Lexeme := [⟨.newLine, ⟨0, 0⟩, ⟨1, 0⟩, "\n"⟩,
      ⟨.endOfFile, ⟨1, 0⟩, ⟨1, 1⟩, "\x00"⟩]
    Lexeme.ofSource "\r\r\n" = .ok lexemes ∧
      Lexeme.ofSource (String.ofList (joined lexemes)) = .ok again ∧ again ≠ lexemes ∧
      ['\r', '\n'] <:+: unifyLineEnds "\r\r\n".toList := by
  intro lexemes again
  exact ⟨by decide, by decide, by decide, by decide⟩

end Lexer

end LineConsole
