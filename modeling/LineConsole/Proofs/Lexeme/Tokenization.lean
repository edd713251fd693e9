import LineConsole.Proofs.Lexeme.Front
import Mathlib.Data.List.Chain

/-! # The only tokenization

Which lists of kinds and contents split a text is said without reading it: the contents are the text,
each matches its kind, and of two next to each other the first does not go on into the second. A
lexeme ends where its kind does exactly if it does not go on into the next one, so that such a list
is read off the front lexeme by lexeme, and there is no other.
-/

namespace LineConsole

namespace Lexeme

/-- A lexeme does not go on into the next one: white space is not followed by white space, a word not
by a word or a quote, and an operator not by the character that upgrades it. -/
structure Apart (pair next : LexemeKind × String) : Prop where
  blank : pair.1 = .whitespace → next.1 ≠ .whitespace
  word : pair.1.IsWord → ¬ next.1.IsWord ∧ next.1 ≠ .quotedString
  operator : ∀ c, pair.1.upgrade? = some c → next.2.toList.head? ≠ some c

/-- The kinds and contents of lexemes that a text splits into, the closing NUL last. -/
structure Tokenization (text : List Char) (pairs : List (LexemeKind × String)) : Prop where
  joined : pairs.flatMap (·.2.toList) = text
  fits : ∀ pair ∈ pairs, Matches pair.1 pair.2.toList
  ends : ∃ inner, pairs = inner ++ [(.endOfFile, "\x00")] ∧ ∀ pair ∈ inner, pair.1 ≠ .endOfFile
  apart : pairs.IsChain Apart

variable {kind : LexemeKind} {pair next : LexemeKind × String} {cs rest : List Char}
  {pairs : List (LexemeKind × String)}

/-! ## Where lexemes end -/

theorem stopsAt_nil : StopsAt kind [] where
  blank _ := nofun
  word _ := nofun
  operator _ _ := nofun

theorem apart_endOfFile : Apart pair (.endOfFile, "\x00") where
  blank _ := by decide
  word _ := by decide
  operator c upgrade := by
    rintro ⟨⟩
    cases kind : pair.1 <;> rw [kind] at upgrade <;> cases upgrade

/-- Where a lexeme ends is told by the kind of the next one, which its first character tells. -/
theorem stopsAt_append_iff (fits : Matches next.1 next.2.toList) (inner : next.1 ≠ .endOfFile) :
    StopsAt pair.1 (next.2.toList ++ rest) ↔ Apart pair next := by
  obtain ⟨c, cs, content⟩ := fits.exists_cons
  rw [content] at fits ⊢
  have space := fits.isSpace_iff
  have boundary := fits.isBoundary_iff inner
  rw [← Bool.not_eq_true, not_iff_comm, not_or] at boundary
  constructor
  · intro stops
    refine ⟨fun same blank => ?_, fun word => boundary.mpr (stops.word word c rfl), ?_⟩
    · exact absurd (space.mpr blank) (by simp [stops.blank same c rfl])
    · rw [content]
      exact stops.operator
  · intro apart
    refine ⟨fun same => ?_, fun word => ?_, ?_⟩
    · rintro _ ⟨⟩
      exact Bool.eq_false_iff.mpr (mt space.mp (apart.blank same))
    · rintro _ ⟨⟩
      exact boundary.mp (apart.word word)
    · have operator := apart.operator
      rw [content] at operator
      exact operator

/-! ## From the front -/

/-- A text without its closing NUL falls into lexemes, each of which ends where its kind does. -/
inductive Munched : List Char → List (LexemeKind × String) → Prop where
  | last : Munched [] [(.endOfFile, "\x00")]
  | lexeme {kind : LexemeKind} {content : String} {rest : List Char}
      {later : List (LexemeKind × String)} (inner : kind ≠ .endOfFile)
      (fits : Matches kind content.toList) (stops : StopsAt kind rest) (munched : Munched rest later) :
      Munched (content.toList ++ rest) ((kind, content) :: later)

theorem munched_nil_iff :
    Munched [] pairs ↔ pairs = [(.endOfFile, "\x00")] := by
  constructor
  · intro munched
    generalize text : ([] : List Char) = cs at munched
    cases munched with
    | last => rfl
    | lexeme inner fits stops munched =>
      obtain ⟨c, cs, same⟩ := fits.exists_cons
      rw [same] at text
      cases text
  · rintro rfl
    exact .last

/-- What a text falls into begins with what is read off its front. -/
theorem munched_cons_iff {c : Char} :
    Munched (c :: cs) pairs ↔ ∃ kind content rest remarks later,
      front (c :: cs) = .lexeme kind content rest remarks ∧
      pairs = (kind, String.ofList content) :: later ∧ Munched rest later := by
  constructor
  · intro munched
    generalize text : c :: cs = whole at munched
    cases munched with
    | last => cases text
    | @lexeme kind content rest later inner fits stops munched =>
      obtain ⟨remarks, found⟩ := front_eq_lexeme_iff.mpr ⟨inner, text.symm, fits, stops⟩
      exact ⟨kind, content.toList, rest, remarks, later, text ▸ found, by rw [String.ofList_toList], munched⟩
  · rintro ⟨kind, content, rest, remarks, later, found, rfl, munched⟩
    obtain ⟨inner, text, fits, stops⟩ := front_eq_lexeme_iff.mp ⟨remarks, found⟩
    rw [← String.toList_ofList (l := content)] at fits
    have whole := Munched.lexeme inner fits stops munched
    rwa [String.toList_ofList, text] at whole

theorem Munched.tokenization (munched : Munched cs pairs) : Tokenization (cs ++ ['\x00']) pairs := by
  induction munched with
  | last => exact ⟨rfl, by simp [Matches, LexemeKind.spelling?], ⟨[], rfl, nofun⟩, .singleton _⟩
  | @lexeme kind content rest later inner fits stops munched ih =>
    refine ⟨?_, List.forall_mem_cons.mpr ⟨fits, ih.fits⟩, ?_, List.isChain_cons.mpr ⟨?_, ih.apart⟩⟩
    · rw [List.flatMap_cons, ih.joined, List.append_assoc]
    · obtain ⟨front, rfl, others⟩ := ih.ends
      exact ⟨(kind, content) :: front, rfl, List.forall_mem_cons.mpr ⟨inner, others⟩⟩
    · rintro _ first
      cases munched with
      | last =>
        cases first
        exact apart_endOfFile
      | lexeme inner fits =>
        cases first
        exact (stopsAt_append_iff fits inner).mp stops

/-- By induction on the lexemes in front of the closing NUL. -/
theorem munched_of_apart {inner : List (LexemeKind × String)}
    (others : ∀ pair ∈ inner, pair.1 ≠ .endOfFile) (fits : ∀ pair ∈ inner, Matches pair.1 pair.2.toList)
    (apart : List.IsChain Apart (inner ++ [(.endOfFile, "\x00")])) :
    Munched (inner.flatMap (·.2.toList)) (inner ++ [(.endOfFile, "\x00")]) := by
  induction inner with
  | nil => exact .last
  | cons pair inner ih =>
    obtain ⟨other, others⟩ := List.forall_mem_cons.mp others
    obtain ⟨fit, fits⟩ := List.forall_mem_cons.mp fits
    obtain ⟨next, apart⟩ := List.isChain_cons.mp apart
    refine .lexeme other fit ?_ (ih others fits apart)
    cases inner with
    | nil => exact stopsAt_nil
    | cons pair' inner =>
      exact (stopsAt_append_iff (fits pair' List.mem_cons_self) (others pair' List.mem_cons_self)).mpr
        (next pair' rfl)

theorem tokenization_iff_munched :
    Tokenization (cs ++ ['\x00']) pairs ↔ Munched cs pairs := by
  refine ⟨fun split => ?_, Munched.tokenization⟩
  obtain ⟨inner, rfl, others⟩ := split.ends
  have whole : inner.flatMap (·.2.toList) ++ ['\x00'] = cs ++ ['\x00'] := by
    rw [← split.joined, List.flatMap_append]
    rfl
  rw [← List.append_cancel_right whole]
  exact munched_of_apart others (fun pair there => split.fits pair (List.mem_append_left _ there)) split.apart

end Lexeme

namespace Lexer

open Lexeme

theorem mapM_ok_cons {lexeme : Lexeme} {items : List (Except Fault Lexeme)} {lexemes : List Lexeme} :
    (.ok lexeme :: items).mapM id = .ok lexemes ↔
      ∃ later, items.mapM id = .ok later ∧ lexemes = lexeme :: later := by
  rw [List.mapM_cons]
  cases items.mapM id with
  | error fault => exact iff_of_false nofun (by rintro ⟨later, same, -⟩; cases same)
  | ok later =>
    constructor
    · rintro ⟨⟩
      exact ⟨later, rfl, rfl⟩
    · rintro ⟨_, ⟨⟩, rfl⟩
      rfl

/-- One item more than there are characters: the lexemes read are all that the text falls into, and
where an error is read it does not fall into lexemes. -/
theorem munched_iff_take (l : Lexer) (going : l.finished = false) {count : Nat}
    (enough : l.rest.length < count) {pairs : List (LexemeKind × String)} :
    Munched l.rest pairs ↔ ∃ lexemes, (l.take count).1.mapM id = .ok lexemes ∧
      pairs = lexemes.map fun lexeme => (lexeme.kind, lexeme.content) := by
  induction count generalizing l pairs with
  | zero => omega
  | succ count ih =>
    simp only [take, next?, going, Bool.false_eq_true, if_false]
    cases text : l.rest with
    | nil =>
      simp only [front, take_of_finished, decide_true, munched_nil_iff]
      constructor
      · rintro rfl
        exact ⟨_, rfl, rfl⟩
      · rintro ⟨_, ⟨⟩, rfl⟩
        rfl
    | cons c cs =>
      rw [munched_cons_iff]
      cases found : front (c :: cs) with
      | unterminated remarks =>
        constructor
        · rintro ⟨_, _, _, _, _, ⟨⟩, -⟩
        · rintro ⟨_, ⟨⟩, -⟩
      | lexeme kind content rest remarks =>
        have inner := (front_cons_eq_lexeme found).2
        have shorter : rest.length < count := by
          have behind := length_lt_of_front found
          rw [text] at enough
          omega
        have later (pairs : List (LexemeKind × String)) : Munched rest pairs ↔ _ := ih ⟨rest,
          l.location.advance content, l.diagnostics ++ remarks.map l.warning, decide (kind = .endOfFile)⟩
          (decide_eq_false inner) shorter
        simp only [mapM_ok_cons]
        constructor
        · rintro ⟨_, _, _, _, behind, ⟨⟩, rfl, munched⟩
          obtain ⟨lexemes, read, rfl⟩ := (later _).mp munched
          exact ⟨_, ⟨lexemes, read, rfl⟩, rfl⟩
        · rintro ⟨_, ⟨lexemes, read, rfl⟩, rfl⟩
          exact ⟨_, _, _, _, _, rfl, rfl, (later _).mpr ⟨lexemes, read, rfl⟩⟩

/-- The kinds and contents of the lexemes of a text are the one list that it splits into, and a text
that has an error splits into none. -/
theorem tokenization_iff (source : String) (pairs : List (LexemeKind × String)) :
    Tokenization (terminated (Text.unifyLineEnds source.toList)) pairs ↔
      ∃ lexemes, Lexeme.ofSource source = .ok lexemes ∧
        pairs = lexemes.map fun lexeme => (lexeme.kind, lexeme.content) := by
  rw [← normalized_eq_terminated, normalized, tokenization_iff_munched]
  exact munched_iff_take (ofSource source) rfl (Nat.lt_succ_self _)

end Lexer

end LineConsole
