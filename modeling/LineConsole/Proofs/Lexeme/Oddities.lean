import LineConsole.Proofs.Lexeme.Front

/-! # What is odd about a lexeme

Between quotes a backslash takes the next character with it, which is odd if the two have no meaning;
in a word a NUL is odd. Whether a backslash takes a character or is taken is told by how many
backslashes stand in front of it. The remarks that come with a lexeme are one for each oddity of its
content, in their order; those about a quote that is not closed are about the rest of its line.
-/

namespace LineConsole

namespace Lexeme

open Text (EndsPaired)

/-- A backslash that none in front of it takes, with the character that it takes. -/
structure PairAt (cs : List Char) (offset : Nat) (c : Char) : Prop where
  slash : cs[offset]? = some '\\'
  free : EndsPaired (cs.take offset)
  taken : cs[offset + 1]? = some c

/-- A backslash pair without a meaning. -/
def StrayPair (cs : List Char) (remark : Remark) : Prop :=
  ∃ c, PairAt cs remark.offset c ∧ c ∉ ['\\', '"', '\'', 'n', 't', 'r', '0', '$'] ∧
    remark.message = String.ofList ("unrecognized escape sequence '\\".toList ++ [c, '\''])

def EmbeddedNul (cs : List Char) (remark : Remark) : Prop :=
  cs[remark.offset]? = some '\x00' ∧ remark.message = "embedded NUL character"

/-- What is odd about a lexeme of a kind. -/
def Oddity (kind : LexemeKind) (content : List Char) (remark : Remark) : Prop :=
  kind = .quotedString ∧ StrayPair content remark ∨ kind.IsWord ∧ EmbeddedNul content remark

/-- A remark with that many characters more in front of it. -/
def Remark.behind (remark : Remark) (count : Nat) : Remark := ⟨remark.offset + count, remark.message⟩

/-- The remarks with that many characters more in front of them. -/
def Behind (count : Nat) (remarks : Remark → Prop) (remark : Remark) : Prop :=
  ∃ earlier, remarks earlier ∧ remark = earlier.behind count

/-- Each remark is about a later character than those before it. -/
def InOrder (remarks : List Remark) : Prop := remarks.Pairwise (·.offset < ·.offset)

variable {quote c d : Char} {cs rest content : List Char} {offset i j : Nat} {remark : Remark}
  {kind : LexemeKind} {remarks : Remark → Prop}

theorem Remark.behind_behind (remark : Remark) (i j : Nat) :
    (remark.behind j).behind i = remark.behind (i + j) := by
  rw [Remark.behind, Remark.behind, Remark.behind, Nat.add_assoc, Nat.add_comm j i]

theorem behind_behind : Behind i (Behind j remarks) remark ↔ Behind (i + j) remarks remark := by
  constructor
  · rintro ⟨_, ⟨earlier, there, rfl⟩, rfl⟩
    exact ⟨earlier, there, earlier.behind_behind i j⟩
  · rintro ⟨earlier, there, rfl⟩
    exact ⟨_, ⟨earlier, there, rfl⟩, (earlier.behind_behind i j).symm⟩

theorem Behind.le (behind : Behind i remarks remark) : i ≤ remark.offset := by
  obtain ⟨earlier, -, rfl⟩ := behind
  exact Nat.le_add_left _ _

/-! ## Backslash pairs -/

theorem pairAt_zero : PairAt ('\\' :: c :: cs) 0 d ↔ c = d :=
  ⟨fun pair => Option.some.inj pair.taken, fun same => ⟨rfl, Text.endsPaired_nil, congrArg some same⟩⟩

theorem not_pairAt_one : ¬ PairAt ('\\' :: cs) 1 d := fun pair => Text.not_endsPaired_slash pair.free

theorem pairAt_add_two : PairAt ('\\' :: c :: cs) (i + 2) d ↔ PairAt cs i d := by
  constructor
  · rintro ⟨slash, free, taken⟩
    exact ⟨slash, Text.endsPaired_pair.mp free, taken⟩
  · rintro ⟨slash, free, taken⟩
    exact ⟨slash, Text.endsPaired_pair.mpr free, taken⟩

theorem not_pairAt_zero (slash : c ≠ '\\') : ¬ PairAt (c :: cs) 0 d := fun pair =>
  slash (Option.some.inj pair.slash)

theorem pairAt_succ (slash : c ≠ '\\') : PairAt (c :: cs) (i + 1) d ↔ PairAt cs i d := by
  constructor
  · rintro ⟨there, free, taken⟩
    exact ⟨there, (Text.endsPaired_cons slash).mp free, taken⟩
  · rintro ⟨there, free, taken⟩
    exact ⟨there, (Text.endsPaired_cons slash).mpr free, taken⟩

theorem not_strayPair_of_short (short : cs.length ≤ 1) : ¬ StrayPair cs remark := by
  rintro ⟨c, ⟨-, -, taken⟩, -⟩
  have within := (List.getElem?_eq_some_iff.mp taken).1
  omega

theorem strayPair_cons (slash : c ≠ '\\') :
    StrayPair (c :: cs) remark ↔ Behind 1 (StrayPair cs) remark := by
  constructor
  · rintro ⟨d, pair, stray, message⟩
    obtain ⟨offset, _⟩ := remark
    cases offset with
    | zero => exact absurd pair (not_pairAt_zero slash)
    | succ i => exact ⟨⟨i, _⟩, ⟨d, (pairAt_succ slash).mp pair, stray, message⟩, rfl⟩
  · rintro ⟨earlier, ⟨d, pair, stray, message⟩, rfl⟩
    exact ⟨d, (pairAt_succ slash).mpr pair, stray, message⟩

/-- A remark about the pair of a backslash and a character. -/
def strayRemark (c : Char) : Remark :=
  ⟨0, String.ofList ("unrecognized escape sequence '\\".toList ++ [c, '\''])⟩

theorem strayPair_pair :
    StrayPair ('\\' :: c :: cs) remark ↔
      isKnownEscape c = false ∧ remark = strayRemark c ∨ Behind 2 (StrayPair cs) remark := by
  have known : isKnownEscape c = false ↔ c ∉ ['\\', '"', '\'', 'n', 't', 'r', '0', '$'] := by
    rw [isKnownEscape, ← Bool.not_eq_true, List.contains_iff_mem]
  rw [known]
  constructor
  · rintro ⟨d, pair, stray, message⟩
    obtain ⟨offset, _⟩ := remark
    match offset with
    | 0 =>
      obtain rfl := pairAt_zero.mp pair
      exact .inl ⟨stray, congrArg (Remark.mk 0) message⟩
    | 1 => exact absurd pair not_pairAt_one
    | i + 2 => exact .inr ⟨⟨i, _⟩, ⟨d, pairAt_add_two.mp pair, stray, message⟩, rfl⟩
  · rintro (⟨stray, rfl⟩ | ⟨earlier, ⟨d, pair, stray, message⟩, rfl⟩)
    · exact ⟨c, pairAt_zero.mpr rfl, stray, rfl⟩
    · exact ⟨d, pairAt_add_two.mpr pair, stray, message⟩

/-! ## Quotes -/

/-- What stands behind an opening quote: up to the closing one, or up to the end of the line if there
is none. -/
def quotedPart (quote : Char) (cs : List Char) : List Char :=
  match quotedRun quote cs with
  | some (run, _) => run
  | none => restOfLine cs

theorem quotedPart_pair (inside : c ≠ '\n') :
    quotedPart quote ('\\' :: c :: cs) = '\\' :: c :: quotedPart quote cs := by
  rw [quotedPart, quotedRun, quotedPart]
  · cases quotedRun quote cs with
    | none => exact (restOfLine_cons (by decide) _).trans (congrArg _ (restOfLine_cons inside _))
    | some found => rfl
  · exact inside

theorem quotedPart_cons (slash : c ≠ '\\') (other : c ≠ quote) (inside : c ≠ '\n') :
    quotedPart quote (c :: cs) = c :: quotedPart quote cs := by
  rw [quotedPart, quotedRun, if_neg other, quotedPart]
  · cases quotedRun quote cs with
    | none => exact restOfLine_cons inside _
    | some found => rfl
  all_goals simp [slash, inside]

theorem quotedPart_quote (slash : quote ≠ '\\') (line : quote ≠ '\n') :
    quotedPart quote (quote :: cs) = [quote] := by
  rw [quotedPart, quotedRun, if_pos rfl]
  all_goals simp [slash, line]

theorem not_behind_strayPair (short : cs.length ≤ 1) : ¬ Behind offset (StrayPair cs) remark := by
  rintro ⟨earlier, stray, -⟩
  exact not_strayPair_of_short short stray

theorem behind_strayPair_pair :
    Behind offset (StrayPair ('\\' :: c :: cs)) remark ↔
      isKnownEscape c = false ∧ remark = (strayRemark c).behind offset ∨
        Behind (offset + 2) (StrayPair cs) remark := by
  rw [← behind_behind]
  constructor
  · rintro ⟨earlier, stray, rfl⟩
    rcases strayPair_pair.mp stray with ⟨unknown, rfl⟩ | later
    · exact .inl ⟨unknown, rfl⟩
    · exact .inr ⟨earlier, later, rfl⟩
  · rintro (⟨unknown, rfl⟩ | ⟨earlier, later, rfl⟩)
    · exact ⟨_, strayPair_pair.mpr (.inl ⟨unknown, rfl⟩), rfl⟩
    · exact ⟨earlier, strayPair_pair.mpr (.inr later), rfl⟩

theorem behind_strayPair_cons (slash : c ≠ '\\') :
    Behind offset (StrayPair (c :: cs)) remark ↔ Behind (offset + 1) (StrayPair cs) remark := by
  rw [← behind_behind]
  constructor <;> rintro ⟨earlier, stray, rfl⟩
  · exact ⟨earlier, (strayPair_cons slash).mp stray, rfl⟩
  · exact ⟨earlier, (strayPair_cons slash).mpr stray, rfl⟩

/-- By induction along the quoted part: the remarks are about its backslash pairs without a meaning. -/
theorem mem_quotedRemarks :
    remark ∈ quotedRemarks quote offset cs ↔ Behind offset (StrayPair (quotedPart quote cs)) remark := by
  have none {offset : Nat} {part : List Char} (short : part.length ≤ 1) :
      remark ∈ [] ↔ Behind offset (StrayPair part) remark :=
    iff_of_false List.not_mem_nil (not_behind_strayPair short)
  fun_induction quotedRemarks quote offset cs with
  | case1 | case2 | case3 | case4 => exact none (by simp [quotedPart, quotedRun, restOfLine])
  | case5 offset c rest inside later known ih =>
    rw [quotedPart_pair inside, behind_strayPair_pair, known]
    exact ih.trans (by simp)
  | case6 offset c rest inside later unknown ih =>
    rw [quotedPart_pair inside, behind_strayPair_pair, List.mem_cons]
    exact or_congr (by simp [unknown, strayRemark, Remark.behind]) ih
  | case7 offset rest line single feed pair =>
    rw [quotedPart_quote (Text.ne_slash single pair) line]
    exact none (Nat.le_refl 1)
  | case8 offset c rest line single feed pair other ih =>
    have slash : c ≠ '\\' := Text.ne_slash single pair
    rw [quotedPart_cons slash other line, behind_strayPair_cons slash]
    exact ih

theorem inOrder_quotedRemarks : InOrder (quotedRemarks quote offset cs) := by
  fun_induction quotedRemarks quote offset cs with
  | case6 offset c rest inside later unknown ih =>
    refine List.pairwise_cons.mpr ⟨fun remark there => ?_, ih⟩
    have le := (mem_quotedRemarks.mp there).le
    simp only
    omega
  | case5 | case8 => assumption
  | _ => exact .nil

/-! ## Lexemes -/

theorem mem_wordRemarks : remark ∈ wordRemarks cs ↔ EmbeddedNul cs remark := by
  simp only [wordRemarks, List.mem_map, List.mem_filter, decide_eq_true_eq, Prod.exists,
    List.mk_mem_zipIdx_iff_getElem?]
  constructor
  · rintro ⟨c, i, ⟨there, rfl⟩, rfl⟩
    exact ⟨there, rfl⟩
  · rintro ⟨there, message⟩
    exact ⟨_, _, ⟨there, rfl⟩, congrArg (Remark.mk remark.offset) message.symm⟩

theorem inOrder_wordRemarks : InOrder (wordRemarks cs) := by
  have offsets : (cs.zipIdx.map (·.2)).Pairwise (· < ·) := by
    rw [List.zipIdx_map_snd]
    exact List.pairwise_lt_range' 1
  exact List.pairwise_map.mpr ((List.pairwise_map.mp offsets).sublist List.filter_sublist)

theorem oddity_of_plain (quoted : kind ≠ .quotedString) (word : ¬ kind.IsWord) :
    InOrder [] ∧ ∀ remark, remark ∈ [] ↔ Oddity kind content remark := by
  refine ⟨.nil, fun remark => iff_of_false List.not_mem_nil ?_⟩
  rintro (⟨same, -⟩ | ⟨same, -⟩)
  · exact quoted same
  · exact word same

theorem symbol_plain (found : symbol? c = some kind) : kind ≠ .quotedString ∧ ¬ kind.IsWord := by
  unfold symbol? at found
  split at found <;> cases found <;> decide

theorem operator_plain {op : Operator} (found : operator? c = some op) :
    (op.single ≠ .quotedString ∧ ¬ op.single.IsWord) ∧
      op.double ≠ .quotedString ∧ ¬ op.double.IsWord := by
  unfold operator? at found
  split at found <;> cases found <;> decide

/-- A quote is a part of its text that is not odd. -/
theorem mem_quotedRemarks_one (opens : isQuote quote = true) :
    remark ∈ quotedRemarks quote 1 cs ↔ StrayPair (quote :: quotedPart quote cs) remark := by
  rw [mem_quotedRemarks, strayPair_cons (ne_of_isQuote opens).1]

/-- The remarks that come with a lexeme are its oddities, in their order. -/
theorem oddity_of_front {remarks : List Remark}
    (found : front (c :: cs) = .lexeme kind content rest remarks) :
    InOrder remarks ∧ ∀ remark, remark ∈ remarks ↔ Oddity kind content remark := by
  by_cases line : c = '\n'
  · subst line
    cases found
    exact oddity_of_plain (by decide) (by decide)
  cases space : isSpace c with
  | true =>
    rw [front_of_space space] at found
    cases found
    exact oddity_of_plain (by decide) (by decide)
  | false =>
  cases symbol : symbol? c with
  | some kind' =>
    rw [front_of_symbol symbol] at found
    cases found
    exact oddity_of_plain (symbol_plain symbol).1 (symbol_plain symbol).2
  | none =>
  cases operator : operator? c with
  | some op =>
    rw [front_of_operator operator] at found
    obtain ⟨single, double⟩ := operator_plain operator
    split at found <;> cases found
    · exact oddity_of_plain double.1 double.2
    · exact oddity_of_plain single.1 single.2
  | none =>
  have inside : isBoundary c = false := isBoundary_eq_false_iff.mpr ⟨line, space, symbol, operator⟩
  cases quote : isQuote c with
  | true =>
    rw [front_of_quote quote] at found
    split at found
    · rename_i run left closed
      cases found
      have part : quotedPart c cs = run := by rw [quotedPart, closed]
      refine ⟨inOrder_quotedRemarks, fun remark => (mem_quotedRemarks_one quote).trans ?_⟩
      rw [part]
      refine ⟨fun stray => .inl ⟨rfl, stray⟩, fun odd => odd.elim And.right fun word => ?_⟩
      exact absurd word.1 (by decide)
    · cases found
  | false =>
    rw [front_of_word inside quote] at found
    obtain ⟨rfl, rfl, -, rfl⟩ := Front.lexeme.inj found
    refine ⟨inOrder_wordRemarks, fun remark => mem_wordRemarks.trans ?_⟩
    have word := isWord_wordKind ((c :: cs).takeWhile (!isBoundary ·))
    refine ⟨fun nul => .inr ⟨word, nul⟩, fun odd => odd.elim (fun quoted => ?_) And.right⟩
    rw [quoted.1] at word
    exact absurd word (by decide)

/-- The remarks about an open quote are about the backslash pairs on the rest of its line. -/
theorem strayPair_of_unterminated {remarks : List Remark}
    (found : front (c :: cs) = .unterminated remarks) :
    InOrder remarks ∧ ∀ remark, remark ∈ remarks ↔ StrayPair (c :: restOfLine cs) remark := by
  obtain ⟨quote, rest, text, opens, -⟩ := front_eq_unterminated found
  obtain ⟨rfl, rfl⟩ := List.cons.inj text
  rw [front_of_quote opens] at found
  split at found
  · cases found
  · rename_i unclosed
    cases found
    have part : quotedPart c cs = restOfLine cs := by rw [quotedPart, unclosed]
    exact ⟨inOrder_quotedRemarks, fun remark => part ▸ mem_quotedRemarks_one opens⟩

theorem StrayPair.lt (stray : StrayPair cs remark) : remark.offset < cs.length := by
  obtain ⟨c, pair, -⟩ := stray
  exact (List.getElem?_eq_some_iff.mp pair.slash).1

theorem Oddity.lt (odd : Oddity kind content remark) : remark.offset < content.length := by
  rcases odd with ⟨-, stray⟩ | ⟨-, nul, -⟩
  · exact stray.lt
  · exact (List.getElem?_eq_some_iff.mp nul).1

end Lexeme

end LineConsole
