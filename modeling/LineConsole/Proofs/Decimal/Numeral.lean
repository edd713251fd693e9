import LineConsole.Proofs.Decimal.Integer
import LineConsole.Proofs.Text.Trimming
import Mathlib.Data.Nat.Digits.Defs

/-! # Numerals

A numeral is at least one ASCII digit, behind one sign or none; zeros may lead. The places of the digits
tell what it denotes, so that reading from the first digit on is held against a rule of its own. A text
writes an integer if nothing but blanks is around a numeral of it, and then the reader finds that
integer whatever its size.
-/

namespace LineConsole.Decimal

/-- The number that digits denote by their places, the last one counting ones. -/
def placeValue (digits : List Char) : Nat :=
  Nat.ofDigits 10 (digits.reverse.map fun c => c.toNat - '0'.toNat)

/-- At least one ASCII digit, and nothing else. -/
structure Digits (cs : List Char) : Prop where
  ne_nil : cs ≠ []
  all_digits : ∀ c ∈ cs, c.isDigit = true

/-- The numerals and the integers that they denote. -/
inductive Numeral : List Char → Int → Prop where
  | unsigned {cs : List Char} (digits : Digits cs) : Numeral cs (placeValue cs)
  | plus {cs : List Char} (digits : Digits cs) : Numeral ('+' :: cs) (placeValue cs)
  | minus {cs : List Char} (digits : Digits cs) : Numeral ('-' :: cs) (-placeValue cs)

/-- The text is a numeral of this integer, perhaps between blanks. -/
def Writes (text : String) (i : Int) : Prop :=
  ∃ before numeral after, text.toList = before ++ numeral ++ after ∧
    Text.Blanks before ∧ Text.Blanks after ∧ Numeral numeral i

variable {cs : List Char} {i : Int}

/-! ## Digits -/

/-- A first digit counts as many times as its place says. -/
theorem placeValue_cons (c : Char) (cs : List Char) :
    placeValue (c :: cs) = 10 ^ cs.length * (c.toNat - '0'.toNat) + placeValue cs := by
  simp only [placeValue, List.reverse_cons, List.map_append, List.map_singleton,
    Nat.ofDigits_append, Nat.ofDigits_singleton, List.length_map, List.length_reverse]
  exact Nat.add_comm _ _

/-- By induction on the digits: what stands in front of them moves up by their number of places. -/
theorem natFrom_eq_add_placeValue (high : Nat) (cs : List Char) :
    natFrom high cs = 10 ^ cs.length * high + placeValue cs := by
  rw [natFrom_eq_ofDigitChars]
  induction cs generalizing high with
  | nil => rw [Nat.ofDigitChars_nil, List.length_nil, Nat.pow_zero, Nat.one_mul]; rfl
  | cons c cs ih =>
    rw [Nat.ofDigitChars_cons, ih, placeValue_cons, List.length_cons]
    ring

theorem readNat?_eq_some_iff {n : Nat} : readNat? cs = some n ↔ Digits cs ∧ placeValue cs = n := by
  rw [readNat?, natFrom_eq_add_placeValue, Nat.mul_zero, Nat.zero_add]
  split
  · rename_i refused
    refine iff_of_false (Option.some_ne_none n).symm ?_
    rintro ⟨digits, -⟩
    rcases Bool.or_eq_true_iff.mp refused with empty | other
    · exact digits.ne_nil (List.isEmpty_iff.mp empty)
    · rw [List.all_eq_true.mpr digits.all_digits] at other
      cases other
  · rename_i taken
    simp only [Bool.or_eq_true, not_or, Bool.not_eq_true, Bool.not_eq_false'] at taken
    have digits : Digits cs :=
      ⟨List.isEmpty_eq_false_iff.mp taken.1, List.all_eq_true.mp taken.2⟩
    rw [Option.some_inj]
    exact (and_iff_right digits).symm

/-! ## Signs -/

theorem readInt?_eq_some_iff : readInt? cs = some i ↔ Numeral cs i := by
  constructor
  · intro read
    unfold readInt? at read
    split at read
    all_goals
      obtain ⟨_, number, rfl⟩ := Option.map_eq_some_iff.mp read
      obtain ⟨n, number, same⟩ := Option.bind_eq_some_iff.mp number
      obtain ⟨digits, rfl⟩ := readNat?_eq_some_iff.mp number
      cases same
    · exact .minus digits
    · exact .plus digits
    · exact .unsigned digits
  · intro numeral
    cases numeral with
    | unsigned digits =>
      obtain ⟨c, rest, same⟩ := List.exists_cons_of_ne_nil digits.ne_nil
      have first : c.isDigit := digits.all_digits c (same ▸ List.mem_cons_self)
      rw [same, readInt?_of_head_isDigit first, ← same, readNat?_eq_some_iff.mpr ⟨digits, rfl⟩]
      rfl
    | plus digits | minus digits =>
      rw [readInt?, readNat?_eq_some_iff.mpr ⟨digits, rfl⟩]
      rfl

/-- No blank stands in a numeral. -/
theorem Numeral.inked (numeral : Numeral cs i) : ∀ c ∈ cs, Text.isBlank c = false := by
  cases numeral with
  | unsigned digits => exact fun c there => Text.isBlank_of_isDigit (digits.all_digits c there)
  | plus digits | minus digits =>
    refine List.forall_mem_cons.mpr ⟨by decide, fun c there => ?_⟩
    exact Text.isBlank_of_isDigit (digits.all_digits c there)

/-! ## Blanks around -/

theorem readInt?_trim_eq_some_iff {text : String} :
    readInt? (Text.trim text.toList) = some i ↔ Writes text i := by
  constructor
  · intro read
    obtain ⟨before, after, front, back, whole⟩ := Text.exists_blanks_around text.toList
    exact ⟨before, Text.trim text.toList, after, whole, front, back, readInt?_eq_some_iff.mp read⟩
  · rintro ⟨before, numeral, after, whole, front, back, denotes⟩
    have alone : Text.trim numeral = numeral :=
      Text.trim_of_inked (fun c first => denotes.inked c (List.mem_of_mem_head? first))
        fun c last => denotes.inked c (List.mem_of_mem_getLast? last)
    rw [whole, Text.trim_append_blanks back, Text.trim_blanks_append front, alone]
    exact readInt?_eq_some_iff.mpr denotes

/-- The text of an integer writes it. -/
theorem writes_intText (i : Int) : Writes (intText i) i :=
  ⟨[], (intText i).toList, [], (List.append_nil _).symm, nofun, nofun,
    readInt?_eq_some_iff.mp (readInt?_intText i)⟩

/-! ## Sixty-four bits -/

theorem int64?_eq_some_iff {n : Int64} : int64? i = some n ↔ n.toInt = i := by
  constructor
  · intro fits
    obtain ⟨⟨low, high⟩, same⟩ := Option.ite_none_right_eq_some.mp fits
    rw [← Option.some.inj same]
    exact Int64.toInt_ofInt_of_le low (Int.lt_of_le_of_lt high (by decide))
  · rintro rfl
    exact int64?_toInt n

/-- The integers that sixty-four bits with a sign hold. -/
theorem exists_int64_iff : (∃ n : Int64, n.toInt = i) ↔ -2 ^ 63 ≤ i ∧ i ≤ 2 ^ 63 - 1 := by
  constructor
  · rintro ⟨n, rfl⟩
    exact ⟨Int64.minValue_le_toInt n, Int64.toInt_le n⟩
  · rintro ⟨low, high⟩
    exact ⟨Int64.ofInt i, Int64.toInt_ofInt_of_le low (by omega)⟩

end LineConsole.Decimal
