import LineConsole.Decimal.Integer

/-! # Integers as texts and back

The decimal text of an integer is read as that integer again, and an integer of a fixed width fits
into its width. The characters of such a text are digits and perhaps a sign, none of which means
anything where the text stands.
-/

namespace LineConsole.Decimal

private theorem natFrom_cons (high : Nat) (c : Char) (cs : List Char) :
    natFrom high (c :: cs) = natFrom (high * 10 + (c.toNat - 48)) cs := (rfl)

theorem natFrom_eq_ofDigitChars (high : Nat) (cs : List Char) :
    natFrom high cs = Nat.ofDigitChars 10 cs high := by
  induction cs generalizing high with
  | nil => exact Nat.ofDigitChars_nil.symm
  | cons c cs ih =>
    have digit : ('0' : Char).toNat = 48 := by decide
    rw [natFrom_cons, ih, Nat.ofDigitChars_cons, Nat.mul_comm 10 high, digit]

theorem readNat?_toDigits (n : Nat) : readNat? (Nat.toDigits 10 n) = some n := by
  have some : (Nat.toDigits 10 n).isEmpty = false := by
    rw [List.isEmpty_eq_false_iff]
    exact Nat.toDigits_ne_nil
  have digits : (Nat.toDigits 10 n).all Char.isDigit = true :=
    List.all_eq_true.mpr fun c there => Nat.isDigit_of_mem_toDigits (by decide) (by decide) there
  rw [readNat?, some, digits, natFrom_eq_ofDigitChars, Nat.ofDigitChars_ten_toDigits]
  rfl

/-- A text that begins with a digit has no sign. -/
theorem readInt?_of_head_isDigit {c : Char} {cs : List Char} (digit : c.isDigit) :
    readInt? (c :: cs) = (readNat? (c :: cs)).map fun n => (n : Int) := by
  have minus : c ≠ '-' := by
    rintro rfl
    exact absurd digit (by decide)
  have plus : c ≠ '+' := by
    rintro rfl
    exact absurd digit (by decide)
  unfold readInt?
  split
  · rename_i same
    exact absurd (List.cons.inj same).1 minus
  · rename_i same
    exact absurd (List.cons.inj same).1 plus
  · rfl

theorem readInt?_intText (i : Int) : readInt? (intText i).toList = some i := by
  cases i with
  | ofNat n =>
    rw [intText, natText, String.toList_ofList]
    obtain ⟨c, cs, same⟩ := List.exists_cons_of_ne_nil (Nat.toDigits_ne_nil (n := n) (b := 10))
    have digit : c.isDigit := by
      refine Nat.isDigit_of_mem_toDigits (b := 10) (n := n) (by decide) (by decide) ?_
      rw [same]
      exact List.mem_cons_self
    rw [same, readInt?_of_head_isDigit digit, ← same, readNat?_toDigits]
    rfl
  | negSucc n =>
    rw [intText, String.toList_ofList, readInt?, readNat?_toDigits]
    rfl

/-- The text of an integer is not empty and holds digits and at most a sign. -/
theorem mem_intText {i : Int} {c : Char} (there : c ∈ (intText i).toList) :
    c = '-' ∨ c.isDigit := by
  cases i with
  | ofNat n =>
    rw [intText, natText, String.toList_ofList] at there
    exact .inr (Nat.isDigit_of_mem_toDigits (by decide) (by decide) there)
  | negSucc n =>
    rw [intText, String.toList_ofList] at there
    rcases List.mem_cons.mp there with sign | there
    · exact .inl sign
    · exact .inr (Nat.isDigit_of_mem_toDigits (by decide) (by decide) there)

theorem intText_ne_nil (i : Int) : (intText i).toList ≠ [] := by
  intro none
  have read := readInt?_intText i
  rw [none] at read
  cases read

theorem int32?_toInt (n : Int32) : int32? n.toInt = some n := by
  rw [int32?, if_pos ⟨Int32.minValue_le_toInt n, Int32.toInt_le n⟩, Int32.ofInt_toInt]

theorem int64?_toInt (n : Int64) : int64? n.toInt = some n := by
  rw [int64?, if_pos ⟨Int64.minValue_le_toInt n, Int64.toInt_le n⟩, Int64.ofInt_toInt]

end LineConsole.Decimal
