import LineConsole.ArgumentText
import LineConsole.Proofs.Text.Trimming

/-! # Texts without special characters

A text without dollar signs is left alone when variables are replaced, and a word of plain characters
is one argument, which is that word.
-/

namespace LineConsole.ArgumentText

/-- A character that stands for itself wherever it stands. -/
def isPlain (c : Char) : Bool := !isStop c && !isQuote c && c != '\\' && c != '$'

theorem isPlain_of_isDigit {c : Char} (digit : c.isDigit) : isPlain c = true := by
  have range : 48 ≤ c.toNat ∧ c.toNat ≤ 57 := by
    simpa [Char.isDigit, UInt32.le_iff_toNat_le] using digit
  have blank : Text.isBlank c = false := Text.isBlank_of_isDigit digit
  have other {d : Char} (outside : d.toNat < 48 ∨ 57 < d.toNat) : c ≠ d := by
    rintro rfl
    omega
  simp [isPlain, isStop, isQuote, blank, other (d := '#') (by decide), other (d := '"') (by decide),
    other (d := '\'') (by decide), other (d := '\\') (by decide), other (d := '$') (by decide)]

theorem isBlank_of_isPlain {c : Char} (plain : isPlain c = true) : Text.isBlank c = false := by
  simp only [isPlain, isStop, Bool.and_eq_true, Bool.not_eq_true', Bool.or_eq_false_iff] at plain
  exact plain.1.1.1.1

/-- Without a dollar sign there is nothing to replace and no backslash to drop. -/
theorem expand_of_not_mem {env : Environment} {cs : List Char} (none : '$' ∉ cs) :
    expand env cs = cs := by
  fun_induction expand env cs with
  | case1 => rfl
  | case2 => rfl
  | case3 rest ih => exact absurd (by simp) none
  | case4 c rest _ ih => rw [ih (by simp_all)]
  | case5 rest ih => exact absurd (by simp) none
  | case6 c rest _ _ _ _ ih => rw [ih (by simp_all)]

variable {cs : List Char}

private theorem ne_backslash_of_plain {c : Char} (plain : isPlain c = true) : c ≠ '\\' := by
  rintro rfl
  exact absurd plain (by decide)

theorem bareArgument_of_plain (plain : ∀ c ∈ cs, isPlain c = true) : bareArgument cs = (cs, []) := by
  fun_induction bareArgument cs with
  | case1 => rfl
  | case2 => exact absurd rfl (ne_backslash_of_plain (plain _ List.mem_cons_self))
  | case3 => exact absurd rfl (ne_backslash_of_plain (plain _ List.mem_cons_self))
  | case4 c rest _ _ stops =>
    have first := plain c List.mem_cons_self
    simp [isPlain, stops] at first
  | case5 c rest _ _ _ arg left read ih =>
    have whole := ih fun d there => plain d (List.mem_cons_of_mem c there)
    obtain ⟨rfl, rfl⟩ := Prod.mk.inj (read.symm.trans whole)
    rfl

/-- A plain word is one argument. -/
theorem split_of_plain (some : cs ≠ []) (plain : ∀ c ∈ cs, isPlain c = true) :
    split cs = .ok [cs] := by
  obtain ⟨c, rest, rfl⟩ := List.exists_cons_of_ne_nil some
  have first : isPlain c = true := plain c List.mem_cons_self
  simp only [isPlain, isStop, Bool.and_eq_true, Bool.not_eq_true', Bool.or_eq_false_iff, bne_iff_ne,
    beq_eq_false_iff_ne] at first
  obtain ⟨⟨⟨⟨inked, comment⟩, unquoted⟩, slash⟩, dollar⟩ := first
  have start : (c :: rest).dropWhile Text.isBlank = c :: rest :=
    List.dropWhile_cons_of_neg (by simp [inked])
  rw [split_of_bare start comment unquoted, bareArgument_of_plain plain, split]
  rfl

end LineConsole.ArgumentText
