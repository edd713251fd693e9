import LineConsole.Text.Blank
import Mathlib.Data.List.TakeWhile

/-! # Blanks around a text

Trimming takes off blanks in front of a text and behind it, as many as there are and nothing else. A
text that begins and ends in other characters is found again between any blanks.
-/

namespace LineConsole.Text

theorem isBlank_of_isDigit {c : Char} (digit : c.isDigit) : isBlank c = false := by
  have range : 48 ≤ c.toNat ∧ c.toNat ≤ 57 := by
    simpa [Char.isDigit, UInt32.le_iff_toNat_le] using digit
  simp only [isBlank, Bool.or_eq_false_iff, Bool.and_eq_false_iff, decide_eq_false_iff_not,
    beq_eq_false_iff_ne]
  omega

/-- A blank at the end of a text does not count. -/
theorem trim_concat_blank {c : Char} (blank : isBlank c = true) (cs : List Char) :
    trim (cs ++ [c]) = trim cs := by
  have alone : [c].dropWhile isBlank = [] := List.dropWhile_cons_of_pos blank
  rw [trim, trim, trimStart, trimStart, List.dropWhile_append]
  split
  · rename_i blanks
    rw [alone, List.isEmpty_iff.mp blanks]
  · exact trimEnd_concat_blank blank _

/-- Characters that are blank, one and all. -/
def Blanks (cs : List Char) : Prop := ∀ c ∈ cs, isBlank c = true

theorem trim_blanks_append {before : List Char} (blank : Blanks before) (cs : List Char) :
    trim (before ++ cs) = trim cs := by
  induction before with
  | nil => rfl
  | cons b before ih =>
    rw [List.cons_append, trim_cons_blank (blank b List.mem_cons_self)]
    exact ih fun c there => blank c (List.mem_cons_of_mem b there)

theorem trim_append_blanks {after : List Char} (blank : Blanks after) (cs : List Char) :
    trim (cs ++ after) = trim cs := by
  induction after generalizing cs with
  | nil => rw [List.append_nil]
  | cons b after ih =>
    rw [List.append_cons, ih (fun c there => blank c (List.mem_cons_of_mem b there)),
      trim_concat_blank (blank b List.mem_cons_self)]

/-- Every text is the trimmed one between blanks. -/
theorem exists_blanks_around (cs : List Char) :
    ∃ before after, Blanks before ∧ Blanks after ∧ cs = before ++ trim cs ++ after := by
  have inside {back : List Char} : Blanks (back.takeWhile isBlank) :=
    fun _ there => List.mem_takeWhile_imp there
  refine ⟨cs.takeWhile isBlank, ((trimStart cs).reverse.takeWhile isBlank).reverse, inside,
    fun c there => inside c (List.mem_reverse.mp there), ?_⟩
  have back : trim cs ++ ((trimStart cs).reverse.takeWhile isBlank).reverse = trimStart cs := by
    rw [trim, trimEnd, ← List.reverse_append, List.takeWhile_append_dropWhile, List.reverse_reverse]
  rw [List.append_assoc, back, trimStart, List.takeWhile_append_dropWhile]

end LineConsole.Text
