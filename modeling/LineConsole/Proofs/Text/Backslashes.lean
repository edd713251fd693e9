import Mathlib.Algebra.Group.Nat.Even
import Mathlib.Data.List.DropRight

/-! # Backslashes that have a partner

A backslash takes the next character with it, read from the left. Where a text ends, its last
backslash is still without a character of its own just if an odd number of backslashes stand there in
a row: whatever is in front of them, they pair off among themselves.
-/

namespace LineConsole.Text

/-- How many backslashes stand in a row at the end of a text. -/
def slashesAtEnd (cs : List Char) : Nat := (cs.rtakeWhile (· == '\\')).length

/-- No backslash at the end of the text is left to take what follows. -/
def EndsPaired (cs : List Char) : Prop := Even (slashesAtEnd cs)

instance (cs : List Char) : Decidable (EndsPaired cs) := inferInstanceAs (Decidable (Even _))

theorem slashesAtEnd_le (cs : List Char) : slashesAtEnd cs ≤ cs.length := by
  rw [slashesAtEnd, List.rtakeWhile, List.length_reverse]
  exact (List.takeWhile_sublist _).length_le.trans_eq List.length_reverse

/-- A character in front is one of the backslashes at the end only if it is a backslash and there is
nothing else between. -/
theorem slashesAtEnd_cons (c : Char) (cs : List Char) :
    slashesAtEnd (c :: cs) =
      if slashesAtEnd cs = cs.length ∧ c = '\\' then slashesAtEnd cs + 1 else slashesAtEnd cs := by
  simp only [slashesAtEnd, List.rtakeWhile, List.length_reverse, List.reverse_cons,
    List.takeWhile_append]
  by_cases slash : c = '\\'
  · split <;> simp_all
  · split <;> simp_all

variable {c : Char} {cs : List Char}

/-- A backslash is the last character of a text or takes another one. -/
theorem ne_slash (lone : c = '\\' → cs = [] → False)
    (pair : ∀ d rest, c = '\\' → cs = d :: rest → False) : c ≠ '\\' := by
  intro slash
  cases cs with
  | nil => exact lone slash rfl
  | cons d rest => exact pair d rest slash rfl

theorem endsPaired_nil : EndsPaired [] := by decide

theorem not_endsPaired_slash : ¬ EndsPaired ['\\'] := by decide

theorem endsPaired_cons (slash : c ≠ '\\') : EndsPaired (c :: cs) ↔ EndsPaired cs := by
  rw [EndsPaired, EndsPaired, slashesAtEnd_cons, if_neg fun both => slash both.2]

theorem endsPaired_pair : EndsPaired ('\\' :: c :: cs) ↔ EndsPaired cs := by
  have le := slashesAtEnd_le cs
  rw [EndsPaired, EndsPaired, slashesAtEnd_cons, slashesAtEnd_cons, List.length_cons]
  by_cases all : slashesAtEnd cs = cs.length ∧ c = '\\'
  · rw [if_pos all, if_pos ⟨by omega, rfl⟩]
    exact Nat.even_add_one.trans (not_congr Nat.even_add_one |>.trans not_not)
  · rw [if_neg all, if_neg (by omega)]

/-- Characters that are no backslashes change nothing in front of a text. -/
theorem endsPaired_append (plain : ∀ c ∈ cs, c ≠ '\\') {rest : List Char} :
    EndsPaired (cs ++ rest) ↔ EndsPaired rest := by
  induction cs with
  | nil => rfl
  | cons c cs ih =>
    obtain ⟨slash, plain⟩ := List.forall_mem_cons.mp plain
    rw [List.cons_append, endsPaired_cons slash, ih plain]

end LineConsole.Text
