import LineConsole.Text.Lines
import Mathlib.Data.List.Infix

/-! # Unifying line ends

One pass over a text turns each pair of a carriage return and a line feed into a line feed. A text
without such a pair is left alone. Where two carriage returns stand in front of a line feed, the
second is part of the pair and the first is not, so that a pair is there again behind the pass.
-/

namespace LineConsole.Text

/-- What ends a line in two characters. -/
def returnFeed : List Char := ['\r', '\n']

variable {c : Char} {cs rest : List Char}

theorem unifyLineEnds_cons (alone : ¬ returnFeed <+: c :: cs) :
    unifyLineEnds (c :: cs) = c :: unifyLineEnds cs := by
  rw [unifyLineEnds]
  rintro rest rfl rfl
  exact alone ⟨rest, rfl⟩

theorem unifyLineEnds_pair : unifyLineEnds (returnFeed ++ cs) = '\n' :: unifyLineEnds cs := by
  rw [returnFeed, List.cons_append, List.cons_append, List.nil_append, unifyLineEnds]

theorem length_unifyLineEnds_le (cs : List Char) : (unifyLineEnds cs).length ≤ cs.length := by
  fun_induction unifyLineEnds cs <;> simp only [List.length_cons, List.length_nil] <;> omega

theorem unifyLineEnds_eq_self_iff : unifyLineEnds cs = cs ↔ ¬ returnFeed <:+: cs := by
  fun_induction unifyLineEnds cs with
  | case1 rest ih =>
    refine iff_of_false (fun same => ?_) (not_not.mpr (List.prefix_append returnFeed rest).isInfix)
    have shorter := length_unifyLineEnds_le rest
    have longer := congrArg List.length same
    simp only [List.length_cons] at longer
    omega
  | case2 c rest alone ih =>
    have here : ¬ returnFeed <+: c :: rest := by
      rintro ⟨rest', same⟩
      obtain ⟨rfl, rfl⟩ := List.cons.inj same
      exact alone rest' rfl rfl
    rw [List.cons_inj_right, ih, List.infix_cons_iff, not_or]
    exact ⟨fun later => ⟨here, later⟩, And.right⟩
  | case3 => exact iff_of_true rfl (by decide)

/-- The pass changes a first character only where a pair is in front. -/
theorem head_unifyLineEnds (cs : List Char) :
    (unifyLineEnds cs).head? = if returnFeed <+: cs then some '\n' else cs.head? := by
  fun_cases unifyLineEnds cs with
  | case1 rest => exact (if_pos (List.prefix_append returnFeed rest)).symm
  | case2 c rest alone =>
    refine (if_neg ?_).symm
    rintro ⟨rest', same⟩
    obtain ⟨rfl, rfl⟩ := List.cons.inj same
    exact alone rest' rfl rfl
  | case3 => rfl

private theorem singleton_prefix_iff : [c] <+: cs ↔ cs.head? = some c := by
  cases cs <;> simp [eq_comm]

/-- A pair is left just where two carriage returns were in front of a line feed. -/
theorem returnFeed_infix_unifyLineEnds_iff :
    returnFeed <:+: unifyLineEnds cs ↔ '\r' :: returnFeed <:+: cs := by
  fun_induction unifyLineEnds cs with
  | case1 rest ih =>
    have first : ¬ returnFeed <+: '\n' :: unifyLineEnds rest := by simp [returnFeed]
    have first' : ¬ '\r' :: returnFeed <+: '\r' :: '\n' :: rest := by simp [returnFeed]
    have second : ¬ '\r' :: returnFeed <+: '\n' :: rest := by simp
    simp only [List.infix_cons_iff, first, first', second, false_or, ih]
  | case2 c rest alone ih =>
    have here : returnFeed <+: c :: unifyLineEnds rest ↔ '\r' :: returnFeed <+: c :: rest := by
      rw [List.cons_prefix_cons, returnFeed, List.cons_prefix_cons, singleton_prefix_iff,
        head_unifyLineEnds]
      refine and_congr_right fun same => ?_
      split
      · rename_i pair
        exact iff_of_true rfl pair
      · rename_i pair
        refine iff_of_false (fun feed => ?_) pair
        obtain ⟨rest', rfl⟩ := List.head?_eq_some_iff.mp feed
        exact alone rest' same.symm rfl
    rw [List.infix_cons_iff, List.infix_cons_iff, ih, here]
  | case3 => exact iff_of_false (by decide) (by decide)

/-- Two texts that no pair joins are passed over one after the other. -/
theorem unifyLineEnds_append (apart : cs.getLast? = some '\r' → rest.head? ≠ some '\n') :
    unifyLineEnds (cs ++ rest) = unifyLineEnds cs ++ unifyLineEnds rest := by
  fun_induction unifyLineEnds cs with
  | case1 cs ih =>
    rw [List.cons_append, List.cons_append, unifyLineEnds, ih, List.cons_append]
    exact fun last => apart (by simp [List.getLast?_cons, last])
  | case2 c cs alone ih =>
    rw [List.cons_append, unifyLineEnds, ih, List.cons_append]
    · exact fun last => apart (by simp [List.getLast?_cons, last])
    · rintro rest' rfl same
      cases cs with
      | nil => exact apart rfl (by rw [List.nil_append] at same; rw [same]; rfl)
      | cons d cs =>
        obtain ⟨rfl, -⟩ := List.cons.inj same
        exact alone cs rfl rfl
  | case3 => rfl

/-- Where a pair joins two texts, the first of them loses its carriage return. -/
theorem unifyLineEnds_append_of_pair :
    unifyLineEnds (cs ++ ['\r'] ++ '\n' :: rest) =
      unifyLineEnds cs ++ unifyLineEnds ('\n' :: rest) := by
  have pair : ['\r'] ++ '\n' :: rest = returnFeed ++ rest := rfl
  rw [List.append_assoc, pair, unifyLineEnds_append (fun _ => by simp [returnFeed]), unifyLineEnds_pair,
    unifyLineEnds_cons (by simp [returnFeed])]

end LineConsole.Text
