import Mathlib.Data.List.TakeWhile

/-! # Runs of a class of characters

A run goes on up to the first character that is not of its class, so it is found again in front of
any text that begins with no such character.
-/

namespace LineConsole.Text

variable {p : Char → Bool} {cs rest : List Char}

/-- No character of the class goes on where a run of them ends. -/
theorem head_dropWhile : ∀ c ∈ (cs.dropWhile p).head?, p c = false := by
  intro c first
  have stops := List.head?_dropWhile_not p cs
  rw [Option.mem_def.mp first] at stops
  exact stops

/-- A run of a class of characters ends where a character of no such class follows. -/
theorem takeWhile_append_of_stops (inside : ∀ c ∈ cs, p c = true)
    (stops : ∀ c ∈ rest.head?, p c = false) :
    (cs ++ rest).takeWhile p = cs ∧ (cs ++ rest).dropWhile p = rest := by
  rw [List.takeWhile_append_of_pos inside, List.dropWhile_append_of_pos inside]
  cases rest with
  | nil => exact ⟨List.append_nil _, rfl⟩
  | cons c rest =>
    have last : ¬ p c = true := by simp [stops c rfl]
    rw [List.takeWhile_cons_of_neg last, List.dropWhile_cons_of_neg last]
    exact ⟨List.append_nil _, rfl⟩

/-- A character that stops a run also stops it in front of a rest. -/
theorem takeWhile_append_cons {b : Char} (stops : p b = false) (cs rest : List Char) :
    (cs ++ b :: rest).takeWhile p = cs.takeWhile p ∧
      (cs ++ b :: rest).dropWhile p = cs.dropWhile p ++ b :: rest := by
  induction cs with
  | nil => simp [stops]
  | cons c cs ih =>
    cases inside : p c with
    | true => simp [inside, ih]
    | false => simp [inside]

end LineConsole.Text
