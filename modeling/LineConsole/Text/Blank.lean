/-! # White space

A blank is a character with the Unicode property White_Space. Trimming takes blanks off the two
ends of a text and leaves what stands between them alone.
-/

namespace LineConsole.Text

/-- The characters with the Unicode property White_Space. -/
def isBlank (c : Char) : Bool :=
  let n := c.toNat
  (0x09 ≤ n && n ≤ 0x0d) || n == 0x20 || n == 0x85 || n == 0xa0 || n == 0x1680 ||
    (0x2000 ≤ n && n ≤ 0x200a) || n == 0x2028 || n == 0x2029 || n == 0x202f || n == 0x205f ||
    n == 0x3000

/-- A character of category Cc. -/
def isControl (c : Char) : Bool :=
  c.toNat < 0x20 || (0x7f ≤ c.toNat && c.toNat < 0xa0)

def trimStart (cs : List Char) : List Char := cs.dropWhile isBlank

def trimEnd (cs : List Char) : List Char := (cs.reverse.dropWhile isBlank).reverse

def trim (cs : List Char) : List Char := trimEnd (trimStart cs)

/-- A string without the blanks at its two ends. -/
def trimmed (s : String) : String := String.ofList (trim s.toList)

/-- A string that holds nothing but blanks, the empty one among them. -/
def isBlankText (s : String) : Bool := s.toList.all isBlank

theorem isBlank_of_isWhitespace {c : Char} (white : c.isWhitespace) : isBlank c := by
  simp only [Char.isWhitespace, Bool.or_eq_true, decide_eq_true_eq] at white
  rcases white with ((rfl | rfl) | rfl) | rfl <;> decide

/-- A text that ends in another character has no blanks at its end. -/
theorem trimEnd_concat {c : Char} (inked : isBlank c = false) (cs : List Char) :
    trimEnd (cs ++ [c]) = cs ++ [c] := by
  rw [trimEnd, List.reverse_concat, List.dropWhile_cons, if_neg (Bool.eq_false_iff.mp inked),
    List.reverse_cons, List.reverse_reverse]

theorem trimEnd_concat_blank {c : Char} (blank : isBlank c = true) (cs : List Char) :
    trimEnd (cs ++ [c]) = trimEnd cs := by
  rw [trimEnd, trimEnd, List.reverse_concat, List.dropWhile_cons_of_pos blank]

theorem trimEnd_append (front cs : List Char) :
    trimEnd (front ++ cs) = if trimEnd cs = [] then trimEnd front else front ++ trimEnd cs := by
  simp only [trimEnd, List.reverse_append, List.dropWhile_append, List.reverse_eq_nil_iff]
  split
  · rename_i blank
    rw [if_pos (List.isEmpty_iff.mp blank)]
  · rename_i inked
    rw [if_neg (mt List.isEmpty_iff.mpr inked), List.reverse_append, List.reverse_reverse]

theorem trimEnd_append_cons {c : Char} (inked : isBlank c = false) (front cs : List Char) :
    trimEnd (front ++ c :: cs) = front ++ c :: trimEnd cs := by
  have whole : front ++ c :: cs = (front ++ [c]) ++ cs := by simp
  rw [whole, trimEnd_append, trimEnd_concat inked]
  split
  · rename_i blank
    rw [blank]
  · rw [List.append_assoc, List.singleton_append]

theorem trim_cons_inked {c : Char} (inked : isBlank c = false) (cs : List Char) :
    trim (c :: cs) = c :: trimEnd cs := by
  rw [trim, trimStart, List.dropWhile_cons_of_neg (Bool.eq_false_iff.mp inked)]
  exact trimEnd_append_cons inked [] cs

theorem trimEnd_last_inked (cs : List Char) : ∀ c ∈ (trimEnd cs).getLast?, isBlank c = false := by
  intro c last
  rw [trimEnd, List.getLast?_reverse] at last
  have inked := List.head?_dropWhile_not isBlank cs.reverse
  rw [Option.mem_def.mp last] at inked
  exact inked

theorem trim_last_inked (cs : List Char) : ∀ c ∈ (trim cs).getLast?, isBlank c = false :=
  trimEnd_last_inked (trimStart cs)

theorem trim_prefix_trimStart (cs : List Char) : trim cs <+: trimStart cs := by
  rw [← List.reverse_suffix, trim, trimEnd, List.reverse_reverse]
  exact List.dropWhile_suffix isBlank

theorem trim_head_inked (cs : List Char) : ∀ c ∈ (trim cs).head?, isBlank c = false := by
  intro c first
  obtain ⟨blanks, whole⟩ := trim_prefix_trimStart cs
  have start : (trimStart cs).head? = some c := by
    rw [← whole, List.head?_append, Option.mem_def.mp first]
    rfl
  have inked := List.head?_dropWhile_not isBlank cs
  rw [← trimStart, start] at inked
  exact inked

theorem trim_cons_blank {b : Char} (blank : isBlank b = true) (cs : List Char) :
    trim (b :: cs) = trim cs := by
  rw [trim, trim, trimStart, trimStart, List.dropWhile_cons_of_pos blank]

theorem trimEnd_of_inked {cs : List Char} (last : ∀ c ∈ cs.getLast?, isBlank c = false) :
    trimEnd cs = cs := by
  cases ends : cs.getLast? with
  | none => rw [List.getLast?_eq_none_iff.mp ends]; rfl
  | some c =>
    obtain ⟨front, rfl⟩ := List.getLast?_eq_some_iff.mp ends
    exact trimEnd_concat (last c ends) front

/-- A text that begins and ends in other characters has no blanks at its ends. -/
theorem trim_of_inked {cs : List Char} (first : ∀ c ∈ cs.head?, isBlank c = false)
    (last : ∀ c ∈ cs.getLast?, isBlank c = false) : trim cs = cs := by
  have start : trimStart cs = cs := by
    cases cs with
    | nil => rfl
    | cons c cs => exact List.dropWhile_cons_of_neg (Bool.eq_false_iff.mp (first c rfl))
  rw [trim, start, trimEnd_of_inked last]

theorem trim_trim (cs : List Char) : trim (trim cs) = trim cs :=
  trim_of_inked (trim_head_inked cs) (trim_last_inked cs)

end LineConsole.Text
