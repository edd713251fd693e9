import LineConsole.Proofs.ArgumentText.Quoting
import LineConsole.Proofs.Text.Backslashes
import LineConsole.Proofs.Text.Runs
import Mathlib.Data.List.Basic

/-! # Replacing variables in parts of a text

What stands on the two sides of a character is replaced by itself if that character ends a name in
front of it and no backslash takes it along. No blank is a letter, a digit, a backslash or a dollar
sign, so this holds of every blank. Where all values begin and end in other characters than blanks, so
does a text that did before.
-/

namespace LineConsole

namespace Text

/-- No letter or digit is a blank. -/
theorem isAlphanumeric_of_isBlank {c : Char} (blank : isBlank c = true) :
    isAlphanumeric c = false := by
  have others : ∀ n ∈ [0x09, 0x0a, 0x0b, 0x0c, 0x0d, 0x20, 0x85, 0xa0, 0x1680, 0x2000, 0x2001, 0x2002,
      0x2003, 0x2004, 0x2005, 0x2006, 0x2007, 0x2008, 0x2009, 0x200a, 0x2028, 0x2029, 0x202f, 0x205f,
      0x3000], isAlphanumeric (Char.ofNat n) = false := by decide +kernel
  rw [← Char.ofNat_toNat c]
  refine others c.toNat ?_
  simp only [isBlank, Bool.or_eq_true, Bool.and_eq_true, decide_eq_true_eq, beq_iff_eq] at blank
  simp only [List.mem_cons, List.not_mem_nil, or_false]
  omega

/-- The first character is there and no blank. -/
def BeginsInked (cs : List Char) : Prop := ∃ c ∈ cs.head?, isBlank c = false

/-- The last character is there and no blank. -/
def EndsInked (cs : List Char) : Prop := ∃ c ∈ cs.getLast?, isBlank c = false

section Inked

variable {cs : List Char}

theorem BeginsInked.append (begins : BeginsInked cs) (rest : List Char) :
    BeginsInked (cs ++ rest) := by
  obtain ⟨c, first, inked⟩ := begins
  refine ⟨c, ?_, inked⟩
  rw [List.head?_append, Option.mem_def.mp first]
  rfl

theorem endsInked_append_iff (some : cs ≠ []) (front : List Char) :
    EndsInked (front ++ cs) ↔ EndsInked cs := by
  rw [EndsInked, EndsInked, List.getLast?_append_of_ne_nil front some]

theorem EndsInked.append (ends : EndsInked cs) (front : List Char) : EndsInked (front ++ cs) := by
  refine (endsInked_append_iff ?_ front).mpr ends
  rintro rfl
  obtain ⟨c, none, -⟩ := ends
  cases none

theorem trim_eq_of_inked (begins : BeginsInked cs) (ends : EndsInked cs) : trim cs = cs := by
  obtain ⟨⟨c, first, inked⟩, ⟨d, last, inked'⟩⟩ := And.intro begins ends
  refine trim_of_inked (fun e first' => ?_) fun e last' => ?_
  · obtain rfl := Option.mem_unique first first'
    exact inked
  · obtain rfl := Option.mem_unique last last'
    exact inked'

theorem beginsInked_trim (some : trim cs ≠ []) : BeginsInked (trim cs) := by
  obtain ⟨c, first⟩ := Option.ne_none_iff_exists'.mp (mt List.head?_eq_none_iff.mp some)
  exact ⟨c, first, trim_head_inked cs c first⟩

theorem endsInked_trim (some : trim cs ≠ []) : EndsInked (trim cs) := by
  obtain ⟨c, last⟩ := Option.ne_none_iff_exists'.mp (mt List.getLast?_eq_none_iff.mp some)
  exact ⟨c, last, trim_last_inked cs c last⟩

end Inked

end Text

namespace ArgumentText

variable {env : Environment}

theorem ne_of_mem_takeWhile {cs : List Char} : ∀ c ∈ cs.takeWhile Text.isAlphanumeric, c ≠ '\\' := by
  rintro _ there rfl
  exact absurd (List.mem_takeWhile_imp there) (by decide)

private theorem ne_of_isBlank {b : Char} (blank : Text.isBlank b = true) : b ≠ '\\' ∧ b ≠ '$' := by
  constructor
  · rintro rfl
    exact absurd blank (by decide)
  · rintro rfl
    exact absurd blank (by decide)

/-- A character that is neither a letter nor a digit ends a name in front of it. Unless a backslash
takes it along, it and what follows are replaced by themselves. -/
theorem expand_append_cons {b : Char} (stops : Text.isAlphanumeric b = false) {cs : List Char}
    (free : Text.EndsPaired cs ∨ b ≠ '\\' ∧ b ≠ '$') (rest : List Char) :
    expand env (cs ++ b :: rest) = expand env cs ++ expand env (b :: rest) := by
  fun_induction expand env cs with
  | case1 => rfl
  | case2 =>
    obtain ⟨slash, dollar⟩ := free.resolve_left Text.not_endsPaired_slash
    rw [List.cons_append, List.nil_append, expand, expand_cons slash dollar]
    · rfl
    · exact dollar
  | case3 cs ih =>
    rw [Text.endsPaired_pair] at free
    simp only [List.cons_append, expand, ih free]
  | case4 c cs other ih =>
    rw [Text.endsPaired_pair] at free
    rw [List.cons_append, List.cons_append, expand]
    · rw [ih free]
      rfl
    · exact other
  | case5 cs ih =>
    obtain ⟨name, left⟩ := Text.takeWhile_append_cons stops cs rest
    rw [← List.takeWhile_append_dropWhile (p := Text.isAlphanumeric) (l := cs),
      Text.endsPaired_cons (by decide), Text.endsPaired_append ne_of_mem_takeWhile] at free
    rw [List.cons_append, expand, name, left, ih free, List.append_assoc]
  | case6 c cs lone _ pair sign ih =>
    have plain : c ≠ '\\' := Text.ne_slash lone pair
    rw [Text.endsPaired_cons plain] at free
    rw [List.cons_append, expand_cons plain sign, ih free, List.cons_append]

theorem expand_append_blank {b : Char} (blank : Text.isBlank b = true) (cs rest : List Char) :
    expand env (cs ++ b :: rest) = expand env cs ++ b :: expand env rest := by
  obtain ⟨slash, dollar⟩ := ne_of_isBlank blank
  rw [expand_append_cons (Text.isAlphanumeric_of_isBlank blank) (.inr ⟨slash, dollar⟩),
    expand_cons slash dollar]

theorem expand_blanks_append {gap : List Char} (blanks : ∀ c ∈ gap, Text.isBlank c = true)
    (rest : List Char) : expand env (gap ++ rest) = gap ++ expand env rest := by
  induction gap with
  | nil => rfl
  | cons b gap ih =>
    obtain ⟨blank, blanks⟩ := List.forall_mem_cons.mp blanks
    obtain ⟨slash, dollar⟩ := ne_of_isBlank blank
    rw [List.cons_append, expand_cons slash dollar, ih blanks, List.cons_append]

/-- What stands on the two sides of a gap is replaced by itself. -/
theorem expand_append_gap {gap : List Char} (some : gap ≠ [])
    (blanks : ∀ c ∈ gap, Text.isBlank c = true) (cs rest : List Char) :
    expand env (cs ++ (gap ++ rest)) = expand env cs ++ (gap ++ expand env rest) := by
  obtain ⟨b, gap, rfl⟩ := List.exists_cons_of_ne_nil some
  obtain ⟨blank, blanks⟩ := List.forall_mem_cons.mp blanks
  rw [List.cons_append, expand_append_blank blank, expand_blanks_append blanks, List.cons_append]

/-! ## Where a text begins and ends -/

section Ends

open Text (BeginsInked EndsInked)

-- All values begin and end in other characters than blanks.
variable (values : ∀ name value, env.get? name = some value →
  BeginsInked value.toList ∧ EndsInked value.toList)

include values

theorem expansion_begins (name : List Char) : BeginsInked (expansion env name) := by
  unfold expansion
  split
  · rename_i value found
    split at found
    · cases found
    · exact (values _ value found).1
  · exact ⟨'$', rfl, by decide⟩

theorem expansion_ends {name : List Char} (ends : EndsInked ('$' :: name)) :
    EndsInked (expansion env name) := by
  unfold expansion
  split
  · rename_i value found
    split at found
    · cases found
    · exact (values _ value found).2
  · exact ends

theorem expand_begins {cs : List Char} (begins : BeginsInked cs) : BeginsInked (expand env cs) := by
  fun_cases expand env cs with
  | case1 => exact begins
  | case2 => exact begins
  | case3 => exact ⟨'$', rfl, by decide⟩
  | case4 => exact ⟨'\\', rfl, by decide⟩
  | case5 cs => exact (expansion_begins values _).append _
  | case6 => exact begins

/-- By induction on the text: what is replaced or kept last stands at its end. -/
theorem expand_ends {cs : List Char} (ends : EndsInked cs) : EndsInked (expand env cs) := by
  fun_induction expand env cs with
  | case1 => exact ends
  | case2 => exact ends
  | case3 rest ih =>
    by_cases none : rest = []
    · rw [none, expand]
      exact ⟨'$', rfl, by decide⟩
    · exact (ih ((Text.endsInked_append_iff none ['\\', '$']).mp ends)).append ['$']
  | case4 c rest _ ih =>
    by_cases none : rest = []
    · rw [none, expand]
      rwa [none] at ends
    · exact (ih ((Text.endsInked_append_iff none ['\\', c]).mp ends)).append ['\\', c]
  | case5 rest ih =>
    have whole := List.takeWhile_append_dropWhile (p := Text.isAlphanumeric) (l := rest)
    by_cases none : rest.dropWhile Text.isAlphanumeric = []
    · rw [none, List.append_nil] at whole
      rw [none, expand, List.append_nil, whole]
      exact expansion_ends values ends
    · rw [← whole] at ends
      refine (ih ?_).append _
      exact (Text.endsInked_append_iff none ('$' :: rest.takeWhile Text.isAlphanumeric)).mp ends
  | case6 c rest _ _ _ _ ih =>
    by_cases none : rest = []
    · rw [none, expand]
      rwa [none] at ends
    · exact (ih ((Text.endsInked_append_iff none [c]).mp ends)).append [c]

end Ends

end ArgumentText

end LineConsole
