import LineConsole.Proofs.ArgumentText.Quoting
import Mathlib.Data.List.Basic

/-! # Escaping arguments

Whoever puts a backslash in front of every blank, number sign, backslash, quote and dollar sign of a
text that is not empty gets that text back as one argument without quotes. The end of a line is an
exception: there a blank counts for nothing even behind a backslash, so that of a blank at the end of
the last text the backslash arrives in its place.
-/

namespace LineConsole.ArgumentText

/-- What would mean something else in an argument without quotes. -/
def inBare (c : Char) : Bool := isStop c || isQuote c || c == '\\'

/-- What would mean something else there where variables have a meaning. -/
def inBareText (c : Char) : Bool := inBare c || c == '$'

/-- Texts as arguments without quotes, with a blank in front of each. -/
def escapeAll (special : Char → Bool) (texts : List (List Char)) : List Char :=
  texts.flatMap fun cs => ' ' :: escape special cs

theorem escapeAll_append (special : Char → Bool) (front texts : List (List Char)) :
    escapeAll special (front ++ texts) = escapeAll special front ++ escapeAll special texts :=
  List.flatMap_append

/-! ## At the end of a line -/

def endsBlank (cs : List Char) : Bool := cs.getLast?.any Text.isBlank

/-- The text without a blank at its end. -/
def stem (cs : List Char) : List Char := if endsBlank cs then cs.dropLast else cs

/-- What of a text arrives that is escaped at the end of a line. -/
def atLineEnd (cs : List Char) : List Char := stem cs ++ lone (endsBlank cs)

section LineEnd

variable {cs : List Char} {c : Char}

theorem endsBlank_concat : endsBlank (cs ++ [c]) = Text.isBlank c := by
  rw [endsBlank, List.getLast?_concat, Option.any_some]

theorem stem_concat : stem (cs ++ [c]) = if Text.isBlank c then cs else cs ++ [c] := by
  rw [stem, endsBlank_concat, List.dropLast_concat]

theorem atLineEnd_concat :
    atLineEnd (cs ++ [c]) = cs ++ [if Text.isBlank c then '\\' else c] := by
  rw [atLineEnd, stem_concat, endsBlank_concat]
  cases Text.isBlank c with
  | true => rfl
  | false => exact List.append_nil _

theorem atLineEnd_ne_nil (some : cs ≠ []) : atLineEnd cs ≠ [] := by
  obtain ⟨cs, c, rfl⟩ := (List.eq_nil_or_concat' cs).resolve_left some
  rw [atLineEnd_concat]
  exact List.concat_ne_nil _ _

/-- A text arrives as it is just if it does not end in a blank. -/
theorem atLineEnd_eq_self_iff : atLineEnd cs = cs ↔ ∀ c ∈ cs.getLast?, Text.isBlank c = false := by
  rcases List.eq_nil_or_concat' cs with rfl | ⟨cs, c, rfl⟩
  · exact iff_of_true rfl (by rintro _ ⟨⟩)
  · rw [atLineEnd_concat, List.getLast?_concat, List.append_cancel_left_eq]
    cases blank : Text.isBlank c with
    | true =>
      have other : c ≠ '\\' := by
        rintro rfl
        exact absurd blank (by decide)
      simpa [blank] using other.symm
    | false => simp [blank]

end LineEnd

/-- Trimming takes a blank off the end, and no more than that blank. -/
theorem trimEnd_append_escapeAll {special : Char → Bool}
    (blanks : ∀ c, Text.isBlank c = true → special c = true) (cs : List Char)
    (front : List (List Char)) {last : List Char} (some : last ≠ []) :
    Text.trimEnd (cs ++ escapeAll special (front ++ [last])) =
      cs ++ (escapeAll special (front ++ [stem last]) ++ lone (endsBlank last)) := by
  obtain ⟨last, c, rfl⟩ := (List.eq_nil_or_concat' last).resolve_left some
  have written (cs : List Char) (c : Char) :
      escape special (cs ++ [c]) = escape special cs ++ escape special [c] := List.flatMap_append
  have alone (cs : List Char) : escapeAll special [cs] = ' ' :: escape special cs :=
    List.append_nil _
  rw [stem_concat, endsBlank_concat]
  simp only [escapeAll_append, alone]
  cases blank : Text.isBlank c with
  | true =>
    have last_two : escape special [c] = ['\\', c] := by
      rw [escape_cons, if_pos (blanks c blank)]
      rfl
    have whole : cs ++ (escapeAll special front ++ ' ' :: escape special (last ++ [c])) =
        cs ++ (escapeAll special front ++ ' ' :: escape special last) ++ ['\\'] ++ [c] := by
      simp [written, last_two]
    rw [whole, Text.trimEnd_concat_blank blank, Text.trimEnd_concat (by decide)]
    simp [lone]
  | false =>
    obtain ⟨before, ends⟩ : ∃ before, escape special [c] = before ++ [c] := by
      rw [escape_cons]
      split
      · exact ⟨['\\'], rfl⟩
      · exact ⟨[], rfl⟩
    have whole : cs ++ (escapeAll special front ++ ' ' :: escape special (last ++ [c])) =
        cs ++ (escapeAll special front ++ ' ' :: escape special last ++ before) ++ [c] := by
      simp [written, ends]
    rw [if_neg Bool.false_ne_true, whole, Text.trimEnd_concat blank]
    simp [written, ends, lone]

/-! ## Replacing variables -/

section Expanding

variable {env : Environment}

theorem expand_lone (slash : Bool) : expand env (lone slash) = lone slash := by
  cases slash with
  | true => rw [lone, if_pos rfl, expand]
  | false => rw [lone, if_neg Bool.false_ne_true, expand]

theorem expand_escapeAll (texts : List (List Char)) (rest : List Char) :
    expand env (escapeAll inBareText texts ++ rest) =
      escapeAll inBare texts ++ expand env rest := by
  have both (c : Char) : inBareText c = (inBare c || c == '$') := rfl
  induction texts with
  | nil => rfl
  | cons cs texts ih =>
    simp only [escapeAll, List.flatMap_cons, List.cons_append, List.append_assoc] at ih ⊢
    rw [expand_cons (by decide) (by decide), expand_escape both rfl rfl, ih]

end Expanding

/-! ## Falling into arguments -/

section Splitting

variable {special : Char → Bool} (covers : ∀ c, inBare c = true → special c = true)

include covers

/-- An escaped text is a bare item. -/
theorem exists_item {cs : List Char} {slash : Bool} (some : cs ++ lone slash ≠ []) :
    ∃ item : Item, item.text = escape special cs ++ lone slash ∧ item.argument = cs ++ lone slash ∧
      ∀ rest, EndsAt slash rest → item.Before rest := by
  have stops (c : Char) (stops : isStop c = true) : special c = true :=
    covers c (by simp [inBare, stops])
  obtain ⟨letters, text, rfl⟩ := exists_letters (covers '\\' (by decide)) stops cs
  have begins : ∃ c, (letters.text ++ lone slash).head? = Option.some c ∧ isQuote c = false := by
    rw [text]
    cases letters with
    | nil =>
      cases slash with
      | true => exact ⟨'\\', rfl, by decide⟩
      | false => exact absurd rfl some
    | cons l letters =>
      rw [Letters.chars, List.map_cons, escape_cons]
      cases escaped : special l.char with
      | true => exact ⟨'\\', rfl, by decide⟩
      | false =>
        refine ⟨l.char, rfl, Bool.eq_false_iff.mpr fun quote => ?_⟩
        have inBare : inBare l.char = true := by simp [inBare, quote]
        cases escaped.symm.trans (covers _ inBare)
  exact ⟨.bare letters slash begins, by rw [Item.text, text], rfl, fun _ ends => ends⟩

/-- Escaped texts are laid out with a blank in front of each. -/
theorem exists_layout {front : List (List Char)} (inked : ∀ cs ∈ front, cs ≠ []) {cs : List Char}
    {slash : Bool} (some : cs ++ lone slash ≠ []) :
    ∃ l : Layout, l.WellFormed ∧ l.gap.chars = [' '] ∧
      l.text = escapeAll special (front ++ [cs]) ++ lone slash ∧
      l.arguments = front ++ [cs ++ lone slash] := by
  have blank : ∀ c ∈ [' '], Text.isBlank c = true := List.forall_mem_singleton.mpr rfl
  induction front with
  | nil =>
    obtain ⟨item, text, argument, before⟩ := exists_item covers some
    have ends : EndsAt slash [] := by cases slash <;> simp [EndsAt]
    refine ⟨.cons ⟨[' '], blank⟩ item (.last ⟨[], by simp⟩ none), ⟨before [] ends, trivial⟩, rfl, ?_, ?_⟩
    · simp [Layout.text, Layout.gap, Layout.body, text, escapeAll]
    · simp [Layout.arguments, argument]
  | cons first front ih =>
    obtain ⟨nonempty, inked⟩ := List.forall_mem_cons.mp inked
    obtain ⟨l, formed, -, others, arguments⟩ := ih inked
    have nonempty : first ++ lone false ≠ [] := by simpa [lone] using nonempty
    obtain ⟨item, text, argument, before⟩ := exists_item covers nonempty
    have ends : EndsAt false l.text := by
      rw [others]
      cases front <;> (rintro c ⟨⟩; decide)
    refine ⟨.cons ⟨[' '], blank⟩ item l, ⟨before _ ends, formed⟩, rfl, ?_, ?_⟩
    · have body : (Layout.cons ⟨[' '], blank⟩ item l).body = item.text ++ l.text := rfl
      rw [Layout.text, body, text, others]
      simp [Layout.gap, escapeAll, lone]
    · rw [Layout.arguments, argument, arguments]
      simp [lone]

/-- So the first blank is all that stands in front of them. -/
theorem exists_escapeAll {front : List (List Char)} (inked : ∀ cs ∈ front, cs ≠ [])
    {cs : List Char} {slash : Bool} (some : cs ++ lone slash ≠ []) :
    ∃ rest, escapeAll special (front ++ [cs]) ++ lone slash = ' ' :: rest ∧
      ∀ c ∈ rest.head?, Text.isBlank c = false := by
  obtain ⟨l, -, gap, text, -⟩ := exists_layout covers inked some
  refine ⟨l.body, ?_, l.body_inked⟩
  rw [← text, Layout.text, gap]
  rfl

theorem split_escapeAll {front : List (List Char)} (inked : ∀ cs ∈ front, cs ≠ []) {cs : List Char}
    {slash : Bool} (some : cs ++ lone slash ≠ []) :
    split (escapeAll special (front ++ [cs]) ++ lone slash) = .ok (front ++ [cs ++ lone slash]) := by
  obtain ⟨l, formed, -, text, arguments⟩ := exists_layout covers inked some
  rw [← text, ← arguments]
  exact Layout.split_text formed

end Splitting

end LineConsole.ArgumentText
