import LineConsole.Proofs.ArgumentText.Grammar

/-! # Quoting arguments

Whoever puts a backslash in front of every backslash, double quote and dollar sign of a text and
sets it in double quotes gets that text back as one argument. Replacing variables drops the
backslashes in front of the dollar signs and no others, and falling into arguments drops the rest.
Without the first reading the second drops them all, so it does not matter whether variables have a
meaning.
-/

namespace LineConsole.ArgumentText

/-- Puts a backslash in front of every special character. -/
def escape (special : Char → Bool) (cs : List Char) : List Char :=
  cs.flatMap fun c => if special c then ['\\', c] else [c]

/-- The text as one argument in double quotes. -/
def quote (special : Char → Bool) (cs : List Char) : List Char := '"' :: escape special cs ++ ['"']

/-- Texts as arguments, with a blank in front of each. -/
def quoteAll (special : Char → Bool) (texts : List (List Char)) : List Char :=
  texts.flatMap fun cs => ' ' :: quote special cs

/-- What would mean something else in double quotes. -/
def inQuotes (c : Char) : Bool := c == '\\' || c == '"'

/-- What would mean something else in double quotes where variables have a meaning. -/
def inText (c : Char) : Bool := inQuotes c || c == '$'

theorem escape_cons (special : Char → Bool) (c : Char) (cs : List Char) :
    escape special (c :: cs) =
      if special c then '\\' :: c :: escape special cs else c :: escape special cs := by
  rw [escape, List.flatMap_cons]
  split <;> rfl

/-! ## Replacing variables -/

section Expanding

variable {env : Environment} {rest : List Char}

theorem expand_cons {c : Char} (slash : c ≠ '\\') (dollar : c ≠ '$') :
    expand env (c :: rest) = c :: expand env rest := by
  rw [expand]
  · exact fun same _ => slash same
  · exact fun _ same _ => slash same
  · exact fun _ _ same _ => slash same
  · exact dollar

/-- The backslashes in front of dollar signs are dropped, and all others stay. -/
theorem expand_escape {written kept : Char → Bool} (both : ∀ c, written c = (kept c || c == '$'))
    (slash : kept '\\' = true) (dollar : kept '$' = false) (cs : List Char) :
    expand env (escape written cs ++ rest) = escape kept cs ++ expand env rest := by
  induction cs with
  | nil => rfl
  | cons c cs ih =>
    rw [escape_cons, escape_cons, both]
    by_cases sign : c = '$'
    · subst sign
      rw [if_pos (by simp), if_neg (Bool.eq_false_iff.mp dollar)]
      simp only [List.cons_append, expand, ih]
    · cases special : kept c with
      | true =>
        rw [if_pos (by simp), if_pos rfl]
        simp only [List.cons_append]
        rw [expand, ih]
        exact sign
      | false =>
        have plain : c ≠ '\\' := by
          rintro rfl
          cases special.symm.trans slash
        rw [if_neg (by simp [sign]), if_neg Bool.false_ne_true, List.cons_append,
          expand_cons plain sign, ih, List.cons_append]

theorem expand_quoteAll (texts : List (List Char)) :
    expand env (quoteAll inText texts) = quoteAll inQuotes texts := by
  have both (c : Char) : inText c = (inQuotes c || c == '$') := rfl
  induction texts with
  | nil => rw [quoteAll, List.flatMap_nil, expand]; rfl
  | cons cs texts ih =>
    simp only [quoteAll, quote, List.flatMap_cons, List.cons_append, List.append_assoc] at ih ⊢
    rw [expand_cons (by decide) (by decide), expand_cons (by decide) (by decide),
      expand_escape both rfl rfl, List.nil_append, expand_cons (by decide) (by decide), ih]
    rfl

end Expanding

/-! ## Falling into arguments -/

section Splitting

variable {special : Char → Bool} {rest : List Char}

/-- What is escaped is read letter by letter, and the letters are the text. -/
theorem exists_letters {ends : Char → Bool} (slash : special '\\' = true)
    (covers : ∀ c, ends c = true → special c = true) (cs : List Char) :
    ∃ letters : Letters ends, letters.text = escape special cs ∧ letters.chars = cs := by
  induction cs with
  | nil => exact ⟨[], rfl, rfl⟩
  | cons c cs ih =>
    obtain ⟨letters, text, rfl⟩ := ih
    rw [escape_cons, ← text]
    cases escaped : special c with
    | true => exact ⟨.escaped c :: letters, rfl, rfl⟩
    | false =>
      have plain : c ≠ '\\' := by
        rintro rfl
        cases escaped.symm.trans slash
      have inside : ends c = false := Bool.eq_false_iff.mpr fun stops => by
        cases escaped.symm.trans (covers c stops)
      exact ⟨.plain c plain inside :: letters, rfl, rfl⟩

/-- A quoted text is read to its closing quote. -/
theorem quotedArgument_escape (slash : special '\\' = true) (quotes : special '"' = true)
    (cs : List Char) :
    quotedArgument '"' (escape special cs ++ '"' :: rest) = some (cs, rest) := by
  have covers (c : Char) (quote : (c == '"') = true) : special c = true := by
    rw [beq_iff_eq.mp quote]
    exact quotes
  obtain ⟨letters, text, rfl⟩ := exists_letters slash covers cs
  rw [← text, Letters.quotedArgument_text_append, quotedArgument_of_quote (by decide), Option.map_some]
  exact congrArg (fun arg => some (arg, rest)) (List.append_nil _)

/-- A quoted text is one argument. -/
theorem split_quote (slash : special '\\' = true) (quotes : special '"' = true) (cs : List Char) :
    split (' ' :: quote special cs ++ rest) = (split rest).map (cs :: ·) := by
  have start : (' ' :: quote special cs ++ rest).dropWhile Text.isBlank =
      '"' :: (escape special cs ++ '"' :: rest) := by
    simp only [quote, List.cons_append, List.append_assoc, List.nil_append]
    rfl
  have closed : quotedArgument '"' (escape special cs ++ '"' :: rest) = some (cs, rest) :=
    quotedArgument_escape slash quotes cs
  rw [split_of_quote start (by decide), closed]

theorem split_quoteAll (slash : special '\\' = true) (quotes : special '"' = true)
    (texts : List (List Char)) : split (quoteAll special texts) = .ok texts := by
  induction texts with
  | nil =>
    rw [quoteAll, List.flatMap_nil, split]
    rfl
  | cons cs texts ih =>
    rw [quoteAll, List.flatMap_cons, split_quote slash quotes]
    rw [quoteAll] at ih
    rw [ih]
    rfl

/-- Blanks in front do not count. -/
theorem split_blank_cons (cs : List Char) : split (' ' :: cs) = split cs := by
  rw [split, split]
  rfl

end Splitting

/-! ## In a line -/

section Lines

variable (special : Char → Bool) {texts : List (List Char)}

/-- Behind a first blank quoted texts begin and end in quotes. -/
theorem exists_quoteAll (some : texts ≠ []) :
    ∃ inner, quoteAll special texts = ' ' :: '"' :: (inner ++ ['"']) := by
  induction texts with
  | nil => exact absurd rfl some
  | cons cs texts ih =>
    rw [quoteAll, List.flatMap_cons, quote]
    cases texts with
    | nil => exact ⟨escape special cs, by simp⟩
    | cons _ _ =>
      obtain ⟨inner, same⟩ := ih (List.cons_ne_nil _ _)
      rw [quoteAll] at same
      exact ⟨escape special cs ++ ['"', ' ', '"'] ++ inner, by simp [same]⟩

theorem trimEnd_append_quoteAll (some : texts ≠ []) (cs : List Char) :
    Text.trimEnd (cs ++ quoteAll special texts) = cs ++ quoteAll special texts := by
  obtain ⟨inner, same⟩ := exists_quoteAll special some
  have last : cs ++ quoteAll special texts = (cs ++ ' ' :: '"' :: inner) ++ ['"'] := by
    rw [same]
    simp
  rw [last, Text.trimEnd_concat (by decide)]

end Lines

end LineConsole.ArgumentText
