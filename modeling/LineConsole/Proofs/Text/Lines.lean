import LineConsole.Proofs.Text.Utf8
import LineConsole.Text.Lines

/-! # Lines in UTF-8

In the UTF-8 form of a text the bytes of a line feed and of a carriage return stand for these
characters and are part of no other. So the lines of the bytes are the lines of the text, each in its
UTF-8 form.
-/

namespace LineConsole.Text

/-! ## Decoding what was encoded -/

theorem Spells.utf8From_append {state : Option Utf8Partial} {bytes : List UInt8} {c : Char}
    (spells : Spells state bytes c) (rest : List UInt8) :
    utf8From state (bytes ++ rest) = (utf8From none rest).map (c :: ·) := by
  induction spells with
  | last read => rw [List.cons_append, List.nil_append, utf8From, read]
  | more read _ ih =>
    rw [List.cons_append, utf8From, read]
    exact ih

theorem decodeUtf8_encodeUtf8 (s : String) : decodeUtf8 (encodeUtf8 s) = some s := by
  have read (cs : List Char) : utf8From none (cs.flatMap String.utf8EncodeChar) = some cs := by
    induction cs with
    | nil => rfl
    | cons c cs ih =>
      rw [List.flatMap_cons, (spells_utf8EncodeChar c).utf8From_append, ih, Option.map_some]
  rw [decodeUtf8, encodeUtf8, read, Option.map_some, String.ofList_toList]

/-! ## Splitting -/

section Splitting

variable {α : Type} [DecidableEq α] {lf cr : α}

/-- Without a line feed everything stands on one line. -/
theorem linesFrom_append {block : List α} (plain : lf ∉ block) (line rest : List α) :
    linesFrom lf cr line (block ++ rest) = linesFrom lf cr (block.reverse ++ line) rest := by
  induction block generalizing line with
  | nil => rfl
  | cons c block ih =>
    have other : c ≠ lf := (List.ne_of_not_mem_cons plain).symm
    rw [List.cons_append, linesFrom, if_neg other, ih (List.not_mem_of_not_mem_cons plain),
      List.reverse_cons, List.append_assoc, List.singleton_append]

theorem mem_of_mem_dropReturn {a : α} {line : List α} (within : a ∈ dropReturn cr line) :
    a ∈ line := by
  unfold dropReturn at within
  split at within
  · exact List.mem_of_mem_dropLast within
  · exact within

/-- No line holds a line feed. -/
theorem not_mem_of_mem_linesFrom {line cs : List α} (plain : lf ∉ line) :
    ∀ l ∈ linesFrom lf cr line cs, lf ∉ l := by
  induction cs generalizing line with
  | nil =>
    intro l listed
    rw [linesFrom] at listed
    split at listed
    · cases listed
    · obtain rfl := List.mem_singleton.mp listed
      rwa [List.mem_reverse]
  | cons c cs ih =>
    intro l listed
    rw [linesFrom] at listed
    split at listed
    · rcases List.mem_cons.mp listed with rfl | later
      · exact fun within => plain (List.mem_reverse.mp (mem_of_mem_dropReturn within))
      · exact ih List.not_mem_nil l later
    · rename_i other
      exact ih (List.not_mem_cons_of_ne_of_not_mem (Ne.symm other) plain) l listed

/-- Lines written one after the other, each with a line feed behind it, are read without the carriage
returns at their ends. -/
theorem linesFrom_flatMap {texts : List (List α)} (plain : ∀ text ∈ texts, lf ∉ text) :
    linesFrom lf cr [] (texts.flatMap (· ++ [lf])) = texts.map (dropReturn cr) := by
  induction texts with
  | nil => rfl
  | cons text texts ih =>
    rw [List.forall_mem_cons] at plain
    rw [List.flatMap_cons, List.append_assoc, linesFrom_append plain.1, List.singleton_append,
      linesFrom, if_pos rfl, ih plain.2, List.append_nil, List.reverse_reverse, List.map_cons]

end Splitting

/-! ## Lines of encoded texts -/

theorem utf8EncodeChar_ne_nil (c : Char) : String.utf8EncodeChar c ≠ [] := by
  intro none
  have spells := spells_utf8EncodeChar c
  rw [none] at spells
  cases spells

theorem feed_not_mem_utf8EncodeChar {c : Char} (other : c ≠ '\n') : 10 ∉ String.utf8EncodeChar c :=
  fun within => other (utf8EncodeChar_of_mem within (by decide)).2

/-- A carriage return at the end of a text's bytes is one at the end of the text. -/
theorem dropReturn_encoded (cs : List Char) :
    dropReturn 13 (cs.flatMap String.utf8EncodeChar) =
      (dropReturn '\r' cs).flatMap String.utf8EncodeChar := by
  rcases List.eq_nil_or_concat' cs with rfl | ⟨front, c, rfl⟩
  · rfl
  · have back : (front ++ [c]).flatMap String.utf8EncodeChar =
        front.flatMap String.utf8EncodeChar ++ String.utf8EncodeChar c := by
      rw [List.flatMap_append, List.flatMap_singleton]
    rw [back, dropReturn, dropReturn, List.getLast?_concat]
    by_cases same : c = '\r'
    · subst same
      have one : String.utf8EncodeChar '\r' = [13] := by decide
      rw [if_pos rfl, one, List.getLast?_concat, if_pos rfl, List.dropLast_concat,
        List.dropLast_concat]
    · have last : (front.flatMap String.utf8EncodeChar ++ String.utf8EncodeChar c).getLast? ≠
          some 13 := by
        rw [List.getLast?_append_of_ne_nil _ (utf8EncodeChar_ne_nil c)]
        exact fun last => same
          (utf8EncodeChar_of_mem (List.mem_of_getLast? last) (by decide)).2
      rw [if_neg last, if_neg (fun last => same (Option.some.inj last)), back]

/-- By induction on the characters: the bytes of one that is no line feed stand on the line that it
stands on. -/
theorem linesFrom_encoded (line cs : List Char) :
    linesFrom 10 13 (line.reverse.flatMap String.utf8EncodeChar).reverse
        (cs.flatMap String.utf8EncodeChar) =
      (linesFrom '\n' '\r' line cs).map (·.flatMap String.utf8EncodeChar) := by
  induction cs generalizing line with
  | nil =>
    cases line with
    | nil => rfl
    | cons c line =>
      have some : (c :: line).reverse.flatMap String.utf8EncodeChar ≠ [] := by
        rw [List.reverse_cons, List.flatMap_append, List.flatMap_singleton]
        exact List.append_ne_nil_of_right_ne_nil _ (utf8EncodeChar_ne_nil c)
      have full : (((c :: line).reverse.flatMap String.utf8EncodeChar).reverse).isEmpty = false := by
        rw [List.isEmpty_reverse]
        exact List.isEmpty_eq_false_iff.mpr some
      rw [List.flatMap_nil, linesFrom, full, linesFrom, List.reverse_reverse]
      rfl
  | cons c cs ih =>
    rw [List.flatMap_cons, linesFrom]
    by_cases feed : c = '\n'
    · subst feed
      have one : String.utf8EncodeChar '\n' = [10] := by decide
      rw [if_pos rfl, one, List.singleton_append, linesFrom, if_pos rfl, List.reverse_reverse,
        dropReturn_encoded, List.map_cons, ← ih []]
      rfl
    · rw [if_neg feed, ← ih (c :: line), linesFrom_append (feed_not_mem_utf8EncodeChar feed),
        List.reverse_cons, List.flatMap_append, List.flatMap_singleton, List.reverse_append]

theorem byteLines_encodeUtf8 (s : String) :
    byteLines (encodeUtf8 s) = (lines s.toList).map fun line => encodeUtf8 (String.ofList line) := by
  simp only [encodeUtf8, String.toList_ofList]
  exact linesFrom_encoded [] s.toList

end LineConsole.Text
