import LineConsole.History.File
import Mathlib.Data.List.DropRight

/-! # The newest lines

A history keeps the newest of the lines that were added to it, whether they came one by one or all
from a file. From a file come the lines up to the first that cannot be decoded.
-/

namespace LineConsole

/-- A line that is blank once trimmed was nothing but blanks. -/
theorem Text.isBlankText_trimmed_iff (s : String) :
    isBlankText (trimmed s) = true ↔ trim s.toList = [] := by
  rw [isBlankText, trimmed, String.toList_ofList]
  constructor
  · intro blank
    rw [trim, trimEnd, List.all_reverse, List.all_eq_true] at blank
    rw [trim, trimEnd, ← List.dropWhile_idempotent, List.dropWhile_eq_nil_iff.mpr blank,
      List.reverse_nil]
  · intro none
    rw [none]
    rfl

namespace History

variable {h : History} {lines : List String}

/-- What is added later pushes out as much as if nothing had been pushed out before. -/
theorem rtake_rtake_append {α : Type} (n : Nat) (xs ys : List α) :
    (xs.rtake n ++ ys).rtake n = (xs ++ ys).rtake n := by
  simp only [List.rtake_eq_reverse_take_reverse, List.reverse_append, List.reverse_reverse,
    List.take_append, List.take_take]
  rw [Nat.min_eq_left (Nat.sub_le _ _)]

theorem entries_add (h : History) (line : String) :
    (h.add line).entries = (h.entries ++ [line]).rtake h.capacity := by
  rw [List.rtake, List.length_append, List.length_singleton]
  rfl

/-- By induction on the lines added. -/
theorem entries_foldl_add (within : h.entries.length ≤ h.capacity) :
    (lines.foldl add h).entries = (h.entries ++ lines).rtake h.capacity := by
  induction lines generalizing h with
  | nil =>
    rw [List.append_nil, List.rtake, Nat.sub_eq_zero_of_le within, List.drop_zero]
    rfl
  | cons line rest ih =>
    calc (rest.foldl add (h.add line)).entries
        = ((h.add line).entries ++ rest).rtake h.capacity := ih (length_entries_add_le h line)
      _ = ((h.entries ++ [line]) ++ rest).rtake h.capacity := by
          rw [entries_add, rtake_rtake_append]
      _ = (h.entries ++ line :: rest).rtake h.capacity := by
          rw [List.append_assoc, List.singleton_append]

/-- A history that began empty holds the newest of the lines that are not blank. -/
theorem entries_addAll_ofCapacity (capacity : Nat) (lines : List String) :
    ((ofCapacity capacity).addAll lines).entries =
      (lines.filter (!Text.isBlankText ·)).rtake (max capacity 1) :=
  entries_foldl_add (Nat.zero_le _)

theorem addAll_append (h : History) (first second : List String) :
    h.addAll (first ++ second) = (h.addAll first).addAll second := by
  rw [addAll, List.filter_append, List.foldl_append]
  rfl

theorem addAll_nil (h : History) : h.addAll [] = h := rfl

theorem addAll_singleton_of_blank {line : String} (blank : Text.isBlankText line = true) :
    h.addAll [line] = h := by
  rw [addAll, List.filter_cons_of_neg (by simp [blank])]
  rfl

theorem addAll_singleton_of_inked {line : String} (inked : Text.isBlankText line = false) :
    h.addAll [line] = h.add line := by
  rw [addAll, List.filter_cons_of_pos (by simp [inked])]
  rfl

/-! ## From a file -/

/-- The lines of a history file up to the first that is not UTF-8. -/
def readableLines (bytes : List UInt8) : List String :=
  ((Text.byteLines bytes).takeWhile fun line => (Text.decodeUtf8 line).isSome).filterMap
    Text.decodeUtf8

theorem decodeLines_fst (lines : List (List UInt8)) : (decodeLines lines).1 =
    (lines.takeWhile fun line => (Text.decodeUtf8 line).isSome).filterMap Text.decodeUtf8 := by
  induction lines with
  | nil => rfl
  | cons line rest ih =>
    rw [decodeLines]
    cases decoded : Text.decodeUtf8 line with
    | none =>
      rw [List.takeWhile_cons_of_neg (by simp [decoded])]
      rfl
    | some text =>
      rw [List.takeWhile_cons_of_pos (by simp [decoded]), List.filterMap_cons_some decoded, ← ih]

/-- Where every line can be decoded, every line is read. -/
theorem readableLines_of_decodable {bytes : List UInt8}
    (decodable : ∀ line ∈ Text.byteLines bytes, (Text.decodeUtf8 line).isSome = true) :
    readableLines bytes = (Text.byteLines bytes).filterMap Text.decodeUtf8 := by
  rw [readableLines, List.takeWhile_eq_self_iff.mpr decodable]

/-- Lines in a file, each with a line feed behind it. -/
def encodeLines (lines : List String) : List UInt8 :=
  lines.flatMap fun line => Text.encodeUtf8 line ++ [10]

theorem addBytes_fst (h : History) (bytes : List UInt8) :
    (h.addBytes bytes).1 = h.addAll (readableLines bytes) := by
  rw [readableLines, ← decodeLines_fst]
  rfl

end History

end LineConsole
