import Mathlib.Data.List.Forall2
import LineConsole.Proofs.Editor.Typing
import LineConsole.Screen.Memory

/-! # Backward and forward

Left and right are each other's mirror image, and so are backspace and delete. On a line that is read
backwards, with the cursor between the same characters, the one key leaves the mirror image of what
the other leaves. Each of them gets ahead unless the cursor is at the end that it goes to.
-/

namespace LineConsole

/-- A key that works to the left of the cursor and the one that does the same to the right, both on words
or both on characters. -/
structure KeyEvent.Opposite (back forth : KeyEvent) : Prop where
  keys : back.key = .left ∧ forth.key = .right ∨ back.key = .backspace ∧ forth.key = .delete
  word : back.isWord = forth.isWord

namespace Editor

/-- A step to the left leads somewhere unless the cursor is at the start. -/
theorem leftOf_lt_cursor (e : Editor) (word : Bool) (behind : 0 < e.cursor) :
    e.leftOf word < e.cursor := by
  have back : e.leftOf word ≤ e.cursor - 1 := by
    cases word
    · exact Nat.le_refl _
    · exact Nat.sub_le ..
  omega

theorem cursor_lt_rightOf (e : Editor) (word : Bool) (before : e.cursor < e.buffer.length) :
    e.cursor < e.rightOf word := by
  cases word
  · exact Nat.lt_min.mpr ⟨Nat.lt_succ_self _, before⟩
  · change e.cursor < e.wordEnd
    rw [wordEnd, if_neg (Nat.not_le_of_lt before)]
    omega

theorem remove_sublist (e : Editor) {start stop : Nat} (ordered : start ≤ stop) :
    (e.remove start stop).buffer.Sublist e.buffer := by
  have front : (e.buffer.take start).Sublist (e.buffer.take stop) :=
    (List.take_prefix_take_left ordered).sublist
  have both := front.append_right (e.buffer.drop stop)
  rwa [List.take_append_drop] at both

end Editor

namespace Draft

/-- The line read backwards, with the cursor between the same characters. -/
structure Mirrors (d d' : Draft) : Prop where
  buffer : d'.buffer = d.buffer.reverse
  cursor : d.cursor + d'.cursor = d.buffer.length

/-- The cursor has moved by a character or more, or a character or more has been taken out. -/
def GetsAhead (before after : Draft) : Key → Prop
  | .left => after.buffer = before.buffer ∧ after.cursor < before.cursor
  | .right => after.buffer = before.buffer ∧ before.cursor < after.cursor
  | .backspace | .delete =>
    after.buffer.Sublist before.buffer ∧ after.buffer.length < before.buffer.length
  | _ => False

variable {d d' : Draft} {back forth : KeyEvent}

namespace Mirrors

theorem length (mirrored : d.Mirrors d') : d'.buffer.length = d.buffer.length := by
  rw [mirrored.buffer, List.length_reverse]

/-- What the one search passes over is, read backwards, what the other passes over. -/
theorem wordStart_add_wordEnd (mirrored : d.Mirrors d') :
    d.editor.wordStart + d'.editor.wordEnd = d.buffer.length := by
  have length := mirrored.length
  have cursor := mirrored.cursor
  change (d.cursor - 1) - ((d.buffer.take (d.cursor - 1)).reverse.takeWhile (· != ' ')).length +
    (if d'.buffer.length ≤ d'.cursor then d'.buffer.length
      else d'.cursor + 1 + ((d'.buffer.drop (d'.cursor + 1)).takeWhile (· != ' ')).length) = _
  split
  · omega
  · rename_i before
    have same : d'.buffer.drop (d'.cursor + 1) = (d.buffer.take (d.cursor - 1)).reverse := by
      rw [mirrored.buffer, List.drop_reverse]
      congr 2
      omega
    have passed : ((d.buffer.take (d.cursor - 1)).reverse.takeWhile (· != ' ')).length ≤
        d.cursor - 1 := by
      calc _ ≤ (d.buffer.take (d.cursor - 1)).reverse.length :=
            (List.takeWhile_sublist _).length_le
        _ ≤ d.cursor - 1 := by
            rw [List.length_reverse]
            exact List.length_take_le _ _
    rw [same]
    omega

theorem leftOf_add_rightOf (mirrored : d.Mirrors d') (word : Bool) :
    d.editor.leftOf word + d'.editor.rightOf word = d.buffer.length := by
  cases word with
  | true => exact mirrored.wordStart_add_wordEnd
  | false =>
    have length := mirrored.length
    have cursor := mirrored.cursor
    change d.cursor - 1 + min (d'.cursor + 1) d'.buffer.length = _
    omega

/-- The characters from `start` to the cursor are those from the cursor to `stop` in the mirror. -/
theorem remove (mirrored : d.Mirrors d') {start stop : Nat} (ordered : start ≤ d.cursor)
    (places : start + stop = d.buffer.length) :
    (d.become (d.editor.remove start d.cursor)).Mirrors
      (d'.become (d'.editor.remove d'.cursor stop)) where
  buffer := by
    have cursor := mirrored.cursor
    change d'.buffer.take d'.cursor ++ d'.buffer.drop stop =
      (d.buffer.take start ++ d.buffer.drop d.cursor).reverse
    rw [List.reverse_append, mirrored.buffer, List.take_reverse, List.drop_reverse]
    congr 3 <;> omega
  cursor := by
    have cursor := mirrored.cursor
    change start + d'.cursor = (d.buffer.take start ++ d.buffer.drop d.cursor).length
    rw [List.length_append, List.length_take, List.length_drop]
    omega

end Mirrors

theorem press_of_left (key : back.key = .left) :
    d.press back = { d with cursor := d.editor.leftOf back.isWord } := by
  obtain ⟨ch, _, modifiers⟩ := back
  obtain rfl := key
  rfl

theorem press_of_right (key : forth.key = .right) :
    d.press forth = { d with cursor := d.editor.rightOf forth.isWord } := by
  obtain ⟨ch, _, modifiers⟩ := forth
  obtain rfl := key
  rfl

theorem press_of_backspace (key : back.key = .backspace) :
    d.press back = if d.cursor = 0 then d
      else d.become (d.editor.remove (d.editor.leftOf back.isWord) d.cursor) := by
  obtain ⟨ch, _, modifiers⟩ := back
  obtain rfl := key
  rfl

theorem press_of_delete (key : forth.key = .delete) :
    d.press forth = if d.buffer.length ≤ d.cursor then d
      else d.become (d.editor.remove d.cursor (d.editor.rightOf forth.isWord)) := by
  obtain ⟨ch, _, modifiers⟩ := forth
  obtain rfl := key
  rfl

/-- One case for each pair of keys. -/
theorem Mirrors.press (mirrored : d.Mirrors d') (opposite : back.Opposite forth) :
    (d.press back).Mirrors (d'.press forth) := by
  have length := mirrored.length
  have cursor := mirrored.cursor
  have places := mirrored.leftOf_add_rightOf back.isWord
  rw [opposite.word] at places
  obtain ⟨left, right⟩ | ⟨backspace, delete⟩ := opposite.keys
  · rw [press_of_left left, press_of_right right, opposite.word]
    exact ⟨mirrored.buffer, places⟩
  · rw [press_of_backspace backspace, press_of_delete delete, opposite.word]
    by_cases home : d.cursor = 0
    · rw [if_pos home, if_pos (by omega)]
      exact mirrored
    · rw [if_neg home, if_neg (by omega)]
      exact mirrored.remove (d.editor.leftOf_le_cursor _) places

theorem Mirrors.symm (mirrored : d.Mirrors d') : d'.Mirrors d where
  buffer := by rw [mirrored.buffer, List.reverse_reverse]
  cursor := by rw [Nat.add_comm, mirrored.cursor, mirrored.length]

/-- By induction on the keys: a line that is edited with the opposite keys throughout stays the mirror
image. -/
theorem Mirrors.after {events events' : List KeyEvent} (mirrored : d.Mirrors d')
    (opposite : List.Forall₂ (fun e e' => e.Opposite e' ∨ e'.Opposite e) events events') :
    (d.after events).Mirrors (d'.after events') := by
  induction opposite generalizing d d' with
  | nil => exact mirrored
  | cons first _ ih =>
    rcases first with toLeft | toRight
    · exact ih (mirrored.press toLeft)
    · exact ih (mirrored.symm.press toRight).symm

/-! ## Getting ahead -/

/-- Characters that go are taken out of the line. -/
private theorem shorter_of_remove {start stop : Nat} (ordered : start < stop)
    (inside : stop ≤ d.buffer.length) :
    (d.become (d.editor.remove start stop)).buffer.Sublist d.buffer ∧
      (d.become (d.editor.remove start stop)).buffer.length < d.buffer.length := by
  have length := d.editor.length_remove (Nat.le_of_lt ordered) inside
  change _ = d.buffer.length - (stop - start) at length
  exact ⟨d.editor.remove_sublist (Nat.le_of_lt ordered), by rw [become, length]; omega⟩

theorem getsAhead_back (opposite : back.Opposite forth) (inside : d.cursor ≤ d.buffer.length)
    (behind : 0 < d.cursor) : d.GetsAhead (d.press back) back.key := by
  have less := d.editor.leftOf_lt_cursor back.isWord behind
  obtain ⟨left, -⟩ | ⟨backspace, -⟩ := opposite.keys
  · rw [press_of_left left, left]
    exact ⟨rfl, less⟩
  · rw [press_of_backspace backspace, if_neg (Nat.ne_of_gt behind), backspace]
    exact shorter_of_remove less inside

theorem getsAhead_forth (opposite : back.Opposite forth) (before : d.cursor < d.buffer.length) :
    d.GetsAhead (d.press forth) forth.key := by
  have more := d.editor.cursor_lt_rightOf forth.isWord before
  have inside := d.editor.rightOf_le_length forth.isWord
  obtain ⟨-, right⟩ | ⟨-, delete⟩ := opposite.keys
  · rw [press_of_right right, right]
    exact ⟨rfl, more⟩
  · rw [press_of_delete delete, if_neg (Nat.not_le_of_lt before), delete]
    exact shorter_of_remove more inside

/-- At the end that it goes to, a key does nothing. -/
theorem Mirrors.press_of_home (mirrored : d.Mirrors d') (opposite : back.Opposite forth)
    (home : d.cursor = 0) : d.press back = d ∧ d'.press forth = d' := by
  have length := mirrored.length
  have cursor := mirrored.cursor
  have places := mirrored.leftOf_add_rightOf forth.isWord
  have stays := d.editor.leftOf_le_cursor forth.isWord
  change _ ≤ d.cursor at stays
  obtain ⟨left, right⟩ | ⟨backspace, delete⟩ := opposite.keys
  · rw [press_of_left left, press_of_right right, opposite.word]
    have first : d.editor.leftOf forth.isWord = d.cursor := by omega
    have last : d'.editor.rightOf forth.isWord = d'.cursor := by omega
    rw [first, last]
    exact ⟨rfl, rfl⟩
  · rw [press_of_backspace backspace, press_of_delete delete, if_pos home, if_pos (by omega)]
    exact ⟨rfl, rfl⟩

end Draft

namespace Session

open KeyEvent

variable {S T : Type} [Screen S] [Screen T]

/-- Keys that type nothing and enter nothing have changed the line before the screen can fail. -/
theorem draft_of_apply {event : KeyEvent} (typesNothing : event.key ≠ .char)
    (other : event.key ≠ .enter) (s : Session S) :
    (leftBy (apply event) s).draft = s.draft.press event := by
  have typed : ¬ event.isInterrupt := fun interrupts => typesNothing (key_of_isInterrupt interrupts)
  exact leftBy_of_ensures ((apply_presses_of_drawn typed other).imp
    (fun _ _ pressed => pressed.draft) fun _ _ pressed => pressed.draft)

/-- On lines that are mirror images, whatever the screens and the prompts are and even if drawing fails,
the one key leaves the mirror image of what the other leaves. Each moves the cursor or takes characters
out unless the cursor is at the end that the key goes to, where both leave the line alone. -/
theorem opposite_keys_mirror {back forth : KeyEvent} (opposite : back.Opposite forth)
    {s : Session S} {t : Session T} (mirrored : s.draft.Mirrors t.draft) :
    (leftBy (apply back) s).draft.Mirrors (leftBy (apply forth) t).draft ∧
    (0 < s.editor.cursor → s.draft.GetsAhead (leftBy (apply back) s).draft back.key) ∧
    (t.editor.cursor < t.editor.buffer.length →
      t.draft.GetsAhead (leftBy (apply forth) t).draft forth.key) ∧
    (s.editor.cursor = 0 → (leftBy (apply back) s).draft = s.draft ∧
      (leftBy (apply forth) t).draft = t.draft) := by
  have inside : s.draft.cursor ≤ s.draft.buffer.length := by
    have cursor := mirrored.cursor
    omega
  have drafts : (leftBy (apply back) s).draft = s.draft.press back ∧
      (leftBy (apply forth) t).draft = t.draft.press forth := by
    obtain ⟨left, right⟩ | ⟨backspace, delete⟩ := opposite.keys
    · exact ⟨draft_of_apply (by simp [left]) (by simp [left]) s,
        draft_of_apply (by simp [right]) (by simp [right]) t⟩
    · exact ⟨draft_of_apply (by simp [backspace]) (by simp [backspace]) s,
        draft_of_apply (by simp [delete]) (by simp [delete]) t⟩
  rw [drafts.1, drafts.2]
  exact ⟨mirrored.press opposite, fun behind => Draft.getsAhead_back opposite inside behind,
    fun before => Draft.getsAhead_forth opposite before, mirrored.press_of_home opposite⟩

/-- A line with two spaces in it, and the cursor behind them. -/
def spaced : Session MemoryScreen :=
  ⟨{ Editor.new "> " false with buffer := "ls  -a".toList, cursor := 4 }, .ofWidth 40, .ofCapacity 1⟩

/-- The same line from its end to its start, on a screen of its own. -/
def turned : Session MemoryScreen :=
  ⟨{ Editor.new "$ " true with buffer := "a-  sl".toList, cursor := 2 }, .ofWidth 3, .ofCapacity 1⟩

theorem spaced_mirrors : KeyEvent.Opposite (.word .backspace) (.word .delete) ∧
    spaced.draft.Mirrors turned.draft ∧
    (leftBy (apply (.word .backspace)) spaced).editor.buffer = "ls -a".toList ∧
    (leftBy (apply (.word .delete)) turned).editor.buffer = "a- sl".toList ∧
    spaced.draft.GetsAhead (leftBy (apply (.word .backspace)) spaced).draft .backspace := by
  have opposite : KeyEvent.Opposite (.word .backspace) (.word .delete) := ⟨.inr ⟨rfl, rfl⟩, rfl⟩
  have mirrored : spaced.draft.Mirrors turned.draft := ⟨by decide, by decide⟩
  have removed : (leftBy (apply (.word .backspace)) spaced).draft.buffer = "ls -a".toList := by
    decide +kernel
  obtain ⟨mirrors, ahead, -, -⟩ := opposite_keys_mirror opposite mirrored
  refine ⟨opposite, mirrored, removed, ?_, ahead (by decide)⟩
  have other := mirrors.buffer
  rw [removed] at other
  exact other.trans (by decide)

end Session

end LineConsole
