import LineConsole.Text.Blank

/-! # History of lines

A history keeps the newest lines up to its capacity, which is at least one. A cursor walks through
them; it stands behind the newest line after every addition.
-/

namespace LineConsole

structure History where
  /-- Oldest first. -/
  entries : List String
  cursor : Nat
  capacity : Nat
  deriving DecidableEq, Repr

namespace History

def ofCapacity (capacity : Nat) : History := ⟨[], 0, max capacity 1⟩

/-- The capacity of a history that no one has chosen one for. -/
def standardCapacity : Nat := 1000

def add (h : History) (line : String) : History :=
  let entries := (h.entries ++ [line]).drop (h.entries.length + 1 - h.capacity)
  { h with entries, cursor := entries.length }

/-- A step towards the oldest line, with the line it leads to. -/
def previous (h : History) : Option String × History :=
  if h.cursor = 0 then (none, h)
  else (h.entries[h.cursor - 1]?, { h with cursor := h.cursor - 1 })

/-- A step towards the newest line; behind it there is none. -/
def next (h : History) : Option String × History :=
  if h.entries.length ≤ h.cursor + 1 then (none, { h with cursor := h.entries.length })
  else (h.entries[h.cursor + 1]?, { h with cursor := h.cursor + 1 })

/-- Adds the lines that are not blank, in order. -/
def addAll (h : History) (lines : List String) : History :=
  (lines.filter (!Text.isBlankText ·)).foldl add h

/-- An addition leaves the cursor behind the newest line. -/
theorem cursor_add (h : History) (line : String) :
    (h.add line).cursor = (h.add line).entries.length := rfl

theorem length_entries_add_le (h : History) (line : String) :
    (h.add line).entries.length ≤ h.capacity := by
  simp only [add, List.length_drop, List.length_append, List.length_cons, List.length_nil]
  omega

theorem entries_previous (h : History) : h.previous.2.entries = h.entries := by
  unfold previous
  split <;> rfl

theorem entries_next (h : History) : h.next.2.entries = h.entries := by
  unfold next
  split <;> rfl

theorem mem_of_previous (h : History) (line : String) (led : h.previous.1 = some line) :
    line ∈ h.entries := by
  unfold previous at led
  split at led
  · cases led
  · exact List.mem_of_getElem? led

theorem mem_of_next (h : History) (line : String) (led : h.next.1 = some line) :
    line ∈ h.entries := by
  unfold next at led
  split at led
  · cases led
  · exact List.mem_of_getElem? led

end History

end LineConsole
