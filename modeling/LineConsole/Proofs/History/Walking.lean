import LineConsole.Proofs.History.Newest

/-! # Walking through the newest lines

A history is added to, line by line or from files, and walked through in between. Whatever is asked of
it and in whichever order, it holds the newest of all lines that were added, and its cursor stands at one
of them or right behind the newest. So a step leads to a line wherever there is one left, and a step
back can be taken back.
-/

namespace LineConsole.History

/-- What is asked of a history. -/
inductive Request where
  | add (line : String)
  | load (files : Files) (path : String)
  | previous
  | next

/-- The lines that a file adds: those in front of the first that is not UTF-8, blank ones left out.
A file that cannot be read adds none. -/
def linesOfFile (files : Files) (path : String) : List String :=
  match files.read path with
  | .ok bytes => (readableLines bytes).filter (!Text.isBlankText ·)
  | .error _ => []

/-- The lines that a request adds. -/
def Request.lines : Request → List String
  | .add line => [line]
  | .load files path => linesOfFile files path
  | .previous | .next => []

/-- The history that a request leaves. -/
def carryOut (h : History) : Request → History
  | .add line => h.add line
  | .load files path => (h.load files path).1
  | .previous => h.previous.2
  | .next => h.next.2

/-- The newest lines of those that were added, with the cursor at one of them or behind them. -/
structure KeepsNewest (capacity : Nat) (added : List String) (h : History) : Prop where
  room : h.capacity = max capacity 1
  entries : h.entries = added.rtake (max capacity 1)
  cursor : h.cursor ≤ h.entries.length

variable {h : History} {capacity : Nat} {added : List String}

theorem load_eq_foldl_add (h : History) (files : Files) (path : String) :
    (h.load files path).1 = (linesOfFile files path).foldl add h := by
  unfold load linesOfFile
  cases files.read path with
  | ok bytes => exact addBytes_fst h bytes
  | error fault => cases fault <;> rfl

/-- Behind any addition the cursor is where the last line left it. -/
theorem cursor_foldl_add {lines : List String} (h : History) (nonempty : lines ≠ []) :
    (lines.foldl add h).cursor = (lines.foldl add h).entries.length := by
  obtain ⟨earlier, last, rfl⟩ := List.eq_nil_or_concat lines |>.resolve_left nonempty
  rw [List.concat_eq_append, List.foldl_append]
  exact cursor_add _ last

/-! ## One request -/

namespace KeepsNewest

theorem ofCapacity (capacity : Nat) : KeepsNewest capacity [] (ofCapacity capacity) :=
  ⟨rfl, (List.rtake_nil _).symm, Nat.le_refl 0⟩

theorem add (newest : KeepsNewest capacity added h) (line : String) :
    KeepsNewest capacity (added ++ [line]) (h.add line) where
  room := newest.room
  entries := by rw [entries_add, newest.room, newest.entries, rtake_rtake_append]
  cursor := Nat.le_of_eq (cursor_add h line)

theorem foldl_add (newest : KeepsNewest capacity added h) (lines : List String) :
    KeepsNewest capacity (added ++ lines) (lines.foldl History.add h) := by
  induction lines generalizing h added with
  | nil => rwa [List.append_nil]
  | cons line rest ih =>
    rw [List.append_cons]
    exact ih (newest.add line)

theorem previous (newest : KeepsNewest capacity added h) :
    KeepsNewest capacity added h.previous.2 := by
  have inside := newest.cursor
  unfold History.previous
  split
  · exact newest
  · exact ⟨newest.room, newest.entries, Nat.le_trans (Nat.sub_le _ _) inside⟩

theorem next (newest : KeepsNewest capacity added h) : KeepsNewest capacity added h.next.2 := by
  unfold History.next
  split
  · exact ⟨newest.room, newest.entries, Nat.le_refl _⟩
  · rename_i before
    exact ⟨newest.room, newest.entries, Nat.le_of_not_le before⟩

theorem carryOut (newest : KeepsNewest capacity added h) (request : Request) :
    KeepsNewest capacity (added ++ request.lines) (h.carryOut request) := by
  cases request with
  | add line => exact newest.add line
  | load files path =>
    change KeepsNewest _ _ (h.load files path).1
    rw [load_eq_foldl_add]
    exact newest.foldl_add _
  | previous => exact (List.append_nil added).symm ▸ newest.previous
  | next => exact (List.append_nil added).symm ▸ newest.next

end KeepsNewest

/-! ## Any requests -/

/-- By induction on the requests. -/
theorem keepsNewest_foldl (newest : KeepsNewest capacity added h) (requests : List Request) :
    KeepsNewest capacity (added ++ requests.flatMap Request.lines) (requests.foldl carryOut h) := by
  induction requests generalizing h added with
  | nil => rwa [List.flatMap_nil, List.append_nil]
  | cons request rest ih =>
    rw [List.flatMap_cons, ← List.append_assoc]
    exact ih (newest.carryOut request)

theorem cursor_carryOut (h : History) {request : Request} (adds : request.lines ≠ []) :
    (h.carryOut request).cursor = (h.carryOut request).entries.length := by
  cases request with
  | add line => exact cursor_add h line
  | load files path =>
    change (h.load files path).1.cursor = (h.load files path).1.entries.length
    rw [load_eq_foldl_add]
    exact cursor_foldl_add h adds
  | previous | next => exact absurd rfl adds

/-! ## Steps -/

/-- Where the cursor is inside, a step back leads to a line unless the cursor is at the oldest. -/
theorem previous_of_pos (inside : h.cursor ≤ h.entries.length) (pos : 0 < h.cursor) :
    ∃ line, h.entries[h.cursor - 1]? = some line ∧
      h.previous = (some line, { h with cursor := h.cursor - 1 }) := by
  have known : h.cursor - 1 < h.entries.length := by omega
  have line : h.entries[h.cursor - 1]? = some (h.entries.get ⟨_, known⟩) :=
    List.getElem?_eq_getElem known
  refine ⟨_, line, ?_⟩
  rw [previous, if_neg (Nat.ne_of_gt pos), line]

theorem next_of_lt (before : h.cursor + 1 < h.entries.length) :
    ∃ line, h.entries[h.cursor + 1]? = some line ∧
      h.next = (some line, { h with cursor := h.cursor + 1 }) := by
  have line : h.entries[h.cursor + 1]? = some (h.entries.get ⟨_, before⟩) :=
    List.getElem?_eq_getElem before
  refine ⟨_, line, ?_⟩
  rw [next, if_neg (Nat.not_le_of_lt before), line]

/-- The step forth leads to where the cursor was, also if that is behind the newest line. -/
theorem next_previous (inside : h.cursor ≤ h.entries.length) (pos : 0 < h.cursor) :
    h.previous.2.next.2 = h := by
  have back : h.previous.2 = { h with cursor := h.cursor - 1 } := by
    rw [previous, if_neg (Nat.ne_of_gt pos)]
  have again : h.cursor - 1 + 1 = h.cursor := Nat.sub_add_cancel pos
  rw [back, next]
  dsimp only
  rw [again]
  split
  · rename_i newest
    rw [Nat.le_antisymm newest inside]
  · rfl

/-- Whatever has been asked of a history, it holds the newest of the lines that were added, as many as
it has room for, and its cursor is inside, behind the newest line after every addition. A step back
leads to the line in front of the cursor if there is one and changes nothing if there is none. A step
forth leads to the line behind the one at the cursor if there is one and behind the newest line if
there is none. Steps leave the lines alone, and a step back that led to a line is undone by the step
forth that follows. -/
theorem holds_newest_and_walks (capacity : Nat) (requests : List Request) :
    let h := requests.foldl carryOut (ofCapacity capacity)
    h.entries = (requests.flatMap Request.lines).rtake (max capacity 1) ∧
    h.cursor ≤ h.entries.length ∧
    (∀ request : Request, request.lines ≠ [] →
      (h.carryOut request).cursor = (h.carryOut request).entries.length) ∧
    (0 < h.cursor → ∃ line, h.entries[h.cursor - 1]? = some line ∧
      h.previous = (some line, { h with cursor := h.cursor - 1 })) ∧
    (h.cursor = 0 → h.previous = (none, h)) ∧
    (h.cursor + 1 < h.entries.length → ∃ line, h.entries[h.cursor + 1]? = some line ∧
      h.next = (some line, { h with cursor := h.cursor + 1 })) ∧
    (h.entries.length ≤ h.cursor + 1 →
      h.next = (none, { h with cursor := h.entries.length })) ∧
    h.previous.2.entries = h.entries ∧ h.next.2.entries = h.entries ∧
    (h.previous.1.isSome → h.previous.2.next.2 = h) := by
  intro h
  have newest : KeepsNewest capacity (requests.flatMap Request.lines) h :=
    keepsNewest_foldl (.ofCapacity capacity) requests
  refine ⟨newest.entries, newest.cursor, fun request => h.cursor_carryOut,
    previous_of_pos newest.cursor, fun home => if_pos home, next_of_lt, fun atEnd => if_pos atEnd,
    h.entries_previous, h.entries_next, fun led => next_previous newest.cursor ?_⟩
  rw [Nat.pos_iff_ne_zero]
  intro home
  rw [previous, if_pos home] at led
  cases led

end LineConsole.History
