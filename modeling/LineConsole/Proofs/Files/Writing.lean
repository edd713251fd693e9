import LineConsole.Files

/-! # Reading what was written

A file that was written is read back as it was written: writing changes no directory, so the path leads
to the same place as before.
-/

namespace LineConsole

namespace Files

variable {files after : Files}

theorem lookup_filter_ne {α β : Type} [BEq α] [LawfulBEq α] {key other : α}
    (entries : List (α × β)) (ne : other ≠ key) :
    (entries.filter (·.1 != key)).lookup other = entries.lookup other := by
  induction entries with
  | nil => rfl
  | cons entry rest ih =>
    cases same : entry.1 == key with
    | true =>
      have other : (other == entry.1) = false := by
        rw [eq_of_beq same]
        exact beq_false_of_ne ne
      rw [List.filter_cons_of_neg (by simp [bne, same]), ih, List.lookup_cons, other]
    | false =>
      rw [List.filter_cons_of_pos (by simp [bne, same]), List.lookup_cons, List.lookup_cons, ih]

theorem nodeAt?_put_self {place : List String} (node : Node) (below : place ≠ []) :
    (files.put place node).nodeAt? place = some node := by
  rw [nodeAt?, if_neg below, put, List.lookup_cons_self]

theorem nodeAt?_put_of_ne {place other : List String} (node : Node) (ne : other ≠ place) :
    (files.put place node).nodeAt? other = files.nodeAt? other := by
  have key : (other == place) = false := beq_false_of_ne ne
  unfold nodeAt?
  split
  · rfl
  · rw [put, List.lookup_cons, key]
    exact lookup_filter_ne files.nodes ne

/-- By induction on the names: a walk passes directories alone, and none of them is changed. -/
theorem walk_put {target place : List String} {node : Node} {names : List String}
    (free : files.nodeAt? target ≠ some .directory) (led : files.walk place names = .ok target) :
    (files.put target node).walk place names = .ok target := by
  induction names generalizing place with
  | nil => exact led
  | cons name rest ih =>
    rw [walk] at led ⊢
    cases found : files.nodeAt? place with
    | none =>
      rw [found] at led
      cases led
    | some there =>
      cases there with
      | file bytes =>
        rw [found] at led
        cases led
      | directory =>
        have ne : place ≠ target := fun same => free (same ▸ found)
        rw [found] at led
        rw [nodeAt?_put_of_ne node ne, found]
        dsimp only at led ⊢
        split at led
        · cases led
        · rw [if_neg ‹_›]
          exact ih led

theorem place_put {target : List String} {node : Node} {path : String}
    (free : files.nodeAt? target ≠ some .directory) (led : files.place path = .ok target) :
    (files.put target node).place path = .ok target := by
  unfold place at led ⊢
  dsimp only at led ⊢
  split at led
  · cases led
  · split at led
    · cases led
    · split at led
      · cases led
      · rw [if_neg ‹_›, if_neg ‹_›, if_neg ‹_›]
        exact walk_put free led

/-- Where a file can be written: at a file, or at nothing in a directory. -/
def IsWritable (files : Files) (place : List String) : Prop :=
  (∃ bytes, files.nodeAt? place = some (.file bytes)) ∨
    files.nodeAt? place = none ∧ files.nodeAt? place.dropLast = some .directory

theorem IsWritable.not_directory {place : List String} (writable : files.IsWritable place) :
    files.nodeAt? place ≠ some .directory := by
  rcases writable with ⟨bytes, file⟩ | ⟨none, -⟩
  · rw [file]
    exact fun same => nomatch same
  · rw [none]
    exact fun same => nomatch same

theorem write_eq_ok_iff {path : String} {bytes : List UInt8} :
    files.write path bytes = .ok after ↔ ∃ place, files.place path = .ok place ∧
      files.IsWritable place ∧ after = files.put place (.file bytes) := by
  unfold write
  constructor
  · intro wrote
    cases led : files.place path with
    | error fault =>
      rw [led] at wrote
      cases wrote
    | ok place =>
      simp only [led, bind, Except.bind] at wrote
      refine ⟨place, rfl, ?_⟩
      split at wrote
      · rename_i bytes' found
        cases wrote
        exact ⟨.inl ⟨bytes', found⟩, rfl⟩
      · cases wrote
      · rename_i none
        split at wrote
        · cases wrote
          exact ⟨.inr ⟨none, ‹_›⟩, rfl⟩
        · cases wrote
  · rintro ⟨place, led, ⟨bytes', found⟩ | ⟨none, above⟩, rfl⟩
    · simp only [led, found, bind, Except.bind]
    · simp only [led, none, above, bind, Except.bind, if_true]

/-- What was written is read. -/
theorem read_of_write {path : String} {bytes : List UInt8}
    (wrote : files.write path bytes = .ok after) : after.read path = .ok bytes := by
  obtain ⟨place, led, writable, rfl⟩ := write_eq_ok_iff.mp wrote
  have free := writable.not_directory
  have below : place ≠ [] := fun root => free (by rw [root]; rfl)
  have found : (files.put place (.file bytes)).lookup path = .ok (.file bytes) := by
    simp only [lookup, place_put free led, nodeAt?_put_self _ below, bind, Except.bind]
  rw [read, found]
  rfl

end Files

end LineConsole
