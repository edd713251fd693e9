import LineConsole.Location

/-! # Line tables

The offsets of the line feeds of a text are enough to locate any offset without walking through the
text. They are in order, so that a search finds the first of them that is not in front of an offset.
-/

namespace LineConsole

/-- The offsets of the line feeds of a text. -/
structure LineTable where
  feeds : List Nat
  increasing : feeds.Pairwise (· < ·)

namespace LineTable

/-- The offsets of the line feeds in `cs`, whose first character has the offset `first`. -/
def feedsFrom (first : Nat) (cs : List Char) : List Nat :=
  ((cs.zipIdx first).filter (·.1 = '\n')).map (·.2)

theorem mem_feedsFrom {first i : Nat} {cs : List Char} :
    i ∈ feedsFrom first cs ↔ first ≤ i ∧ cs[i - first]? = some '\n' := by
  simp [feedsFrom, List.mk_mem_zipIdx_iff_le_and_getElem?_sub]

theorem feedsFrom_append (first : Nat) (front back : List Char) :
    feedsFrom first (front ++ back) =
      feedsFrom first front ++ feedsFrom (first + front.length) back := by
  simp only [feedsFrom, List.zipIdx_append, List.filter_append, List.map_append]

theorem increasing_feedsFrom (first : Nat) (cs : List Char) :
    (feedsFrom first cs).Pairwise (· < ·) := by
  have offsets : ((cs.zipIdx first).map (·.2)).Pairwise (· < ·) := by
    rw [List.zipIdx_map_snd]
    exact List.pairwise_lt_range' 1
  exact offsets.sublist (List.filter_sublist.map _)

def ofText (cs : List Char) : LineTable := ⟨feedsFrom 0 cs, increasing_feedsFrom 0 cs⟩

/-- The line feeds in front of an offset. -/
def before (t : LineTable) (offset : Nat) : List Nat := t.feeds.takeWhile (· < offset)

/-- Where the line of an offset begins: behind the last line feed in front of it. -/
def lineStart (t : LineTable) (offset : Nat) : Nat :=
  match (t.before offset).getLast? with
  | none => 0
  | some feed => feed + 1

/-- The location of an offset; past the end of the text, columns go on counting. -/
def locate (t : LineTable) (offset : Nat) : Location :=
  ⟨(t.before offset).length, offset - t.lineStart offset⟩

end LineTable

end LineConsole
