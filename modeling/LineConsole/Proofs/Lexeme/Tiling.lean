import LineConsole.Proofs.Lexeme.Lossless
import LineConsole.Proofs.Location.LineTable
import Mathlib.Data.List.Chain

/-! # Lexemes tile the text

However many lexemes are read, the first begins where the text does and each begins where the one
before it ends. Where that is depends on the characters so far alone: it is the location of their
number, which the lexer comes to by walking and the line table by a search.
-/

namespace LineConsole.Lexer

open Lexeme

theorem filterMap_ok_cons (lexeme : Lexeme) (items : List (Except Fault Lexeme)) :
    (.ok lexeme :: items).filterMap Except.toOption = lexeme :: items.filterMap Except.toOption := rfl

theorem Items.tiled {l : Location} {cs : List Char} {items : List (Except Fault Lexeme)}
    (read : Items l cs items) :
    (∀ first ∈ (items.filterMap Except.toOption).head?, first.start = l) ∧
      (items.filterMap Except.toOption).IsChain (·.stop = ·.start) := by
  induction read with
  | last l => exact ⟨by rintro _ ⟨⟩; rfl, .singleton _⟩
  | lexeme some inner later ih =>
    rw [filterMap_ok_cons, List.isChain_cons]
    exact ⟨by rintro _ ⟨⟩; rfl, fun next there => (ih.1 next there).symm, ih.2⟩
  | unterminated opens unclosed => exact ⟨nofun, .nil⟩

/-- By induction on the items: a lexeme begins and ends where the characters so far lead. -/
theorem Items.located {l : Location} {cs : List Char} {items : List (Except Fault Lexeme)}
    (read : Items l cs items) {before after : List Lexeme} {lexeme : Lexeme}
    (there : items.filterMap Except.toOption = before ++ lexeme :: after) :
    lexeme.start = l.advance (joined before) ∧ lexeme.stop = l.advance (joined (before ++ [lexeme])) := by
  induction read generalizing before with
  | last l =>
    cases before with
    | nil =>
      obtain ⟨rfl, rfl⟩ := List.cons.inj there
      exact ⟨rfl, by simp [joined]⟩
    | cons first before => exact absurd (List.cons.inj there).2 (by simp)
  | @lexeme l kind content rest items some inner later ih =>
    rw [filterMap_ok_cons] at there
    cases before with
    | nil =>
      obtain ⟨rfl, rfl⟩ := List.cons.inj there
      exact ⟨rfl, by simp [joined]⟩
    | cons first before =>
      obtain ⟨rfl, behind⟩ := List.cons.inj there
      obtain ⟨start, stop⟩ := ih behind
      simp only [joined, List.cons_append, List.flatMap_cons, Location.advance_append,
        String.toList_ofList]
      exact ⟨start, stop⟩
  | unterminated opens unclosed => cases before <;> cases there

theorem joined_run_prefix (source : String) :
    joined ((ofSource source).run.1.filterMap Except.toOption) <+: normalized source := by
  rcases run_complete_or_breaksOff source with complete | breaksOff
  · rw [complete.joined]
  · exact breaksOff.joined

theorem joined_append (front back : List Lexeme) : joined (front ++ back) = joined front ++ joined back :=
  List.flatMap_append

/-- Where the lexemes begin of which so many characters stand in front. -/
theorem locate_joined {source : String} {before after : List Lexeme}
    (there : (ofSource source).run.1.filterMap Except.toOption = before ++ after) :
    (LineTable.ofText (normalized source)).locate (joined before).length =
      Location.start.advance (joined before) := by
  obtain ⟨rest, whole⟩ := joined_run_prefix source
  rw [LineTable.locate_ofText, ← whole, there, joined_append, List.append_assoc,
    Location.ofOffset_append]

/-- However many lexemes are read, they lie one behind the other from the beginning of the text, each
of them from the location of the number of characters in front of it to that of those with its own.
An offset, in the text or past its end, has the location that counts the line feeds in front of it
and the characters since the last of them; no two offsets have the same, and a later offset has a
later one. -/
theorem lexemes_tile (source : String) :
    let text := terminated (Text.unifyLineEnds source.toList)
    let table := LineTable.ofText text
    (∀ count,
      let lexemes := ((ofSource source).take count).1.filterMap Except.toOption
      (∀ first ∈ lexemes.head?, first.start = ⟨0, 0⟩) ∧
      lexemes.IsChain (·.stop = ·.start) ∧
      ∀ before lexeme after, lexemes = before ++ lexeme :: after →
        lexeme.start = table.locate (joined before).length ∧
        lexeme.stop = table.locate (joined (before ++ [lexeme])).length) ∧
    (∀ offset, table.lineStart offset ≤ offset ∧ Location.LiesAt text offset (table.locate offset) ∧
      table.locate offset = Location.ofOffset text offset) ∧
    Function.Injective table.locate ∧
    StrictMono fun offset => toLex ((table.locate offset).line, (table.locate offset).column) := by
  intro text table
  have same : table = LineTable.ofText (normalized source) :=
    congrArg LineTable.ofText (normalized_eq_terminated source).symm
  have read : Items .start (body source) (ofSource source).run.1 :=
    (take_items (ofSource source) rfl (Nat.lt_succ_self _)).1
  have later : StrictMono fun offset =>
      toLex ((table.locate offset).line, (table.locate offset).column) := by
    simpa only [table, LineTable.locate_ofText] using Location.strictMono_ofOffset text
  refine ⟨fun count => ?_, fun offset => ?_, fun offset offset' equal => ?_, later⟩
  · intro lexemes
    obtain ⟨more, whole⟩ := (take_prefix_run (ofSource source) rfl count).filterMap Except.toOption
    obtain ⟨first, chain⟩ := read.tiled
    rw [← whole] at first chain
    refine ⟨fun lexeme there => ?_, ?_, fun before lexeme after there => ?_⟩
    · exact first lexeme (by rw [List.head?_append, Option.mem_def.mp there]; rfl)
    · exact (List.isChain_append.mp chain).1
    · have total : (ofSource source).run.1.filterMap Except.toOption =
          before ++ lexeme :: (after ++ more) := by
        rw [← whole]
        exact (congrArg (· ++ more) there).trans (by simp)
      have total' : (ofSource source).run.1.filterMap Except.toOption =
          (before ++ [lexeme]) ++ (after ++ more) := total.trans (by simp)
      obtain ⟨start, stop⟩ := read.located total
      rw [same, locate_joined total, locate_joined total']
      exact ⟨start, stop⟩
  · exact ⟨table.lineStart_le offset, LineTable.liesAt_locate text offset, LineTable.locate_ofText text offset⟩
  · exact later.injective (congrArg (fun l : Location => toLex (l.line, l.column)) equal)

end LineConsole.Lexer
