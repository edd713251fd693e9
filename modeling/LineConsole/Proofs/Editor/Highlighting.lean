import LineConsole.Proofs.Editor.Fidelity
import LineConsole.Proofs.Text.Runs
import LineConsole.Shell.Resolution

/-! # The highlighted name

While a line is typed, the editor draws what stands in front of its first space in the style of a
command. When the line is entered, the shell takes the blanks off its ends and then splits a name off
in front of the first blank that is left. The two agree on every line but two kinds: one that begins
with a space and goes on, and one with a blank other than a space in front of its first space.
-/

namespace LineConsole

/-- The name that a shell splits off a line. -/
def commandName (line : List Char) : List Char := (splitCommand (Text.trim line)).1

/-- Where the name begins: behind the blanks at the start of the line. -/
def nameStart (line : List Char) : Nat := (line.takeWhile Text.isBlank).length

/-- The character at an index of the line is one of the name's. -/
def InName (line : List Char) (i : Nat) : Prop :=
  nameStart line ≤ i ∧ i < nameStart line + (commandName line).length

instance (line : List Char) (i : Nat) : Decidable (InName line i) :=
  inferInstanceAs (Decidable (_ ∧ _))

section Name

variable {line : List Char}

theorem drop_nameStart (line : List Char) : line.drop (nameStart line) = Text.trimStart line :=
  calc line.drop (nameStart line)
      = (line.takeWhile Text.isBlank ++ line.dropWhile Text.isBlank).drop (nameStart line) := by
        rw [List.takeWhile_append_dropWhile]
    _ = Text.trimStart line := List.drop_left

/-- The name stands in the line where it is said to begin. -/
theorem commandName_prefix_drop (line : List Char) : commandName line <+: line.drop (nameStart line) := by
  rw [drop_nameStart]
  exact (List.takeWhile_prefix _).trans (Text.trim_prefix_trimStart line)

theorem InName.inked {i : Nat} (within : InName line i) (inside : i < line.length) :
    Text.isBlank (line.get ⟨i, inside⟩) = false := by
  obtain ⟨k, rfl⟩ := Nat.exists_eq_add_of_le within.1
  have short : k < (commandName line).length := Nat.lt_of_add_lt_add_left within.2
  have same := (commandName_prefix_drop line).getElem short
  rw [List.getElem_drop] at same
  rw [List.get_eq_getElem, ← same]
  exact inked_of_mem_splitCommand (List.getElem_mem short)

theorem commandName_of_blank (blank : line.all Text.isBlank = true) : commandName line = [] := by
  have none : Text.trimStart line = [] := List.dropWhile_eq_nil_iff.mpr (List.all_eq_true.mp blank)
  rw [commandName, Text.trim, none]
  rfl

/-- A line that is not blank has a name, which begins with its first other character. -/
theorem commandName_ne_nil (inked : line.all Text.isBlank = false) : commandName line ≠ [] := by
  intro none
  have full : Text.trimStart line ≠ [] := fun empty =>
    Bool.eq_false_iff.mp inked (List.all_eq_true.mpr (List.dropWhile_eq_nil_iff.mp empty))
  obtain ⟨c, rest, begins⟩ := List.exists_cons_of_ne_nil full
  have first : Text.isBlank c = false := by
    have stops := List.head?_dropWhile_not Text.isBlank line
    rwa [← Text.trimStart, begins] at stops
  have trimmed : Text.trim line = c :: Text.trimEnd rest := by
    rw [Text.trim, begins]
    exact Text.trimEnd_append_cons first [] rest
  rw [commandName, trimmed, splitCommand, List.takeWhile_cons_of_pos (by simp [first])] at none
  exact List.cons_ne_nil _ _ none

/-- What stands in front of the first space is the name if it holds no blank and is not empty. -/
theorem commandName_of_word {word rest : List Char} (full : word ≠ [])
    (inked : ∀ c ∈ word, Text.isBlank c = false) (ends : ∀ c ∈ rest.head?, Text.isBlank c = true) :
    nameStart (word ++ rest) = 0 ∧ commandName (word ++ rest) = word := by
  obtain ⟨c, cs, rfl⟩ := List.exists_cons_of_ne_nil full
  have first : Text.isBlank c = false := inked c List.mem_cons_self
  have start : nameStart (c :: cs ++ rest) = 0 := by
    rw [nameStart, List.cons_append, List.takeWhile_cons_of_neg (Bool.eq_false_iff.mp first)]
    rfl
  refine ⟨start, ?_⟩
  have last : Text.trimEnd (c :: cs) = c :: cs :=
    Text.trimEnd_of_inked fun d last => inked d (List.mem_of_getLast? last)
  have trimmed : Text.trim (c :: cs ++ rest) = c :: cs ++ Text.trimEnd rest := by
    rw [Text.trim, ← drop_nameStart, start, List.drop_zero, Text.trimEnd_append, last]
    split
    · rename_i none
      rw [none, List.append_nil]
    · rfl
  have behind : (splitCommand (Text.trimEnd rest)).1 = [] := by
    cases rest with
    | nil => rfl
    | cons b rest =>
      have blank : Text.isBlank b = true := ends b rfl
      rw [← List.singleton_append, Text.trimEnd_append]
      split
      · rw [← List.nil_append [b], Text.trimEnd_concat_blank blank]
        rfl
      · rw [List.singleton_append, splitCommand_cons_blank blank]
  rw [commandName, trimmed, splitCommand_append inked, behind, List.append_nil]

/-- The characters in front of the first space are those of the name, unless there is a blank among
them, or unless the line begins with a space and is not blank. -/
theorem inName_iff_takeWhile :
    (∀ i < line.length, i < (line.takeWhile (· != ' ')).length ↔ InName line i) ↔
      (∀ c ∈ line.takeWhile (· != ' '), Text.isBlank c = false) ∧
        (line.head? = some ' ' → line.all Text.isBlank = true) := by
  have whole : line.takeWhile (· != ' ') ++ line.dropWhile (· != ' ') = line :=
    List.takeWhile_append_dropWhile
  constructor
  · intro same
    constructor
    · intro c within
      obtain ⟨i, short, rfl⟩ := List.mem_iff_getElem.mp within
      have inside : i < line.length :=
        Nat.lt_of_lt_of_le short (List.takeWhile_sublist _).length_le
      rw [(List.takeWhile_prefix _).getElem short]
      exact ((same i inside).mp short).inked inside
    · intro first
      by_contra inked
      have named := commandName_ne_nil (Bool.eq_false_iff.mpr inked)
      have none : line.takeWhile (· != ' ') = [] := by
        obtain ⟨rest, rfl⟩ := List.head?_eq_some_iff.mp first
        rfl
      have inside : nameStart line < line.length := by
        by_contra beyond
        have prefixed := commandName_prefix_drop line
        rw [List.drop_eq_nil_of_le (Nat.le_of_not_lt beyond)] at prefixed
        exact named (List.prefix_nil.mp prefixed)
      have within : InName line (nameStart line) :=
        ⟨Nat.le_refl _, Nat.lt_add_of_pos_right (List.length_pos_iff.mpr named)⟩
      have drawn := (same _ inside).mpr within
      rw [none] at drawn
      exact Nat.not_lt_zero _ drawn
  · rintro ⟨word, spaced⟩ i inside
    by_cases none : line.takeWhile (· != ' ') = []
    · have blank : line.all Text.isBlank = true := by
        cases line with
        | nil => rfl
        | cons c cs =>
          refine spaced ?_
          by_contra other
          rw [List.takeWhile_cons_of_pos (by simpa using other)] at none
          exact List.cons_ne_nil _ _ none
      rw [none, InName, commandName_of_blank blank]
      simp
    · have ends : ∀ c ∈ (line.dropWhile (· != ' ')).head?, Text.isBlank c = true := by
        intro c first
        obtain rfl : c = ' ' := by simpa using Text.head_dropWhile c first
        decide
      obtain ⟨start, name⟩ := commandName_of_word none word ends
      rw [whole] at start name
      rw [InName, start, name]
      simp

end Name

namespace Session

/-- On the screen the character at an index of the line is drawn as part of a command's name. -/
def Highlights (s : Session MemoryScreen) (i : Nat) : Prop :=
  (s.screen.cell? (s.screen.place (s.origin + i))).map Cell.style = some .command

instance (s : Session MemoryScreen) (i : Nat) : Decidable (s.Highlights i) :=
  inferInstanceAs (Decidable (_ = _))

theorem Faithful.highlights_iff {s : Session MemoryScreen} (faithful : s.Faithful) {i : Nat}
    (inside : i < s.editor.buffer.length) :
    s.Highlights i ↔ i < (s.editor.buffer.takeWhile (· != ' ')).length := by
  rw [Highlights, faithful.line i inside, ← Editor.styleAt_eq_command_iff inside]
  exact Option.some_inj

/-- Whatever happens to an editor on a screen in memory of any width, as long as it is not paused it
draws what stands in front of the first space of its line as the command's name. That is the name which
the shell would split off, unless it holds a blank or the line begins with a space and is not blank. -/
theorem highlighting_agrees_iff (width : Nat) (prompt : String) (rawInput : Bool) (history : History)
    (moves : List Move) (historyVisible : history.Visible)
    (movesVisible : ∀ move ∈ moves, move.Visible) :
    ∃ s, play moves ⟨Editor.new prompt rawInput, .ofWidth width, history⟩ = .ok () s ∧
      (s.editor.paused = false →
        (∀ i < s.editor.buffer.length,
          s.Highlights i ↔ i < (s.editor.buffer.takeWhile (· != ' ')).length) ∧
        ((∀ i < s.editor.buffer.length, s.Highlights i ↔ InName s.editor.buffer i) ↔
          (∀ c ∈ s.editor.buffer.takeWhile (· != ' '), Text.isBlank c = false) ∧
            (s.editor.buffer.head? = some ' ' → s.editor.buffer.all Text.isBlank = true))) := by
  obtain ⟨s, played, sound⟩ := play_sound width prompt rawInput historyVisible movesVisible
  refine ⟨s, played, fun going => ?_⟩
  have drawn : ∀ i < s.editor.buffer.length,
      s.Highlights i ↔ i < (s.editor.buffer.takeWhile (· != ' ')).length :=
    fun _ => (sound.faithful going).highlights_iff
  refine ⟨drawn, ?_⟩
  rw [← inName_iff_takeWhile]
  exact forall₂_congr fun i inside => by rw [drawn i inside]

/-- A name, a wide blank, a space and an argument; then the wide blank is taken out again. -/
def respaced : List Move :=
  [.key (.ofChar 'l'), .key (.ofChar 's'), .key (.ofChar '\u3000'), .key (.ofChar ' '),
    .key (.ofChar 'a'), .key (.plain .left), .key (.plain .left), .key (.plain .backspace)]

theorem highlighting_respaced : ∃ s,
    play respaced ⟨Editor.new "> " false, .ofWidth 4, ⟨["pwd"], 1, 3⟩⟩ = .ok () s ∧
      s.editor.buffer = ['l', 's', ' ', 'a'] ∧
      ∀ i < s.editor.buffer.length, s.Highlights i ↔ InName s.editor.buffer i := by
  have ran : ∃ s, play respaced ⟨Editor.new "> " false, .ofWidth 4, ⟨["pwd"], 1, 3⟩⟩ = .ok () s ∧
      s.editor.paused = false ∧ s.editor.buffer = ['l', 's', ' ', 'a'] := by decide +kernel
  have known : History.Visible ⟨["pwd"], 1, 3⟩ := by decide
  have unchanged : ∀ move ∈ respaced, move.Visible := by decide
  obtain ⟨s, played, going, line⟩ := ran
  obtain ⟨s', played', agrees⟩ :=
    highlighting_agrees_iff 4 "> " false ⟨["pwd"], 1, 3⟩ respaced known unchanged
  cases played.symm.trans played'
  have inked : (['l', 's'].all fun c => !Text.isBlank c) = true := by decide
  refine ⟨s, played, line, (agrees going).2.mpr ?_⟩
  rw [line]
  exact ⟨by simpa using inked, fun first => nomatch first⟩

/-- A space in front of the name. -/
def indented : List Move := [.key (.ofChar ' '), .key (.ofChar 'l'), .key (.ofChar 's')]

/-- Then the name is not drawn as one. -/
theorem highlighting_misses_indented : ∃ s,
    play indented ⟨Editor.new "> " false, .ofWidth 40, .ofCapacity 3⟩ = .ok () s ∧
      s.editor.paused = false ∧ s.editor.buffer = [' ', 'l', 's'] ∧
      commandName s.editor.buffer = ['l', 's'] ∧ InName s.editor.buffer 1 ∧ ¬ s.Highlights 1 := by
  decide +kernel

end Session

end LineConsole
