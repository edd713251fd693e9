import LineConsole.Proofs.Files.Writing
import LineConsole.Proofs.Shell.Entering
import LineConsole.Proofs.Shell.TidyVariables
import LineConsole.Proofs.Text.Lines

/-! # Histories that are written and read again

A history file has a line feed behind every entry, and reading takes whatever stands between two of
them for an entry. Lines that were executed stand in the history trimmed and are not blank, so that
reading brings each of them back, unless it holds a line feed itself: then it comes back in pieces.
-/

namespace LineConsole

namespace Text

/-- A trimmed line does not end in a carriage return. -/
theorem dropReturn_of_trimmed {line : List Char} (whole : trim line = line) :
    dropReturn '\r' line = line := by
  have inked : line.getLast? ≠ some '\r' := by
    intro last
    rw [← whole] at last
    exact absurd (trim_last_inked line '\r' last) (by decide)
  rw [dropReturn, if_neg inked]

end Text

namespace History

variable {h : History} {capacity : Nat}

/-! ## Any history -/

/-- The lines of the file that a history is written to. -/
def fileLines (h : History) : List String :=
  (Text.lines (h.entries.flatMap (·.toList ++ ['\n']))).map String.ofList

theorem byteLines_fileBytes (h : History) :
    Text.byteLines h.fileBytes = h.fileLines.map Text.encodeUtf8 := by
  have feed : String.utf8EncodeChar '\n' = [10] := by decide
  have bytes : h.fileBytes =
      Text.encodeUtf8 (String.ofList (h.entries.flatMap (·.toList ++ ['\n']))) := by
    simp only [fileBytes, Text.encodeUtf8, String.toList_ofList, List.flatMap_assoc,
      List.flatMap_append, List.flatMap_singleton, feed]
  rw [bytes, Text.byteLines_encodeUtf8, String.toList_ofList, fileLines, List.map_map]
  rfl

theorem decodeLines_encoded (lines : List String) :
    decodeLines (lines.map Text.encodeUtf8) = (lines, .ok ()) := by
  induction lines with
  | nil => rfl
  | cons line lines ih => simp only [List.map_cons, decodeLines, Text.decodeUtf8_encodeUtf8, ih]

/-- Reading what was written adds the lines of the file and succeeds. -/
theorem load_of_save {files after : Files} {path : String} (h' : History)
    (saved : h.save files path = (after, .ok ())) :
    h'.load after path = (h'.addAll h.fileLines, .ok ()) := by
  have wrote : ∃ ready : Files, ready.write path h.fileBytes = .ok after := by
    unfold save at saved
    split at saved
    · cases saved
    · rename_i ready made
      split at saved
      · rename_i wrote
        cases saved
        exact ⟨ready, wrote⟩
      · cases saved
  obtain ⟨ready, wrote⟩ := wrote
  simp only [load, Files.read_of_write wrote, addBytes, byteLines_fileBytes, decodeLines_encoded]

theorem feed_not_mem_of_mem_fileLines {line : String} (read : line ∈ h.fileLines) :
    '\n' ∉ line.toList := by
  obtain ⟨cs, listed, rfl⟩ := List.mem_map.mp read
  rw [String.toList_ofList]
  exact Text.not_mem_of_mem_linesFrom List.not_mem_nil cs listed

/-! ## Histories of lines -/

/-- What executed lines leave in a history of this capacity. -/
structure OfLines (capacity : Nat) (h : History) : Prop where
  capacity : h.capacity = max capacity 1
  within : h.entries.length ≤ h.capacity
  trimmed : ∀ entry ∈ h.entries, Text.trim entry.toList = entry.toList
  inked : ∀ entry ∈ h.entries, Text.isBlankText entry = false

theorem ofLines_ofCapacity (capacity : Nat) : (ofCapacity capacity).OfLines capacity where
  capacity := rfl
  within := Nat.zero_le _
  trimmed _ absent := nomatch absent
  inked _ absent := nomatch absent

theorem OfLines.addAll_trimmed (lines : h.OfLines capacity) (line : String) :
    (h.addAll [Text.trimmed line]).OfLines capacity := by
  cases blank : Text.isBlankText (Text.trimmed line) with
  | true => rwa [addAll_singleton_of_blank blank]
  | false =>
    rw [addAll_singleton_of_inked blank]
    have known {entry : String} (kept : entry ∈ (h.add (Text.trimmed line)).entries) :
        entry ∈ h.entries ∨ entry = Text.trimmed line := by
      rcases List.mem_append.mp (List.mem_of_mem_drop kept) with old | new
      · exact .inl old
      · exact .inr (List.mem_singleton.mp new)
    refine ⟨lines.capacity, length_entries_add_le h _, fun entry kept => ?_, fun entry kept => ?_⟩
    · rcases known kept with old | rfl
      · exact lines.trimmed entry old
      · rw [Text.trimmed, String.toList_ofList, Text.trim_trim]
    · rcases known kept with old | rfl
      · exact lines.inked entry old
      · exact blank

/-- Without line feeds in the entries the file has just the entries for lines. -/
theorem OfLines.fileLines_eq (lines : h.OfLines capacity)
    (plain : ∀ entry ∈ h.entries, '\n' ∉ entry.toList) : h.fileLines = h.entries := by
  have texts : ∀ text ∈ h.entries.map String.toList, '\n' ∉ text := by
    intro text listed
    obtain ⟨entry, known, rfl⟩ := List.mem_map.mp listed
    exact plain entry known
  have read : Text.lines ((h.entries.map String.toList).flatMap (· ++ ['\n'])) =
      (h.entries.map String.toList).map (Text.dropReturn '\r') := Text.linesFrom_flatMap texts
  rw [List.flatMap_map, List.map_map] at read
  rw [fileLines, read, List.map_map]
  refine (List.map_congr_left fun entry known => ?_).trans (List.map_id _)
  rw [Function.comp_apply, Function.comp_apply,
    Text.dropReturn_of_trimmed (lines.trimmed entry known), String.ofList_toList, id]

/-- The entries come back just where none of them holds a line feed: what is read never does. -/
theorem OfLines.restored_iff (lines : h.OfLines capacity) :
    ((ofCapacity capacity).addAll h.fileLines).entries = h.entries ↔
      ∀ entry ∈ h.entries, '\n' ∉ entry.toList := by
  rw [entries_addAll_ofCapacity]
  constructor
  · intro same entry known
    rw [← same] at known
    exact feed_not_mem_of_mem_fileLines (List.mem_filter.mp (List.mem_of_mem_drop known)).1
  · intro plain
    have all : h.entries.filter (!Text.isBlankText ·) = h.entries :=
      List.filter_eq_self.mpr fun entry known => by rw [lines.inked entry known]; rfl
    rw [lines.fileLines_eq plain, all, List.rtake,
      Nat.sub_eq_zero_of_le (lines.capacity ▸ lines.within), List.drop_zero]

end History

/-! ## The history of a shell -/

variable {H : Type}

/-- A program that keeps the frame keeps the history, which is a part of it. -/
theorem Program.Overlooks.spares_history {program : Program H} (overlooks : program.Overlooks) :
    program.Spares Shell.history := by
  induction program with
  | finish outcome => trivial
  | inspect next ih => exact fun sh => ih sh (overlooks sh)
  | update change next ih =>
    exact ⟨fun sh => congrArg Shell.Frame.history (Shell.frame_changedBy overlooks.1), ih overlooks.2⟩
  | line text next ih => exact overlooks.elim
  | script path next ih => exact fun result => ih result (overlooks result)

namespace Shell

/-- The handlers of the host leave the history to the lines, which they may execute. -/
def LeaveHistory (host : Host H) : Prop :=
  ∀ handler arguments, (host handler arguments).Spares Shell.history

variable {host : Host H} {capacity : Nat}

/-- A line enters the history before its handler runs, and nothing else does. -/
theorem ofLines_invariant (leave : LeaveHistory host) (capacity : Nat) :
    Invariant host fun sh => sh.history.OfLines capacity where
  note _ holds := holds
  report _ _ holds := holds
  prepare {sh} line holds := by
    have entered : (sh.prepare line).1.frame.history =
        sh.frame.history.addAll [Text.trimmed line] := by
      rw [frame_prepare, Frame.history_enter]
    change (sh.prepare line).1.frame.history.OfLines capacity
    rw [entered]
    exact holds.addAll_trimmed line
  handlers {_ _ command} arguments _ _ := by
    have spares : (command.handler.program host arguments).Spares Shell.history := by
      cases command.handler with
      | builtin b => exact (b.program_overlooks arguments).spares_history
      | host handler => exact leave handler arguments
    exact spares.keeps (History.OfLines capacity)

/-- By induction on the demands. -/
theorem ofLines_of_reached {start sh : Shell H} (leave : LeaveHistory host)
    (lines : start.history.OfLines capacity) (reached : Reached host start sh) :
    sh.history.OfLines capacity := by
  have invariant := ofLines_invariant leave capacity
  induction reached with
  | start => exact lines
  | files files _ ih => exact ih
  | @demand sh after depth demand _ performed ih =>
    cases demand with
    | line text =>
      obtain ⟨⟨executed, result⟩, ran, rfl⟩ := Option.map_eq_some_iff.mp performed
      exact invariant.executeLine depth ih ran
    | typed text =>
      obtain ⟨⟨after, code⟩, ran, rfl⟩ := Option.map_eq_some_iff.mp performed
      obtain ⟨executed, result, ran, same⟩ := exists_of_runLine ran
      have history : after.history = executed.history :=
        congrArg Frame.history (congrArg Prod.fst same)
      rw [history]
      exact invariant.executeLine depth ih ran
    | script path =>
      obtain ⟨⟨executed, result⟩, ran, rfl⟩ := Option.map_eq_some_iff.mp performed
      exact invariant.executeScript depth ih ran

/-- A shell that began with an empty history has executed lines and scripts, any number of them and
whatever they were. Where its history has been written to a file, reading the file into an empty
history of the same capacity succeeds and adds the lines of the file. This gives the same entries in
the same order if no entry holds a line feed, and only then: an entry with one stands on several lines
and comes back as several entries. -/
theorem history_restored_iff (leave : LeaveHistory host) {start sh : Shell H}
    (fresh : start.history = History.ofCapacity capacity) (reached : Reached host start sh)
    {files after : Files} {path : String} (saved : sh.history.save files path = (after, .ok ())) :
    ∃ loaded, (History.ofCapacity capacity).load after path = (loaded, .ok ()) ∧
      loaded.entries =
        (sh.history.fileLines.filter (!Text.isBlankText ·)).rtake (max capacity 1) ∧
      (loaded.entries = sh.history.entries ↔ ∀ entry ∈ sh.history.entries, '\n' ∉ entry.toList) := by
  have lines : sh.history.OfLines capacity :=
    ofLines_of_reached leave (fresh ▸ History.ofLines_ofCapacity capacity) reached
  refine ⟨_, History.load_of_save _ saved, ?_, lines.restored_iff⟩
  exact History.entries_addAll_ofCapacity capacity _

/-- What a line left in a history can be written where no file is yet. -/
theorem exists_reached_of_entries {sh : Shell Unit} {line entry : String}
    (ran : (sh.executeLine idleHost 1 line).map (·.1.history.entries) = some [entry]) :
    ∃ reached after, Reached idleHost sh reached ∧ reached.history.entries = [entry] ∧
      reached.history.save Files.empty "h" = (after, .ok ()) := by
  obtain ⟨⟨reached, result⟩, executed, entries⟩ := Option.map_eq_some_iff.mp ran
  have performed : Demand.perform idleHost 1 sh (.line line) = some reached :=
    congrArg (Option.map Prod.fst) executed
  exact ⟨reached, _, .demand _ .start performed, entries, rfl⟩

/-- A line feed at the end of a line does not enter the history. -/
theorem history_restored_trimmed : ∃ sh after loaded, Reached idleHost plainShell sh ∧
    sh.history.save Files.empty "h" = (after, .ok ()) ∧
    (History.ofCapacity History.standardCapacity).load after "h" = (loaded, .ok ()) ∧
    sh.history.entries = ["echo a"] ∧ loaded.entries = ["echo a"] := by
  have ran : (plainShell.executeLine idleHost 1 " echo a\r\n").map (·.1.history.entries) =
      some ["echo a"] := by decide +kernel
  obtain ⟨sh, after, reached, entries, saved⟩ := exists_reached_of_entries ran
  have leave : LeaveHistory idleHost := fun _ _ => trivial
  obtain ⟨loaded, read, -, same⟩ := history_restored_iff leave rfl reached saved
  have plain : ∀ entry ∈ sh.history.entries, '\n' ∉ entry.toList := by
    rw [entries]
    decide
  exact ⟨sh, after, loaded, reached, saved, read, entries, (same.mpr plain).trans entries⟩

/-- A shell with the built-in commands that keeps one line. -/
def forgetfulShell : Shell Unit :=
  ({ builtins := true, historyCapacity := 1 } : ShellSetup Unit).shell

/-- Of a line of two lines the second comes back. -/
theorem history_loses_front : ∃ sh after loaded, Reached idleHost forgetfulShell sh ∧
    forgetfulShell.history = History.ofCapacity 1 ∧
    sh.history.save Files.empty "h" = (after, .ok ()) ∧
    (History.ofCapacity 1).load after "h" = (loaded, .ok ()) ∧
    sh.history.entries = ["echo a\nb"] ∧ loaded.entries = ["b"] := by
  have ran : (forgetfulShell.executeLine idleHost 1 "echo a\nb").map (·.1.history.entries) =
      some ["echo a\nb"] := by decide +kernel
  obtain ⟨sh, after, reached, entries, saved⟩ := exists_reached_of_entries ran
  have lines : (((History.ofCapacity 1).addAll sh.history.fileLines).entries) = ["b"] := by
    rw [History.fileLines, entries]
    decide +kernel
  exact ⟨sh, after, _, reached, rfl, saved, History.load_of_save _ saved, entries, lines⟩

end Shell

end LineConsole
