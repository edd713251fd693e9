import LineConsole.Proofs.Files.Writing
import LineConsole.Proofs.Shell.Entering
import LineConsole.Proofs.Shell.Leaving

/-! # The history file across a run

A run reads the history file, executes its scripts and its line, and writes the file again. Where the
files let it, the file then holds the newest of the lines that could be read and of those that were
executed. Lines behind the first one that cannot be decoded are not read, and writing takes them away.
-/

namespace LineConsole

namespace History

/-- A file that is missing counts as one without lines. -/
theorem load_fst {files : Files} {path : String} {old : List UInt8} (h : History)
    (held : files.read path = .ok old ∨ files.read path = .error .notFound ∧ old = []) :
    (h.load files path).1 = h.addAll (readableLines old) := by
  rw [load]
  rcases held with held | ⟨missing, rfl⟩
  · rw [held]
    exact addBytes_fst h old
  · rw [missing]
    rfl

theorem read_save {files ready : Files} {path : String} (h : History)
    (made : files.makeParent path = .ok ready)
    (writable : ∀ bytes, ∃ after, ready.write path bytes = .ok after) :
    (h.save files path).1.read path = .ok h.fileBytes := by
  obtain ⟨after, wrote⟩ := writable h.fileBytes
  simp only [save, made, wrote]
  exact Files.read_of_write wrote

end History

namespace Invocation

open Shell

/-- A run begins with the newest lines that the history file lets it read. -/
theorem history_firstShell {invocation : Invocation} {files : Files} {env : Environment}
    {path : String} {old : List UInt8}
    (enabled : historyPath? (invocation.configure files env).1 env = some path)
    (held : files.read path = .ok old ∨ files.read path = .error .notFound ∧ old = []) :
    (invocation.firstShell files env).history =
      (History.ofCapacity (invocation.configure files env).1.history.maxEntries).addAll
        (History.readableLines old) := by
  rw [firstShell, enabled]
  exact History.load_fst _ held

theorem files_firstShell (invocation : Invocation) (files : Files) (env : Environment) :
    (invocation.firstShell files env).files = files := by
  unfold firstShell loadHistory
  dsimp only
  split <;> rfl

/-- After a run the history file holds the newest of the lines that could be read from it and of
those that were executed, blank ones left out. All lines could be read if all can be decoded. -/
theorem history_file_after_run {invocation : Invocation} {files ready : Files} {env : Environment}
    {path : String} {old : List UInt8} {depth : Nat} {result : RunResult}
    (batch : invocation.isInteractive = false)
    (enabled : historyPath? (invocation.configure files env).1 env = some path)
    (held : files.read path = .ok old ∨ files.read path = .error .notFound ∧ old = [])
    (made : files.makeParent path = .ok ready)
    (writable : ∀ bytes, ∃ after, ready.write path bytes = .ok after)
    (ran : invocation.run depth files env = some result) :
    result.files.read path = .ok (History.encodeLines
      (((History.readableLines old ++
        ((invocation.firstShell files env).executedLines noHost depth invocation).map
          Text.trimmed).filter (!Text.isBlankText ·)).rtake
            (max (invocation.configure files env).1.history.maxEntries 1))) ∧
    ((∀ line ∈ Text.byteLines old, (Text.decodeUtf8 line).isSome = true) →
      History.readableLines old = (Text.byteLines old).filterMap Text.decodeUtf8) := by
  refine ⟨?_, History.readableLines_of_decodable⟩
  unfold run at ran
  simp only [batch, enabled, Bool.false_eq_true, if_false] at ran
  obtain ⟨⟨after, ended⟩, executed, rfl⟩ := Option.map_eq_some_iff.mp ran
  have first : loadHistory (some path) (invocation.shell (invocation.configure files env).1 files) =
      invocation.firstShell files env := by
    rw [firstShell, enabled]
  rw [first] at executed
  obtain ⟨settings, history⟩ :=
    history_executeBatch (invocation.onlyBuiltins_firstShell files env) executed
  have same : after.files = files :=
    (congrArg Settings.files settings).trans (invocation.files_firstShell files env)
  have saved : (saveHistory (some path) after).read path = .ok after.history.fileBytes := by
    rw [saveHistory, same]
    exact History.read_save _ made writable
  rw [history_firstShell enabled held, ← History.addAll_append] at history
  rw [saved, History.fileBytes, history, History.entries_addAll_ofCapacity]
  rfl

/-! ## Two runs -/

def keeper : Environment := Environment.empty.set "HOME" "home"

/-- A history that keeps five lines, and a script that runs another. -/
def greetings : Files :=
  ((((Files.empty.put ["work", "home"] .directory).put ["work", "home", ".lsc_history"]
    (.file (Text.encodeUtf8 "first\n\nsecond\n"))).put ["work", "greet.lsf"]
    (.file (Text.encodeUtf8 "echo one\n# aside\nrun inner\n"))).put ["work", "inner.lsf"]
    (.file (Text.encodeUtf8 " echo two "))).put ["work", "lsc.yaml"]
    (.file (Text.encodeUtf8 "history:\n max_entries: 5\n"))

def greeter : Invocation := { scripts := ["greet"], command := some " echo hi " }

theorem history_file_after_greeting : ∃ result, greeter.run 3 greetings keeper = some result ∧
    result.files.read "home/.lsc_history" = .ok (History.encodeLines
      ["second", "echo one", "run inner", "echo two", "echo hi"]) := by
  have runs : (greeter.run 3 greetings keeper).isSome = true := by decide +kernel
  obtain ⟨result, ran⟩ := Option.isSome_iff_exists.mp runs
  have enabled : historyPath? (greeter.configure greetings keeper).1 keeper =
      some "home/.lsc_history" := by decide +kernel
  have writable (bytes : List UInt8) : ∃ after,
      greetings.write "home/.lsc_history" bytes = .ok after := ⟨_, rfl⟩
  have lines : ((History.readableLines (Text.encodeUtf8 "first\n\nsecond\n") ++
      ((greeter.firstShell greetings keeper).executedLines noHost 3 greeter).map
        Text.trimmed).filter (!Text.isBlankText ·)).rtake
          (max (greeter.configure greetings keeper).1.history.maxEntries 1) =
      ["second", "echo one", "run inner", "echo two", "echo hi"] := by decide +kernel
  obtain ⟨file, -⟩ := history_file_after_run rfl enabled (.inl rfl) rfl writable ran
  exact ⟨result, ran, lines ▸ file⟩

/-- Of the three lines of this history the second is not UTF-8. -/
def torn : Files :=
  (Files.empty.put ["work", "home"] .directory).put ["work", "home", ".lsc_history"]
    (.file [0x61, 10, 0xff, 10, 0x62, 10])

def echoing : Invocation := { command := some "echo hi" }

/-- The third line is gone after a run, though the history has room for it. -/
theorem history_file_loses_line : ∃ old new result,
    torn.read "home/.lsc_history" = .ok old ∧ Text.encodeUtf8 "b" ∈ Text.byteLines old ∧
    echoing.run 3 torn keeper = some result ∧
    result.files.read "home/.lsc_history" = .ok new ∧
    Text.byteLines new = [Text.encodeUtf8 "a", Text.encodeUtf8 "echo hi"] ∧
    Text.encodeUtf8 "b" ∉ Text.byteLines new ∧
    (echoing.configure torn keeper).1.history.maxEntries = 1000 := by
  have ran : echoing.run 3 torn keeper = some
      { status := 0
        output := "hi\n"
        messages := []
        files := torn.put ["work", "home", ".lsc_history"]
          (.file (Text.encodeUtf8 "a\necho hi\n"))
        missing := [] } := by decide +kernel
  exact ⟨_, _, _, rfl, by decide +kernel, ran, rfl, by decide +kernel, by decide +kernel,
    by decide +kernel⟩

end Invocation

end LineConsole
