import LineConsole.Proofs.Shell.LineFaults
import LineConsole.Proofs.Shell.Unseen
import LineConsole.Proofs.Text.Trimming

/-! # A script is its lines

Executing a script is executing, one by one, the lines between the line feeds of its text that are
neither blank nor comments, up to the first that fails. How a line ends does not matter, since the
blanks at its ends do not count.
-/

namespace LineConsole

namespace Text

theorem trim_dropReturn (line : List Char) : trim (dropReturn '\r' line) = trim line := by
  unfold dropReturn
  split
  · rename_i ends
    obtain ⟨front, rfl⟩ := List.getLast?_eq_some_iff.mp ends
    rw [List.dropLast_concat, trim_concat_blank (by decide)]
  · rfl

end Text

/-- The lines between the line feeds of a text, without the blanks at their ends and with their
numbers, which count from one. -/
def numberedLines (source : String) : List (Nat × String) :=
  ((source.toList.splitOn '\n').zipIdx 1).map fun (line, number) =>
    (number, Text.trimmed (String.ofList line))

/-- A line that says something: it is not empty and not a comment. -/
def IsStatement (line : String) : Prop := line ≠ "" ∧ line.toList.head? ≠ some '#'

instance (line : String) : Decidable (IsStatement line) := inferInstanceAs (Decidable (_ ∧ _))

/-- The statements among lines, numbered from `first` on. -/
private def statementsFrom (first : Nat) (lines : List (List Char)) : List (Nat × String) :=
  (lines.zipIdx first).filterMap fun (line, number) =>
    let statement := Text.trim line
    if statement = [] ∨ statement.head? = some '#' then none
    else some (number, String.ofList statement)

private theorem statementsFrom_cons (first : Nat) (line : List Char) (lines : List (List Char)) :
    statementsFrom first (line :: lines) =
      statementsFrom first [line] ++ statementsFrom (first + 1) lines := by
  simp only [statementsFrom, List.zipIdx_cons, List.zipIdx_nil]
  exact List.filterMap_append (l := [(line, first)])

private theorem statementsFrom_singleton {first : Nat} {line line' : List Char}
    (same : Text.trim line = Text.trim line') :
    statementsFrom first [line] = statementsFrom first [line'] := by
  simp only [statementsFrom, List.zipIdx_cons, List.zipIdx_nil, List.filterMap_cons, same]

private theorem splitOn_cons (c : Char) (cs : List Char) :
    (c :: cs).splitOn '\n' =
      if c = '\n' then [] :: cs.splitOn '\n' else (cs.splitOn '\n').modifyHead (c :: ·) := by
  rw [List.splitOn, List.splitOnP_cons_eq_if_modifyHead, List.splitOn]
  simp

private theorem modifyHead_nil_append (lines : List (List Char)) :
    lines.modifyHead (([] : List Char).reverse ++ ·) = lines := by
  cases lines <;> rfl

/-- By induction on the text: what is taken off the ends of lines, and an empty line at the end,
make no statement. -/
private theorem statementsFrom_linesFrom (first : Nat) (line cs : List Char) :
    statementsFrom first (Text.linesFrom '\n' '\r' line cs) =
      statementsFrom first ((cs.splitOn '\n').modifyHead (line.reverse ++ ·)) := by
  induction cs generalizing first line with
  | nil =>
    rw [Text.linesFrom, List.splitOn_nil, List.modifyHead_cons, List.append_nil]
    split
    · rename_i none
      rw [List.isEmpty_iff.mp none]
      rfl
    · rfl
  | cons c cs ih =>
    rw [Text.linesFrom, splitOn_cons]
    split
    · rw [List.modifyHead_cons, List.append_nil, statementsFrom_cons, ih,
        modifyHead_nil_append, statementsFrom_cons first line.reverse,
        statementsFrom_singleton (Text.trim_dropReturn _)]
    · rw [ih, List.modifyHead_modifyHead]
      simp [Function.comp_def]

/-- The statements of a script are the lines of its text that say something. -/
theorem statements_eq_filter (source : String) :
    statements source = (numberedLines source).filter fun line => IsStatement line.2 := by
  have lines : statements source = statementsFrom 1 (source.toList.splitOn '\n') := by
    rw [← modifyHead_nil_append (source.toList.splitOn '\n')]
    exact statementsFrom_linesFrom 1 [] source.toList
  rw [lines, numberedLines, statementsFrom, ← List.filterMap_eq_filter, List.filterMap_map]
  refine congrArg (fun keep => List.filterMap keep ((source.toList.splitOn '\n').zipIdx 1)) ?_
  funext numbered
  simp only [Function.comp_apply, Option.guard, IsStatement, Text.trimmed, String.toList_ofList]
  by_cases empty : Text.trim numbered.1 = []
  · simp [empty]
  · by_cases comment : (Text.trim numbered.1).head? = some '#'
    · simp [comment]
    · simp [empty, comment]

/-- A text can only be read from a file. -/
theorem Files.isFile_of_readText {files : Files} {path source : String}
    (readable : files.readText path = .ok source) : files.isFile path = true := by
  unfold isFile
  unfold readText read at readable
  cases found : files.lookup path with
  | error fault =>
    rw [found] at readable
    cases readable
  | ok node =>
    cases node with
    | file bytes => rfl
    | directory =>
      rw [found] at readable
      cases readable

namespace Shell

variable {H : Type} {sh sh' : Shell H}

/-- Executes lines one after the other up to the first that fails; then its number is given, and what
it failed of. -/
def inOrder (execute : Shell H → String → Execution H) :
    List (Nat × String) → Shell H → Option (Shell H × Option (Nat × Fault))
  | [], sh => some (sh, none)
  | (number, line) :: rest, sh =>
    match execute sh line with
    | none => none
    | some (sh, .ok _) => inOrder execute rest sh
    | some (sh, .error fault) => some (sh, some (number, fault))

/-- What a script makes of where its lines stopped. -/
private def resultOf (path : String) : Option (Nat × Fault) → Except Fault Unit
  | none => .ok ()
  | some (number, fault) => .error (scriptFault path number fault)

section Execute

variable {execute : Shell H → String → Execution H} {path : String} {lines : List (Nat × String)}

/-- Where lines stopped, the last of them failed and the ones before it did not. -/
theorem exists_of_inOrder_eq_some {after : Shell H} {number : Nat} {fault : Fault}
    (stopped : inOrder execute lines sh = some (after, some (number, fault))) :
    ∃ before line rest middle, lines = before ++ (number, line) :: rest ∧
      inOrder execute before sh = some (middle, none) ∧
      execute middle line = some (after, .error fault) := by
  induction lines generalizing sh with
  | nil => cases stopped
  | cons first lines ih =>
    obtain ⟨number', line⟩ := first
    rw [inOrder] at stopped
    split at stopped
    · cases stopped
    · rename_i next _ ran
      obtain ⟨before, line', rest, middle, rfl, ran', failed⟩ := ih stopped
      refine ⟨(number', line) :: before, line', rest, middle, rfl, ?_, failed⟩
      rw [inOrder, ran]
      exact ran'
    · rename_i failed
      cases stopped
      exact ⟨[], line, lines, sh, rfl, rfl, failed⟩

/-- By induction on the statements: executing them in a script and one by one differs in what is
noted. -/
private theorem runStatements_agree_inOrder (path : String) (lines : List (Nat × String))
    (heedless : Heedless execute) (alike : Alike sh sh') :
    Agree (runStatements execute path lines sh)
      ((inOrder execute lines sh').map fun (sh, stop) => (sh, resultOf path stop)) := by
  induction lines generalizing sh sh' with
  | nil => exact agree_some alike
  | cons first rest ih =>
    obtain ⟨number, line⟩ := first
    rw [runStatements, inOrder]
    have noted : Alike (sh.note (.scriptStatement number line)) sh' := alike
    rcases (heedless noted line).cases with
      ⟨none, none'⟩ | ⟨after, after', result, ran, ran', alike'⟩
    · rw [none, none']
      rfl
    · rw [ran, ran']
      cases result with
      | ok done => exact ih alike'
      | error fault => exact agree_some alike'

/-- The statements of a script are executed in order; all else that a script does is to note it. -/
private theorem executeScriptWith_agree_inOrder (heedless : Heedless execute) {source : String}
    (readable : sh.files.readText (Path.withDefaultExtension sh.scriptExtension path) = .ok source) :
    Agree (executeScriptWith execute sh path)
      ((inOrder execute ((numberedLines source).filter fun line => IsStatement line.2) sh).map
        fun (after, stop) =>
          (after, resultOf (Path.withDefaultExtension sh.scriptExtension path) stop)) := by
  rw [← statements_eq_filter]
  unfold executeScriptWith
  dsimp only
  rw [Files.isFile_of_readText readable, readable]
  simp only [Bool.not_true, Bool.false_eq_true, if_false]
  generalize Path.withDefaultExtension sh.scriptExtension path = file
  have started : Alike (sh.note (.scriptStarted file)) sh := alike_note sh _
  rcases (runStatements_agree_inOrder file (statements source) heedless started).cases with
    ⟨none, none'⟩ | ⟨after, after', result, ran, ran', alike'⟩
  · rw [none, none']
    rfl
  · rw [ran, ran']
    cases result with
    | ok done => exact agree_some alike'
    | error fault => exact agree_some alike'

end Execute

/-- A script's statements are executed as lines that nest as deep as the script does. -/
theorem executeScript_succ (host : Host H) (depth : Nat) (sh : Shell H) (path : String) :
    sh.executeScript host (depth + 1) path =
      executeScriptWith (executeLine host (depth + 1)) sh path := by
  rw [executeScript, runner]
  have line : executeLine host (depth + 1) = executeLineWith host (runner host depth) := by
    funext sh line
    rw [executeLine, runner]
  rw [line]

/-- A script that can be read does what its lines do when they are executed in order up to the first
that fails, whatever the handlers are. A fault that the user caused is told with the script, the
number of the line and the message, whose first letter is made a small one; any other comes back as
it is. -/
theorem executeScript_refines_lines (host : Host H) (depth : Nat) (sh : Shell H) (path : String)
    {source : String}
    (readable : sh.files.readText (Path.withDefaultExtension sh.scriptExtension path) = .ok source) :
    let lines := (numberedLines source).filter fun line => IsStatement line.2
    let executed := inOrder (executeLine host (depth + 1)) lines sh
    (executed = none → sh.executeScript host (depth + 1) path = none) ∧
    (∀ after, executed = some (after, none) →
      ∃ script, sh.executeScript host (depth + 1) path = some (script, .ok ()) ∧
        script.quiet = after.quiet) ∧
    ∀ after number fault, executed = some (after, some (number, fault)) →
      (∃ before line rest middle, lines = before ++ (number, line) :: rest ∧
        inOrder (executeLine host (depth + 1)) before sh = some (middle, none) ∧
        middle.executeLine host (depth + 1) line = some (after, .error fault)) ∧
      ∃ script told, sh.executeScript host (depth + 1) path = some (script, .error told) ∧
        script.quiet = after.quiet ∧
        (fault.isUserFault = false → told = fault) ∧
        (fault.isUserFault = true →
          ∃ c cs, fault.message.toList = c :: cs ∧ c.toNat < 128 ∧
            told = .script (Path.withDefaultExtension sh.scriptExtension path) number
              (String.ofList (c.toLower :: cs))) := by
  intro lines executed
  have heedless : Heedless (executeLine host (depth + 1)) := (runner_heedless host _).line
  have agree : Agree (sh.executeScript host (depth + 1) path) (executed.map fun (after, stop) =>
      (after, resultOf (Path.withDefaultExtension sh.scriptExtension path) stop)) := by
    rw [executeScript_succ]
    exact executeScriptWith_agree_inOrder heedless readable
  refine ⟨fun none => ?_, fun after ran => ?_, fun after number fault stopped => ?_⟩
  · rw [none] at agree
    rcases agree.cases with ⟨none', -⟩ | ⟨_, _, _, -, absent, -⟩
    · exact none'
    · cases absent
  · rw [ran] at agree
    obtain ⟨script, ran', alike⟩ := agree.eq_some
    exact ⟨script, ran', alike⟩
  · rw [stopped] at agree
    obtain ⟨script, ran', alike⟩ := agree.eq_some
    obtain ⟨before, line, rest, middle, lines_eq, ran, failed⟩ := exists_of_inOrder_eq_some stopped
    refine ⟨⟨before, line, rest, middle, lines_eq, ran, failed⟩, script, _, ran', alike, ?_, ?_⟩
    · intro innocent
      rw [scriptFault, innocent, if_neg Bool.false_ne_true]
    · intro guilty
      have ofLine : fault.OfLine := by
        rcases ofLine_of_executeLine_eq_error failed with ofLine | ⟨code, rfl⟩
        · exact ofLine
        · cases guilty
      obtain ⟨c, cs, begins, ascii⟩ := ofLine.message_beginsInAscii
      refine ⟨c, cs, begins, ascii, ?_⟩
      rw [scriptFault, if_pos guilty, lowerFirst, begins]

/-- The bytes of an ASCII text. -/
def asciiBytes (text : String) : List UInt8 := text.toList.map fun c => c.toNat.toUInt8

/-- A script with a comment, a blank line and a fault in its fifth line; it runs another one. -/
def outerScript : String := "# both\r\n\r\n run inner\r\necho hi \r\n$nobody\r\necho late\n"

def innerScript : String := "echo inner\nnosuch"

/-- A shell with the two scripts in its working directory. -/
def scripted : Shell Unit :=
  ({ builtins := true
     files := (Files.empty.put ["work", "outer.lsf"] (.file (asciiBytes outerScript))).put
       ["work", "inner.lsf"] (.file (asciiBytes innerScript)) } : ShellSetup Unit).shell

theorem executeScript_outer :
    scripted.files.readText (Path.withDefaultExtension scripted.scriptExtension "outer") =
      .ok outerScript ∧
    ∃ script, scripted.executeScript unasked 2 "outer" = some (script,
        .error (.script "outer.lsf" 5 "no variable found with name 'nobody'")) ∧
      script.output.text = "inner\ninner.lsf:2: command not found: nosuch\nhi\n" ∧
      script.history.entries =
        ["run inner", "echo inner", "nosuch", "echo hi", "$nobody"] := by
  have readable :
      scripted.files.readText (Path.withDefaultExtension scripted.scriptExtension "outer") =
        .ok outerScript := by rfl
  have ended : (inOrder (executeLine unasked 2)
      ((numberedLines outerScript).filter fun line => IsStatement line.2) scripted).map
        (fun (sh, stop) => (sh.output.text, sh.history.entries, stop)) =
      some ("inner\ninner.lsf:2: command not found: nosuch\nhi\n",
        ["run inner", "echo inner", "nosuch", "echo hi", "$nobody"],
        some (5, .variableNotFound "nobody")) := by decide +kernel
  obtain ⟨⟨after, stop⟩, executed, same⟩ := Option.map_eq_some_iff.mp ended
  obtain ⟨output, history, rfl⟩ : _ ∧ _ ∧ stop = _ := by simpa using same
  obtain ⟨-, script, told, ran, alike, -, user⟩ :=
    (executeScript_refines_lines unasked 1 scripted "outer" readable).2.2 after _ _ executed
  obtain ⟨c, cs, begins, -, rfl⟩ := user rfl
  have lowered : lowerFirst (Fault.variableNotFound "nobody").message =
      String.ofList (c.toLower :: cs) := by
    rw [lowerFirst, begins]
  rw [← lowered] at ran
  exact ⟨readable, script, ran, (congrArg (·.output.text) alike).trans output,
    (congrArg (·.history.entries) alike).trans history⟩

end Shell

end LineConsole
