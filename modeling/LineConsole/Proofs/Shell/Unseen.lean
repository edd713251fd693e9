import LineConsole.Shell.Execution

/-! # What was noted does not matter

Nothing that a shell does depends on what was noted before: two shells that differ in that only do
the same, whatever the handlers are, and go on to differ in nothing else.
-/

namespace LineConsole.Shell

variable {H α : Type} {sh sh' : Shell H}

/-- The shells differ in what was noted at most. -/
def Alike (sh sh' : Shell H) : Prop := sh.quiet = sh'.quiet

/-- Executions that come to the same but for what was noted. -/
def Agree (first second : Option (Shell H × α)) : Prop :=
  first.map (fun r => (r.1.quiet, r.2)) = second.map fun r => (r.1.quiet, r.2)

theorem Alike.eq (alike : Alike sh sh') : sh' = { sh with log := sh'.log } := by
  cases sh
  cases sh'
  simp only [Alike, quiet, mk.injEq] at alike ⊢
  simp [alike]

theorem alike_note (sh : Shell H) (record : LogRecord) : Alike (sh.note record) sh := rfl

theorem Alike.note (alike : Alike sh sh') (record : LogRecord) :
    Alike (sh.note record) (sh'.note record) := alike

theorem Alike.writeLine (alike : Alike sh sh') (text : String) (style : Style) :
    Alike (sh.writeLine text style) (sh'.writeLine text style) := by
  rw [alike.eq]
  rfl

theorem executeVariableLine_alike (alike : Alike sh sh') (word rest : List Char) :
    Alike (sh.executeVariableLine word rest).1 (sh'.executeVariableLine word rest).1 ∧
      (sh.executeVariableLine word rest).2 = (sh'.executeVariableLine word rest).2 := by
  rw [alike.eq]
  unfold executeVariableLine
  dsimp only
  split
  · exact ⟨rfl, rfl⟩
  · split
    · exact ⟨rfl, rfl⟩
    · split
      · exact ⟨rfl, rfl⟩
      · exact ⟨rfl, rfl⟩
    · exact ⟨rfl, rfl⟩
    · unfold assignVariable
      dsimp only
      split
      · exact ⟨rfl, rfl⟩
      · exact ⟨rfl, rfl⟩

/-- Showing how commands are used writes the same to both. -/
private theorem foldl_usage_alike (alike : Alike sh sh') (commands : List (Command (Handler H))) :
    Alike (commands.foldl (fun sh c => sh.writeLine c.usage .usage) sh)
      (commands.foldl (fun sh c => sh.writeLine c.usage .usage) sh') := by
  induction commands generalizing sh sh' with
  | nil => exact alike
  | cons c commands ih => exact ih (alike.writeLine c.usage .usage)

theorem resolve_alike (alike : Alike sh sh') (name text : String) :
    Alike (sh.resolve name text).1 (sh'.resolve name text).1 ∧
      (sh.resolve name text).2 = (sh'.resolve name text).2 := by
  rw [alike.eq]
  unfold resolve
  split
  · exact ⟨rfl, rfl⟩
  · dsimp only
    split
    · exact ⟨rfl, rfl⟩
    · split
      · exact ⟨rfl, rfl⟩
      · refine ⟨foldl_usage_alike ?_ _, rfl⟩
        exact rfl

theorem prepare_alike (alike : Alike sh sh') (line : String) :
    Alike (sh.prepare line).1 (sh'.prepare line).1 ∧
      (sh.prepare line).2 = (sh'.prepare line).2 := by
  have entered (text : String) : Alike (sh.addHistory text) (sh'.addHistory text) := by
    rw [alike.eq]
    rfl
  have same (rest : List Char) (text : String) :
      (sh'.addHistory text).argumentText rest = (sh.addHistory text).argumentText rest := by
    rw [alike.eq]
    rfl
  unfold prepare
  dsimp only
  split
  · exact ⟨alike, rfl⟩
  · split
    · obtain ⟨after, result⟩ := executeVariableLine_alike (entered _) _ _
      exact ⟨after, congrArg Verdict.settled result⟩
    · rw [same]
      exact resolve_alike (entered _) _ _

theorem settle_alike (alike : Alike sh sh') (command : String) (outcome : Outcome) :
    Alike (sh.settle command outcome).1 (sh'.settle command outcome).1 ∧
      (sh.settle command outcome).2 = (sh'.settle command outcome).2 := by
  rw [alike.eq]
  cases outcome <;> exact ⟨rfl, rfl⟩

/-! ## Executions -/

theorem agree_some {a : α} (alike : Alike sh sh') : Agree (some (sh, a)) (some (sh', a)) :=
  congrArg (fun quiet => some (quiet, a)) alike

/-- Executions that agree come to nothing both, or to the same in shells that are alike. -/
theorem Agree.cases {first second : Option (Shell H × α)} (agree : Agree first second) :
    first = none ∧ second = none ∨
      ∃ sh sh' a, first = some (sh, a) ∧ second = some (sh', a) ∧ Alike sh sh' := by
  cases first with
  | none =>
    cases second with
    | none => exact .inl ⟨rfl, rfl⟩
    | some r' => cases agree
  | some r =>
    cases second with
    | none => cases agree
    | some r' =>
      obtain ⟨sh, a⟩ := r
      obtain ⟨sh', a'⟩ := r'
      obtain ⟨alike, rfl⟩ := Prod.mk.inj (Option.some.inj agree)
      exact .inr ⟨sh, sh', a, rfl, rfl, alike⟩

/-- Whoever agrees with an execution that comes to something comes to the same. -/
theorem Agree.eq_some {first : Option (Shell H × α)} {a : α}
    (agree : Agree first (some (sh', a))) : ∃ sh, first = some (sh, a) ∧ Alike sh sh' := by
  rcases agree.cases with ⟨-, absent⟩ | ⟨sh, _, _, ran, same, alike⟩
  · cases absent
  · cases same
    exact ⟨sh, ran, alike⟩

/-- What is executed comes to the same whatever was noted before. -/
def Heedless (execute : Shell H → String → Execution H) : Prop :=
  ∀ ⦃sh sh' : Shell H⦄, Alike sh sh' → ∀ text, Agree (execute sh text) (execute sh' text)

/-- Neither lines nor scripts depend on what was noted. -/
structure HeedlessRunner (runner : Runner H) : Prop where
  line : Heedless runner.line
  script : Heedless runner.script

theorem HeedlessRunner.of_both {line script : Shell H → String → Execution H}
    (ofLine : Heedless line) (ofScript : Heedless script) : HeedlessRunner ⟨line, script⟩ :=
  ⟨ofLine, ofScript⟩

/-- By induction on the program: a handler sees nothing of what was noted. -/
theorem run_agree {runner : Runner H} (heedless : HeedlessRunner runner) (program : Program H)
    (alike : Alike sh sh') : Agree (program.run runner sh) (program.run runner sh') := by
  induction program generalizing sh sh' with
  | finish outcome => exact agree_some alike
  | inspect next ih =>
    simp only [Program.run]
    rw [← alike]
    exact ih sh.quiet alike
  | update change next ih =>
    simp only [Program.run]
    apply ih
    rw [changedBy, changedBy, ← alike]
    rfl
  | line text next ih =>
    simp only [Program.run]
    rcases (heedless.line alike text).cases with ⟨none, none'⟩ | ⟨after, after', result, ran, ran', alike'⟩
    · rw [none, none']
      rfl
    · rw [ran, ran']
      exact ih result alike'
  | script path next ih =>
    simp only [Program.run]
    rcases (heedless.script alike path).cases with
      ⟨none, none'⟩ | ⟨after, after', result, ran, ran', alike'⟩
    · rw [none, none']
      rfl
    · rw [ran, ran']
      exact ih result alike'

theorem invoke_agree {host : Host H} {runner : Runner H} (heedless : HeedlessRunner runner)
    (command : Command (Handler H)) (arguments : Arguments) (alike : Alike sh sh') :
    Agree (sh.invoke host runner command arguments) (sh'.invoke host runner command arguments) := by
  have noted := alike.note (.invoking command.name arguments.values.length)
  unfold invoke
  dsimp only
  rcases (run_agree heedless (command.handler.program host arguments) noted).cases with
    ⟨none, none'⟩ | ⟨after, after', outcome, ran, ran', alike'⟩
  · rw [none, none']
    rfl
  · rw [ran, ran']
    obtain ⟨settled, result⟩ := settle_alike alike' command.name outcome
    simp only [Agree, Option.map_some, result]
    exact congrArg (fun quiet => some (quiet, _)) settled

theorem executeLineWith_heedless {host : Host H} {runner : Runner H} (heedless : HeedlessRunner runner) :
    Heedless (executeLineWith host runner) := by
  intro sh sh' alike line
  obtain ⟨after, same⟩ := prepare_alike alike line
  unfold executeLineWith
  rcases prepared : sh.prepare line with ⟨next, verdict⟩
  rcases prepared' : sh'.prepare line with ⟨next', verdict'⟩
  rw [prepared, prepared'] at after same
  obtain rfl : verdict = verdict' := same
  cases verdict with
  | settled result => exact agree_some after
  | call command arguments => exact invoke_agree heedless command arguments after

section Statements

variable {execute : Shell H → String → Execution H}

theorem runStatements_agree (heedless : Heedless execute) (path : String)
    (lines : List (Nat × String)) (alike : Alike sh sh') :
    Agree (runStatements execute path lines sh) (runStatements execute path lines sh') := by
  induction lines generalizing sh sh' with
  | nil => exact agree_some alike
  | cons statement rest ih =>
    simp only [runStatements]
    rcases (heedless (alike.note (.scriptStatement statement.1 statement.2)) statement.2).cases with
      ⟨none, none'⟩ | ⟨after, after', result, ran, ran', alike'⟩
    · rw [none, none']
      rfl
    · rw [ran, ran']
      cases result with
      | ok done => exact ih alike'
      | error fault => exact agree_some alike'

theorem executeScriptWith_heedless (heedless : Heedless execute) :
    Heedless (executeScriptWith execute) := by
  intro sh sh' alike path
  have same : sh'.files = sh.files ∧ sh'.scriptExtension = sh.scriptExtension := by
    rw [alike.eq]
    exact ⟨rfl, rfl⟩
  unfold executeScriptWith
  rw [same.1, same.2]
  dsimp only
  split
  · exact agree_some alike
  · split
    · exact agree_some alike
    · rename_i source readable
      rcases (runStatements_agree heedless (Path.withDefaultExtension sh.scriptExtension path)
        (statements source) (alike.note (.scriptStarted
          (Path.withDefaultExtension sh.scriptExtension path)))).cases with
        ⟨none, none'⟩ | ⟨after, after', result, ran, ran', alike'⟩
      · rw [none, none']
        rfl
      · rw [ran, ran']
        cases result with
        | ok done => exact agree_some alike'
        | error fault => exact agree_some alike'

end Statements

/-- By induction on the depth: what was noted is not seen, however deep handlers nest. -/
theorem runner_heedless (host : Host H) (depth : Nat) : HeedlessRunner (runner host depth) := by
  induction depth with
  | zero => exact ⟨fun _ _ _ _ => rfl, fun _ _ _ _ => rfl⟩
  | succ depth ih =>
    have line : Heedless (executeLineWith host (runner host depth)) := executeLineWith_heedless ih
    rw [runner]
    exact .of_both line (executeScriptWith_heedless line)

end LineConsole.Shell
