import LineConsole.Proofs.Console.Coherence

/-! # The lines that a run hands to the shell

Beside the functions that run lines stand lists of the lines that they hand to the shell, oldest
first. A line that stops the worker is the last in its list, and anything else that stops the worker
ends the list too.
-/

namespace LineConsole

namespace Shell

variable {H : Type}

/-- The shell after lines that were typed, unless one of them stops it. -/
def afterLines (host : Host H) (depth : Nat) : Shell H → List String → Option (Shell H)
  | sh, [] => some sh
  | sh, line :: rest =>
    match sh.runLine host depth line with
    | some (sh, none) => sh.afterLines host depth rest
    | _ => none

/-- The lines up to the first that stops the shell, which is the last to be run. -/
def untilStop (host : Host H) (depth : Nat) : Shell H → List String → List String
  | _, [] => []
  | sh, line :: rest =>
    line ::
      match sh.runLine host depth line with
      | some (sh, none) => sh.untilStop host depth rest
      | _ => []

variable {host : Host H} {depth : Nat}

theorem afterLines_append {sh sh' : Shell H} {given : List String} (rest : List String)
    (ran : sh.afterLines host depth given = some sh') :
    sh.afterLines host depth (given ++ rest) = sh'.afterLines host depth rest := by
  induction given generalizing sh with
  | nil =>
    cases ran
    rfl
  | cons line given ih =>
    rw [List.cons_append, afterLines]
    rw [afterLines] at ran
    split at ran
    · exact ih ran
    · cases ran

theorem untilStop_append {sh sh' : Shell H} {given : List String} (rest : List String)
    (ran : sh.afterLines host depth given = some sh') :
    sh.untilStop host depth (given ++ rest) = given ++ sh'.untilStop host depth rest := by
  induction given generalizing sh with
  | nil =>
    cases ran
    rfl
  | cons line given ih =>
    rw [List.cons_append, untilStop, List.cons_append]
    rw [afterLines] at ran
    split at ran
    · exact congrArg (line :: ·) (ih ran)
    · cases ran

/-- Nothing is run behind a line that stops the shell. -/
theorem untilStop_of_stops {sh : Shell H} {line : String} (rest : List String)
    (stops : ∀ sh', sh.runLine host depth line ≠ some (sh', none)) :
    sh.untilStop host depth (line :: rest) = [line] := by
  rw [untilStop]
  split
  · exact absurd ‹_› (stops _)
  · rfl

/-- The lines that are run are the first ones. -/
theorem untilStop_begins (sh : Shell H) (lines : List String) :
    sh.untilStop host depth lines <+: lines := by
  induction lines generalizing sh with
  | nil => exact List.nil_prefix
  | cons line lines ih =>
    rw [untilStop, List.prefix_cons_inj]
    split
    · exact ih _
    · exact List.nil_prefix

end Shell

namespace Worker

variable {H S : Type} [Screen S]

/-- The lines that `runLines` hands to the shell, the one that stops it included. -/
def linesRun (host : Host H) (depth : Nat) : Nat → Worker H S → List String
  | 0, _ => []
  | fuel + 1, w =>
    match w.editor.takeLine with
    | (none, _) => []
    | (some line, editor) =>
      line ::
        match runTaken host depth line { w with editor } with
        | .ok _ w => linesRun host depth fuel w
        | .error _ _ => []

/-- The lines that a turn hands to the shell. -/
def handedInTurn (host : Host H) (depth : Nat) (t : Turn) (w : Worker H S) : List String :=
  match intake t.messages t.polled w with
  | .ok _ w => linesRun host depth (w.editor.committed.length + w.editor.queue.length) w
  | .error _ _ => []

def handedInLoop (host : Host H) (depth : Nat) : List Turn → Worker H S → List String
  | [], _ => []
  | t :: rest, w =>
    handedInTurn host depth t w ++
      match turn host depth t.messages t.polled w with
      | .ok _ w => handedInLoop host depth rest w
      | .error _ _ => []

/-- The lines that a run hands to the shell, in order. Whatever stops the run stops them too. -/
def handed (host : Host H) (depth : Nat) (turns : List Turn) (w : Worker H S) : List String :=
  match onEditor Session.start w with
  | .ok _ w => handedInLoop host depth turns w
  | .error _ _ => []

/-- The lines in this list are those that are taken before as many others have been run. -/
theorem getElem?_linesRun_iff {host : Host H} {depth fuel count : Nat} {line : String}
    {w : Worker H S} : (linesRun host depth fuel w)[count]? = some line ↔ count < fuel ∧
      ∃ giver, runLines host depth count w = .ok () giver ∧
        giver.editor.takeLine.1 = some line := by
  induction fuel generalizing count w with
  | zero => simp [linesRun]
  | succ fuel ih =>
    cases taken : w.editor.committed with
    | nil =>
      constructor
      · intro there
        simp [linesRun, Editor.takeLine, taken] at there
      · rintro ⟨-, giver, ran, next⟩
        have stays : Ensures (runLines host depth count) (fun _ w' => w' = w) Whatever w :=
          (ensures_runLines_of_none taken).mpr rfl
        rw [stays.of_eq_ok ran] at next
        simp [Editor.takeLine, taken] at next
    | cons first rest =>
      simp only [linesRun, Editor.takeLine, taken]
      cases count with
      | zero =>
        have next : w.editor.takeLine.1 = some first := by simp only [Editor.takeLine, taken]
        constructor
        · intro there
          exact ⟨Nat.succ_pos _, w, rfl, next.trans there⟩
        · rintro ⟨-, giver, ran, next'⟩
          cases ran
          exact next.symm.trans next'
      | succ count =>
        rw [List.getElem?_cons_succ, runLines_succ taken, Nat.succ_lt_succ_iff]
        simp only [bind, EStateM.bind]
        cases runTaken host depth first
            { w with editor := { w.editor with committed := rest } } with
        | ok _ w' => exact ih
        | error stop w' => simp

/-- A turn hands over the lines in its list, and no others. -/
theorem mem_handedInTurn_iff {host : Host H} {depth : Nat} {t : Turn} {line : String}
    {w : Worker H S} :
    line ∈ handedInTurn host depth t w ↔ ∃ giver, HandsOver host depth w t line giver := by
  rw [handedInTurn, List.mem_iff_getElem?]
  cases taken : intake t.messages t.polled w with
  | ok _ ready =>
    simp only [getElem?_linesRun_iff]
    constructor
    · rintro ⟨count, below, giver, ran, next⟩
      exact ⟨giver, ready, count, taken, below, ran, next⟩
    · rintro ⟨giver, ready', count, taken', below, ran, next⟩
      cases taken.symm.trans taken'
      exact ⟨count, below, giver, ran, next⟩
  | error stop w' => simp [HandsOver, taken]

end Worker

end LineConsole
