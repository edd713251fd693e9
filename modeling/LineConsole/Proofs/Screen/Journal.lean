import LineConsole.Proofs.Action
import LineConsole.Screen.Journal

/-! # What can be told from a screen

A view of screens tells whether a prompt is shown if it does from the time when something is printed
as a prompt until a new row begins, and if no other call matters to it. A watched screen has such a
view: its journal holds every call, however the call ended.
-/

namespace LineConsole

/-- A view of screens that tells whether a prompt is shown. -/
structure Screen.TellsPrompt {S : Type} [Screen S] (shows : S → Prop) : Prop where
  prompt : ∀ text s, Ensures (Screen.print text .prompt : Action S Unit) (fun _ => shows) Whatever s
  newline : ∀ s, Ensures (Screen.newline : Action S Unit) (fun _ s' => ¬ shows s') Whatever s
  text : ∀ text style, style ≠ .prompt → Keeps shows (Screen.print text style : Action S Unit)
  cursor : Keeps shows (Screen.cursor : Action S Position)
  moveTo : ∀ position, Keeps shows (Screen.moveTo position : Action S Unit)
  bell : Keeps shows (Screen.bell : Action S Unit)
  flush : Keeps shows (Screen.flush : Action S Unit)
  witness : ∀ record screen, shows (Screen.witness record screen) = shows screen

/-- Whether a prompt is shown behind one more entry of a journal. -/
def JournalEntry.promptAfter (shown : Bool) : JournalEntry → Bool
  | .call (.print .prompt _) => true
  | .call .newline => false
  | _ => shown

namespace WatchedScreen

variable {S α : Type}

/-- However a call ends, it is in the journal. -/
theorem pass_journal (call : ScreenCall) (action : Action S α) (w : WatchedScreen S) :
    Ensures (pass call action) (fun _ w' => w'.journal = w.journal ++ [.call call])
      (fun _ w' => w'.journal = w.journal ++ [.call call]) w := by
  simp only [Ensures, pass]
  by_cases fails : w.calls + 1 = w.failing
  · rw [if_pos fails]
  · rw [if_neg fails]
    cases action w.screen <;> rfl

/-- Whether a prompt is shown behind all that is in the journal. -/
def showsPrompt (w : WatchedScreen S) : Prop :=
  w.journal.foldl JournalEntry.promptAfter false = true

instance : DecidablePred (showsPrompt (S := S)) := fun _ => inferInstanceAs (Decidable (_ = _))

private theorem showsPrompt_of_journal {w w' : WatchedScreen S} {entry : JournalEntry}
    (journal : w'.journal = w.journal ++ [entry]) :
    w'.showsPrompt = (entry.promptAfter (w.journal.foldl JournalEntry.promptAfter false) = true) := by
  rw [showsPrompt, journal, List.foldl_append]
  rfl

/-- Any call but two leaves it as it is whether a prompt is shown. -/
private theorem pass_keeps_showsPrompt {call : ScreenCall} (action : Action S α)
    (other : ∀ shown, (JournalEntry.call call).promptAfter shown = shown) :
    Keeps showsPrompt (pass call action) := by
  intro w
  have same (w' : WatchedScreen S) (journal : w'.journal = w.journal ++ [.call call]) :
      w'.showsPrompt = w.showsPrompt := by
    rw [showsPrompt_of_journal journal, other]
    rfl
  exact (pass_journal call action w).imp (fun _ => same) fun _ => same

theorem tellsPrompt [Screen S] : Screen.TellsPrompt (showsPrompt (S := S)) where
  prompt text w := by
    refine (pass_journal (.print .prompt text) _ w).imp (fun _ w' journal => ?_) fun _ _ _ => trivial
    exact showsPrompt_of_journal journal ▸ rfl
  newline w := by
    refine (pass_journal .newline _ w).imp (fun _ w' journal => ?_) fun _ _ _ => trivial
    exact showsPrompt_of_journal journal ▸ nofun
  text text style plain := pass_keeps_showsPrompt _ fun shown => by
    cases style <;> first | rfl | exact absurd rfl plain
  cursor := pass_keeps_showsPrompt _ fun _ => rfl
  moveTo _ := pass_keeps_showsPrompt _ fun _ => rfl
  bell := pass_keeps_showsPrompt _ fun _ => rfl
  flush := pass_keeps_showsPrompt _ fun _ => rfl
  witness record w := by
    have journal : (Screen.witness record w).journal = w.journal ++ [.record record] := rfl
    exact showsPrompt_of_journal journal

end WatchedScreen

end LineConsole
