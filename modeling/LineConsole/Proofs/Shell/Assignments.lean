import LineConsole.Proofs.ArgumentText.Expanding
import LineConsole.Proofs.ArgumentText.Plain
import LineConsole.Shell.Execution
import Mathlib.Data.List.Basic

/-! # Two spellings of an assignment

The equals sign of an assignment may follow the name of the variable at once or stand by itself. Then
the value is read in one piece. Glued to the name it is cut behind its first word and put together
again with one space, whatever stood there, so the two spellings agree just if that was one space or
nothing followed.
-/

namespace LineConsole

/-- The blanks behind the first word. -/
def firstGap (text : List Char) : List Char :=
  (text.dropWhile (!Text.isBlank ·)).takeWhile Text.isBlank

/-- Two parts of a text with one space in between, if both are there. -/
def joinWords (word rest : List Char) : List Char := if rest = [] then word else word ++ ' ' :: rest

/-- The text with one space in the place of its first gap, and without the blanks at its ends. -/
def oneSpaced (text : List Char) : List Char :=
  Text.trim (joinWords (splitCommand text).1 (splitCommand text).2)

/-- The text begins with a blank, is a single word, or has one space behind its first word. -/
def KeepsGap (text : List Char) : Prop :=
  (splitCommand text).1 = [] ∨ (splitCommand text).2 = [] ∨ firstGap text = [' ']

instance (text : List Char) : Decidable (KeepsGap text) := inferInstanceAs (Decidable (_ ∨ _ ∨ _))

/-! ## What is lost of a text -/

section Spacing

variable {text : List Char}

theorem firstGap_blank : ∀ c ∈ firstGap text, Text.isBlank c = true :=
  fun c within => List.all_eq_true.mp List.all_takeWhile c within

theorem firstGap_ne_nil (rest : (splitCommand text).2 ≠ []) : firstGap text ≠ [] := by
  intro none
  have stops := List.head?_dropWhile_not (!Text.isBlank ·) text
  cases same : text.dropWhile (!Text.isBlank ·) with
  | nil =>
    rw [splitCommand, same] at rest
    exact rest rfl
  | cons b left =>
    have blank : Text.isBlank b = true := by simpa [same] using stops
    rw [firstGap, same, List.takeWhile_cons_of_pos blank] at none
    cases none

private theorem head_inked (word : (splitCommand text).1 ≠ []) (rest : List Char) :
    ∀ c ∈ ((splitCommand text).1 ++ rest).head?, Text.isBlank c = false := by
  intro c first
  obtain ⟨d, cs, same⟩ := List.exists_cons_of_ne_nil word
  have within : d ∈ (splitCommand text).1 := same ▸ List.mem_cons_self
  rw [same] at first
  cases first
  exact inked_of_mem_splitCommand within

private theorem last_inked :
    ∀ c ∈ (joinWords (splitCommand text).1 (splitCommand text).2).getLast?, Text.isBlank c = false := by
  intro c last
  unfold joinWords at last
  split at last
  · exact inked_of_mem_splitCommand (List.mem_of_mem_getLast? last)
  · rename_i rest
    obtain ⟨init, d, same⟩ := (List.eq_nil_or_concat' (splitCommand text).2).resolve_left rest
    rw [same, ← List.cons_append, ← List.append_assoc, List.getLast?_concat] at last
    obtain rfl := Option.some.inj last
    refine Text.trim_last_inked (text.dropWhile (!Text.isBlank ·)) d ?_
    exact (congrArg List.getLast? same).trans List.getLast?_concat

theorem oneSpaced_of_words (word : (splitCommand text).1 ≠ []) (rest : (splitCommand text).2 ≠ []) :
    oneSpaced text = (splitCommand text).1 ++ ' ' :: (splitCommand text).2 := by
  have joined : joinWords (splitCommand text).1 (splitCommand text).2 =
      (splitCommand text).1 ++ ' ' :: (splitCommand text).2 := if_neg rest
  have inked := Text.trim_of_inked (joined ▸ head_inked word _) last_inked
  rw [oneSpaced, inked, joined]

section Trimmed

variable (last : ∀ c ∈ text.getLast?, Text.isBlank c = false)

include last

/-- A text is its first word, the gap behind it and the rest. -/
theorem word_gap_rest :
    (splitCommand text).1 ++ (firstGap text ++ (splitCommand text).2) = text := by
  have left : (splitCommand text).2 =
      (text.dropWhile (!Text.isBlank ·)).dropWhile Text.isBlank := by
    refine Text.trimEnd_of_inked fun c ends => last c ?_
    have suffix : (text.dropWhile (!Text.isBlank ·)).dropWhile Text.isBlank <:+ text :=
      (List.dropWhile_suffix _).trans (List.dropWhile_suffix _)
    obtain ⟨front, whole⟩ := suffix
    rw [← whole, Option.mem_def, List.getLast?_append]
    exact congrArg (Option.or · front.getLast?) ends
  rw [left, firstGap, List.takeWhile_append_dropWhile]
  exact List.takeWhile_append_dropWhile

theorem trim_of_word (word : (splitCommand text).1 ≠ []) : Text.trim text = text := by
  have inked := head_inked word (firstGap text ++ (splitCommand text).2)
  rw [word_gap_rest last] at inked
  exact Text.trim_of_inked inked last

theorem oneSpaced_of_word (single : (splitCommand text).1 = [] ∨ (splitCommand text).2 = []) :
    oneSpaced text = Text.trim text := by
  by_cases word : (splitCommand text).1 = []
  · have whole : text.dropWhile (!Text.isBlank ·) = text := by
      have split : (splitCommand text).1 ++ text.dropWhile (!Text.isBlank ·) = text :=
        List.takeWhile_append_dropWhile
      rwa [word, List.nil_append] at split
    have rest : (splitCommand text).2 = Text.trim text := congrArg Text.trim whole
    rw [oneSpaced, joinWords, word, rest]
    split
    · rename_i none
      rw [none]
      rfl
    · rw [List.nil_append, Text.trim_cons_blank (by decide), Text.trim_trim]
  · have rest := single.resolve_left word
    have gap : firstGap text = [] := by
      by_contra some
      obtain ⟨init, b, same⟩ := (List.eq_nil_or_concat' (firstGap text)).resolve_left some
      have blank : Text.isBlank b = true := firstGap_blank b (same ▸ List.mem_concat_self)
      have whole := word_gap_rest last
      rw [rest, List.append_nil, same, ← List.append_assoc] at whole
      rw [← whole] at last
      cases blank.symm.trans (last b List.getLast?_concat)
    have whole := word_gap_rest last
    rw [rest, gap, List.append_nil, List.append_nil] at whole
    rw [oneSpaced, joinWords, if_pos rest, whole]

/-- The value is the same just if the gap is. -/
theorem expand_oneSpaced_iff (env : Environment) :
    ArgumentText.expand env (oneSpaced text) = ArgumentText.expand env (Text.trim text) ↔
      KeepsGap text := by
  by_cases word : (splitCommand text).1 = []
  · exact iff_of_true (congrArg _ (oneSpaced_of_word last (.inl word))) (.inl word)
  · by_cases rest : (splitCommand text).2 = []
    · exact iff_of_true (congrArg _ (oneSpaced_of_word last (.inr rest))) (.inr (.inl rest))
    · have keeps : KeepsGap text ↔ firstGap text = [' '] := by simp [KeepsGap, word, rest]
      have trimmed : Text.trim text =
          (splitCommand text).1 ++ (firstGap text ++ (splitCommand text).2) :=
        (trim_of_word last word).trans (word_gap_rest last).symm
      rw [keeps, oneSpaced_of_words word rest, trimmed,
        ArgumentText.expand_append_blank (by decide),
        ArgumentText.expand_append_gap (firstGap_ne_nil rest) firstGap_blank,
        List.append_cancel_left_eq, ← List.singleton_append, List.append_cancel_right_eq, eq_comm]

end Trimmed

end Spacing

/-! ## Reading the lines -/

theorem VariableRequest.ofLine_of_equals {name : String} (identifier : isIdentifier name = true)
    {glued rest text : List Char} (stops : ∀ c ∈ glued.head?, Text.isAlphanumeric c = false)
    (joined : Text.trim (if glued = [] then rest else joinWords glued rest) = '=' :: text) :
    ofLine (name.toList ++ glued) rest = .ok (.assign name (Text.trim text)) := by
  have letters : ∀ c ∈ name.toList, Text.isAlphanumeric c = true := by
    simp only [isIdentifier, Bool.and_eq_true, List.all_eq_true] at identifier
    exact identifier.2
  have word : glued.takeWhile Text.isAlphanumeric = [] := by
    cases glued with
    | nil => rfl
    | cons c glued => exact List.takeWhile_cons_of_neg (Bool.eq_false_iff.mp (stops c rfl))
  have left : glued.dropWhile Text.isAlphanumeric = glued := by
    cases glued with
    | nil => rfl
    | cons c glued => exact List.dropWhile_cons_of_neg (Bool.eq_false_iff.mp (stops c rfl))
  simp only [joinWords] at joined
  simp only [ofLine, List.takeWhile_append_of_pos letters, List.dropWhile_append_of_pos letters, word,
    left, List.append_nil, String.ofList_toList, identifier, joined, Bool.not_true,
    Bool.false_eq_true, if_false]

namespace Shell

variable {H : Type} {sh : Shell H} {name : String}

def gluedLine (name text : String) : String := "$" ++ name ++ "=" ++ text

def spacedLine (name text : String) : String := "$" ++ name ++ " = " ++ text

theorem prepare_of_assign (uses : sh.usesVariables = true) {line : String}
    {word rest text : List Char}
    (named : splitCommand (Text.trim line.toList) = ('$' :: word, rest))
    (read : VariableRequest.ofLine word rest = .ok (.assign name text)) :
    sh.prepare line =
      ((sh.addHistory (Text.trimmed line)).assignVariable name text, .settled (.ok ())) := by
  have enabled : (sh.addHistory (Text.trimmed line)).usesVariables = true := uses
  rw [prepare_of_dollar named]
  simp only [executeVariableLine, enabled, read, Bool.not_true, Bool.false_eq_true, if_false]

/-- No letter or digit of a name is a blank. -/
theorem inked_of_isIdentifier (identifier : isIdentifier name = true) :
    ∀ c ∈ '$' :: name.toList, Text.isBlank c = false := by
  simp only [isIdentifier, Bool.and_eq_true, List.all_eq_true] at identifier
  refine List.forall_mem_cons.mpr ⟨by decide, fun c within => Bool.eq_false_iff.mpr fun blank => ?_⟩
  cases (Text.isAlphanumeric_of_isBlank blank).symm.trans (identifier.2 c within)

theorem prepare_gluedLine (uses : sh.usesVariables = true) (identifier : isIdentifier name = true)
    (text : String) :
    sh.prepare (gluedLine name text) =
      ((sh.addHistory (Text.trimmed (gluedLine name text))).assignVariable name
        (oneSpaced (Text.trimEnd text.toList)), .settled (.ok ())) := by
  have characters : (gluedLine name text).toList =
      '$' :: (name.toList ++ '=' :: text.toList) := by simp [gluedLine]
  have inked : ∀ c ∈ '$' :: name.toList ++ ['='], Text.isBlank c = false :=
    List.forall_mem_append.mpr ⟨inked_of_isIdentifier identifier, List.forall_mem_singleton.mpr rfl⟩
  have whole : Text.trim (gluedLine name text).toList =
      '$' :: name.toList ++ ['='] ++ Text.trimEnd text.toList := by
    rw [characters, Text.trim_cons_inked (by decide), Text.trimEnd_append_cons (by decide)]
    simp
  have named : splitCommand (Text.trim (gluedLine name text).toList) =
      ('$' :: (name.toList ++ '=' :: (splitCommand (Text.trimEnd text.toList)).1),
        (splitCommand (Text.trimEnd text.toList)).2) := by
    rw [whole, splitCommand_append inked]
    simp
  have cut (word rest : List Char) : joinWords ('=' :: word) rest = '=' :: joinWords word rest := by
    unfold joinWords
    split <;> rfl
  refine prepare_of_assign uses named ?_
  refine VariableRequest.ofLine_of_equals identifier (by rintro c ⟨⟩; decide) ?_
  rw [if_neg (List.cons_ne_nil _ _), cut, Text.trim_cons_inked (by decide),
    Text.trimEnd_of_inked last_inked]

theorem prepare_spacedLine (uses : sh.usesVariables = true) (identifier : isIdentifier name = true)
    (text : String) :
    sh.prepare (spacedLine name text) =
      ((sh.addHistory (Text.trimmed (spacedLine name text))).assignVariable name
        (Text.trim (Text.trimEnd text.toList)), .settled (.ok ())) := by
  have characters : (spacedLine name text).toList =
      '$' :: ((name.toList ++ [' ']) ++ '=' :: (' ' :: text.toList)) := by simp [spacedLine]
  have whole : Text.trim (spacedLine name text).toList =
      '$' :: name.toList ++ ' ' :: '=' :: Text.trimEnd (' ' :: text.toList) := by
    rw [characters, Text.trim_cons_inked (by decide), Text.trimEnd_append_cons (by decide)]
    simp
  have named := splitCommand_of_trim (inked_of_isIdentifier identifier) (by decide)
    (by rintro c ⟨⟩; decide) whole
  have value : Text.trim (Text.trimEnd (' ' :: text.toList)) =
      Text.trim (Text.trimEnd text.toList) := by
    rw [← List.singleton_append, Text.trimEnd_append]
    split
    · rename_i none
      rw [none]
      rfl
    · exact Text.trim_cons_blank (by decide) _
  have read : VariableRequest.ofLine name.toList ('=' :: Text.trimEnd (' ' :: text.toList)) =
      .ok (.assign name (Text.trim (Text.trimEnd text.toList))) := by
    have glued : ∀ c ∈ ([] : List Char).head?, Text.isAlphanumeric c = false := by rintro _ ⟨⟩
    rw [← List.append_nil name.toList, ← value]
    refine VariableRequest.ofLine_of_equals identifier glued ?_
    rw [if_pos rfl, Text.trim_cons_inked (by decide),
      Text.trimEnd_of_inked (Text.trimEnd_last_inked _)]
  exact prepare_of_assign uses named read

/-! ## Assigning -/

section Agreeing

variable {sh' : Shell H} (environment : sh.environment = sh'.environment)
  (name : String) (text text' : List Char)

include environment

/-- The value that is assigned can be told from the environment. -/
theorem environment_assignVariable_iff :
    (sh.assignVariable name text).environment = (sh'.assignVariable name text').environment ↔
      ArgumentText.expand sh.environment text = ArgumentText.expand sh.environment text' := by
  rw [environment_assignVariable, environment_assignVariable, ← environment]
  refine ⟨fun same => ?_, fun same => by rw [same]⟩
  have value := congrArg (Environment.get? · name) same
  split at value <;> split at value <;>
    simp_all [Environment.get?_erase, Environment.get?_set, String.ofList_inj]

/-- It can be told from what is written, too. -/
theorem output_assignVariable_iff (output : sh.output = sh'.output) :
    (sh.assignVariable name text).output = (sh'.assignVariable name text').output ↔
      ArgumentText.expand sh.environment text = ArgumentText.expand sh.environment text' := by
  rw [output_assignVariable, output_assignVariable, ← environment, ← output]
  refine ⟨fun same => ?_, fun same => by rw [same]⟩
  split at same <;> split at same <;>
    simp_all [Transcript.writeLine, Transcript.write, String.ofList_inj]

end Agreeing

/-- A text without dollar signs is the value as it is. -/
theorem get?_assignVariable_of_not_mem (sh : Shell H) (name : String) {text : String} (some : text ≠ "")
    (none : '$' ∉ text.toList) :
    (sh.assignVariable name text.toList).environment.get? name = Option.some text := by
  rw [environment_assignVariable, ArgumentText.expand_of_not_mem none,
    if_neg (mt String.toList_eq_nil_iff.mp some), Environment.get?_set, if_pos rfl,
    String.ofList_toList]

/-- Both spellings assign a value, and it is the same just if one space or nothing stands behind the
first word of the text. -/
theorem assignments_agree_iff (host : Host H) (depth : Nat) (sh : Shell H)
    (uses : sh.usesVariables = true) (identifier : isIdentifier name = true) (text : String) :
    ∃ glued spaced,
      sh.executeLine host (depth + 1) (gluedLine name text) = some (glued, .ok ()) ∧
      sh.executeLine host (depth + 1) (spacedLine name text) = some (spaced, .ok ()) ∧
      (glued.environment = spaced.environment ↔ KeepsGap (Text.trimEnd text.toList)) ∧
      (glued.output = spaced.output ↔ KeepsGap (Text.trimEnd text.toList)) := by
  have same := expand_oneSpaced_iff (Text.trimEnd_last_inked text.toList) sh.environment
  have entered (line line' : String) :
      (sh.addHistory line).environment = (sh.addHistory line').environment := rfl
  have written (line line' : String) :
      (sh.addHistory line).output = (sh.addHistory line').output := rfl
  refine ⟨_, _, executeLine_of_settled (prepare_gluedLine uses identifier text),
    executeLine_of_settled (prepare_spacedLine uses identifier text), ?_, ?_⟩
  · rw [← same]
    exact environment_assignVariable_iff (entered _ _) name _ _
  · rw [← same]
    exact output_assignVariable_iff (entered _ _) name _ _ (written _ _)

/-- A shell without commands, whose host does nothing. -/
def bareShell : Shell Unit := ({} : ShellSetup Unit).shell

def idleHost : Host Unit := fun _ _ => .finish .done

theorem assignments_agree_on_greeting :
    isIdentifier "greeting" = true ∧ KeepsGap (Text.trimEnd "hello there ".toList) ∧
      ∃ glued spaced,
        bareShell.executeLine idleHost 1 (gluedLine "greeting" "hello there ") =
          some (glued, .ok ()) ∧
        bareShell.executeLine idleHost 1 (spacedLine "greeting" "hello there ") =
          some (spaced, .ok ()) ∧
        glued.environment = spaced.environment ∧ glued.output = spaced.output := by
  have identifier : isIdentifier "greeting" = true := by decide
  have keeps : KeepsGap (Text.trimEnd "hello there ".toList) := by decide
  obtain ⟨glued, spaced, ran, ran', environments, outputs⟩ :=
    assignments_agree_iff idleHost 0 bareShell rfl identifier "hello there "
  exact ⟨identifier, keeps, glued, spaced, ran, ran', environments.mpr keeps, outputs.mpr keeps⟩

/-- Two spaces stay two just if the equals sign stands by itself. -/
theorem assignments_differ_on_two_spaces :
    isIdentifier "x" = true ∧
      (bareShell.executeLine idleHost 1 (gluedLine "x" "a  b")).map
        (·.1.environment.get? "x") = some (some "a b") ∧
      (bareShell.executeLine idleHost 1 (spacedLine "x" "a  b")).map
        (·.1.environment.get? "x") = some (some "a  b") := by
  have identifier : isIdentifier "x" = true := by decide
  have cut : oneSpaced (Text.trimEnd "a  b".toList) = "a b".toList := by decide
  have whole : Text.trim (Text.trimEnd "a  b".toList) = "a  b".toList := by decide
  refine ⟨identifier, ?_, ?_⟩
  · rw [executeLine_of_settled (prepare_gluedLine rfl identifier _), cut]
    exact congrArg Option.some (get?_assignVariable_of_not_mem _ _ (by decide) (by decide))
  · rw [executeLine_of_settled (prepare_spacedLine rfl identifier _), whole]
    exact congrArg Option.some (get?_assignVariable_of_not_mem _ _ (by decide) (by decide))

end Shell

end LineConsole
