import LineConsole.Proofs.Lexeme.Oddities
import LineConsole.Proofs.Lexeme.Tiling

/-! # The diagnostics of a text

Reading a text to its end leaves one warning for each oddity of its lexemes and of the line behind an
open quote, in the order of their places. The error about an open quote comes last, and there is one
just where the items end in it.
-/

namespace LineConsole

namespace Lexeme

/-- What is odd about a text that falls into these lexemes, up to its end or to an open quote: the
oddities of the lexemes and of the line behind the open quote, with what stands in front of them. -/
inductive Remarkable (text : List Char) (lexemes : List Lexeme) : Remark → Prop where
  | inside {before after : List Lexeme} {lexeme : Lexeme} {remark : Remark}
      (there : lexemes = before ++ lexeme :: after)
      (odd : Oddity lexeme.kind lexeme.content.toList remark) :
      Remarkable text lexemes (remark.behind (joined before).length)
  | unclosed {quote : Char} {rest : List Char} {remark : Remark}
      (behind : text = joined lexemes ++ quote :: rest ++ ['\x00'])
      (stray : StrayPair (quote :: restOfLine rest) remark) :
      Remarkable text lexemes (remark.behind (joined lexemes).length)

/-- A remark about a text as a warning. -/
def Remark.warning (text : List Char) (remark : Remark) : Diagnostic :=
  ⟨.warning, remark.message, .ofOffset text remark.offset⟩

variable {text cs : List Char} {lexemes later : List Lexeme} {lexeme : Lexeme} {remark : Remark}

theorem joined_cons (kind : LexemeKind) (start stop : Location) (content : List Char)
    (later : List Lexeme) :
    joined (⟨kind, start, stop, String.ofList content⟩ :: later) = content ++ joined later := by
  rw [joined, List.flatMap_cons, String.toList_ofList, ← joined]

/-- What is odd about a text is odd about its first lexeme or about what follows that lexeme. -/
theorem remarkable_cons {kind : LexemeKind} {start stop : Location} {content : List Char} :
    Remarkable (content ++ text) (⟨kind, start, stop, String.ofList content⟩ :: later) remark ↔
      Oddity kind content remark ∨ Behind content.length (Remarkable text later) remark := by
  have length (before : List Lexeme) (remark : Remark) :
      remark.behind (joined (⟨kind, start, stop, String.ofList content⟩ :: before)).length =
        (remark.behind (joined before).length).behind content.length := by
    rw [joined_cons, List.length_append, Remark.behind_behind]
  constructor
  · intro remarkable
    cases remarkable with
    | @inside before after _ remark there odd =>
      cases before with
      | nil =>
        obtain ⟨rfl, rfl⟩ := List.cons.inj there
        rw [String.toList_ofList] at odd
        exact .inl odd
      | cons first before =>
        obtain ⟨rfl, there'⟩ := List.cons.inj there
        exact .inr ⟨_, .inside there' odd, length before remark⟩
    | unclosed behind stray =>
      rw [joined_cons, List.append_assoc, List.append_assoc, List.append_cancel_left_eq,
        ← List.append_assoc] at behind
      exact .inr ⟨_, .unclosed behind stray, length later _⟩
  · rintro (odd | ⟨_, ⟨there, odd⟩ | ⟨behind, stray⟩, rfl⟩)
    · rw [← String.toList_ofList (l := content)] at odd
      exact .inside (List.nil_append _).symm odd
    · rw [← length]
      exact .inside (congrArg (_ :: ·) there) odd
    · rw [← length]
      refine .unclosed ?_ stray
      rw [joined_cons, behind, List.append_assoc, List.append_assoc, List.append_assoc]

theorem not_remarkable_nil : ¬ Remarkable [] [] remark := by
  rintro (⟨there, -⟩ | ⟨behind, -⟩)
  · simp at there
  · simp at behind

/-- The closing NUL is not odd. -/
theorem not_remarkable_last {start stop : Location} :
    ¬ Remarkable ['\x00'] [⟨.endOfFile, start, stop, String.ofList ['\x00']⟩] remark := by
  intro remarkable
  have split : Remarkable (['\x00'] ++ []) [⟨.endOfFile, start, stop, String.ofList ['\x00']⟩] remark :=
    remarkable
  rcases remarkable_cons.mp split with (⟨same, -⟩ | ⟨same, -⟩) | ⟨earlier, there, -⟩
  · cases same
  · rcases same with same | same <;> cases same
  · exact not_remarkable_nil there

theorem remarkable_open {quote : Char} :
    Remarkable (quote :: cs ++ ['\x00']) [] remark ↔ StrayPair (quote :: restOfLine cs) remark := by
  constructor
  · rintro (⟨there, -⟩ | ⟨behind, stray⟩)
    · simp at there
    · obtain ⟨rfl, rfl⟩ := List.cons.inj (List.append_cancel_right behind)
      exact stray
  · exact fun stray => .unclosed rfl stray

/-- The remarks about a text that falls into these lexemes: one for each oddity, in order. -/
structure RemarksOn (cs : List Char) (lexemes : List Lexeme) (remarks : List Remark) : Prop where
  inOrder : InOrder remarks
  within : ∀ remark ∈ remarks, remark.offset < cs.length
  remarkable : ∀ remark, remark ∈ remarks ↔ Remarkable (cs ++ ['\x00']) lexemes remark

theorem remarksOn_last {start stop : Location} :
    RemarksOn [] [⟨.endOfFile, start, stop, String.ofList ['\x00']⟩] [] where
  inOrder := .nil
  within := nofun
  remarkable _ := iff_of_false List.not_mem_nil not_remarkable_last

theorem remarksOn_open {c : Char} {remarks : List Remark}
    (found : front (c :: cs) = .unterminated remarks) : RemarksOn (c :: cs) [] remarks := by
  obtain ⟨inOrder, stray⟩ := strayPair_of_unterminated found
  refine ⟨inOrder, fun remark there => ?_, fun remark => (stray remark).trans remarkable_open.symm⟩
  have line : (restOfLine cs).length ≤ cs.length := (List.takeWhile_sublist _).length_le
  have within := ((stray remark).mp there).lt
  rw [List.length_cons] at within ⊢
  omega

/-- The remarks about the first lexeme, and behind them those about what follows it. -/
theorem RemarksOn.cons {c : Char} {kind : LexemeKind} {content rest : List Char}
    {remarks others : List Remark} {start stop : Location}
    (found : front (c :: cs) = .lexeme kind content rest remarks)
    (on : RemarksOn rest later others) :
    RemarksOn (c :: cs) (⟨kind, start, stop, String.ofList content⟩ :: later)
      (remarks ++ others.map (·.behind content.length)) := by
  obtain ⟨inOrder, odd⟩ := oddity_of_front found
  have within (remark : Remark) (own : remark ∈ remarks) : remark.offset < content.length :=
    ((odd remark).mp own).lt
  rw [← front_append found]
  refine ⟨List.pairwise_append.mpr ⟨inOrder, List.pairwise_map.mpr ?_, fun remark own => ?_⟩,
    fun remark there => ?_, fun remark => ?_⟩
  · exact on.inOrder.imp fun lt => Nat.add_lt_add_right lt content.length
  · intro _ there
    obtain ⟨remark', -, rfl⟩ := List.mem_map.mp there
    exact (within remark own).trans_le (Nat.le_add_left _ _)
  · rw [List.length_append]
    rcases List.mem_append.mp there with own | behind
    · exact (within remark own).trans_le (Nat.le_add_right _ _)
    · obtain ⟨remark', other, rfl⟩ := List.mem_map.mp behind
      exact Nat.add_comm content.length _ ▸ Nat.add_lt_add_right (on.within remark' other) _
  · rw [List.append_assoc, remarkable_cons, ← odd, List.mem_append, List.mem_map]
    refine or_congr_right ?_
    simp only [Behind, ← on.remarkable, eq_comm]

end Lexeme

namespace Lexer

open Lexeme

/-- The errors among the items of a text. -/
def errors (items : List (Except Fault Lexeme)) : List Diagnostic :=
  items.filterMap fun
    | .error (.lexical diagnostic) => some diagnostic
    | _ => none

theorem errors_ok (lexemes : List Lexeme) (items : List (Except Fault Lexeme)) :
    errors (lexemes.map .ok ++ items) = errors items := by
  induction lexemes with
  | nil => rfl
  | cons lexeme lexemes ih => exact ih

/-- A warning behind the first lexeme is located as in the whole text. -/
theorem warning_behind (l : Lexer) {content rest : List Char} (text : l.rest = content ++ rest)
    (diagnostics : List Diagnostic) (finished : Bool) (remark : Remark) :
    warning ⟨rest, l.location.advance content, diagnostics, finished⟩ remark =
      l.warning (remark.behind content.length) := by
  rw [warning, warning, Remark.behind, text, Nat.add_comm, List.take_length_add_append,
    Location.advance_append]

/-- By induction on the items: what is recorded are the remarks about the first lexeme, then those
about what follows it, and at last the error if there is one. -/
theorem take_diagnostics (l : Lexer) (going : l.finished = false) {count : Nat}
    (enough : l.rest.length < count) :
    ∃ remarks, RemarksOn l.rest ((l.take count).1.filterMap Except.toOption) remarks ∧
      (l.take count).2.diagnostics =
        l.diagnostics ++ remarks.map l.warning ++ errors (l.take count).1 := by
  induction count generalizing l with
  | zero => omega
  | succ count ih =>
    simp only [take, next?, going, Bool.false_eq_true, if_false]
    cases text : l.rest with
    | nil =>
      simp only [front, take_of_finished, decide_true]
      exact ⟨[], remarksOn_last, by simp [errors]⟩
    | cons c cs =>
      cases found : front (c :: cs) with
      | unterminated remarks =>
        simp only [take_of_finished]
        exact ⟨remarks, remarksOn_open found, rfl⟩
      | lexeme kind content rest remarks =>
        have split : l.rest = content ++ rest := text.trans (front_append found).symm
        have shorter : rest.length < count := by
          have behind := length_lt_of_front found
          rw [text] at enough
          omega
        obtain ⟨others, on, recorded⟩ := ih ⟨rest, l.location.advance content,
          l.diagnostics ++ remarks.map l.warning, decide (kind = .endOfFile)⟩
          (decide_eq_false (front_cons_eq_lexeme found).2) shorter
        refine ⟨remarks ++ others.map (·.behind content.length), on.cons found, ?_⟩
        have located : (others.map (·.behind content.length)).map l.warning =
            others.map (warning ⟨rest, l.location.advance content,
              l.diagnostics ++ remarks.map l.warning, decide (kind = .endOfFile)⟩) := by
          rw [List.map_map]
          exact List.map_congr_left fun remark _ => (warning_behind l split _ _ remark).symm
        rw [recorded, List.map_append, located, ← List.append_assoc]
        rfl

theorem warning_ofSource {source : String} {remark : Remark}
    (within : remark.offset < (body source).length) :
    (ofSource source).warning remark = remark.warning (normalized source) := by
  have inside : remark.offset - (normalized source).length = 0 := by
    rw [normalized, List.length_append]
    omega
  rw [warning, Remark.warning, Location.ofOffset, inside, normalized,
    List.take_append_of_le_length within.le]
  rfl

/-- The items are the lexemes, and an error behind them just where they end at an open quote. -/
theorem items_run (source : String) :
    let items := (ofSource source).run.1
    let lexemes := items.filterMap Except.toOption
    items = lexemes.map .ok ∨
      items = lexemes.map .ok ++ [.error (.lexical ⟨.error, "unterminated quoted string",
          .ofOffset (normalized source) (joined lexemes).length⟩)] ∧
        ∃ quote rest, isQuote quote = true ∧
          normalized source = joined lexemes ++ quote :: rest ++ ['\x00'] := by
  intro items lexemes
  have read : Items .start (body source) items :=
    (take_items (ofSource source) rfl (Nat.lt_succ_self _)).1
  obtain ⟨front, -, ends⟩ := read.ends
  rcases ends with ⟨last, all, -⟩ | ⟨quote, rest, all, whole, opens, -⟩
  · have all' : items = (front ++ [last]).map .ok := by
      rw [all, List.map_append]
      rfl
    have same : lexemes = front ++ [last] := by rw [← filterMap_ok (front ++ [last]), ← all']
    exact .inl (same ▸ all')
  · have same : lexemes = front := by
      change items.filterMap _ = front
      rw [all, List.filterMap_append, filterMap_ok]
      exact List.append_nil _
    have text : normalized source = joined front ++ quote :: rest ++ ['\x00'] := by
      rw [normalized, whole]
    refine .inr ⟨?_, quote, rest, opens, same ▸ text⟩
    rw [all, same, text, List.append_assoc, Location.ofOffset_append]

/-- Reading ends. The warnings are one for each oddity of the text, in the order of their places, and
the error that the items end in comes behind them. -/
theorem diagnostics_exact (source : String) :
    let text := terminated (Text.unifyLineEnds source.toList)
    let items := (ofSource source).run.1
    let lexemes := items.filterMap Except.toOption
    let diagnostics := (ofSource source).run.2.diagnostics
    let error : Diagnostic :=
      ⟨.error, "unterminated quoted string", .ofOffset text (joined lexemes).length⟩
    (ofSource source).run.2.next?.1 = none ∧
    ∃ remarks : List Remark,
      (∀ remark, remark ∈ remarks ↔ Remarkable text lexemes remark) ∧
      (remarks.map (·.offset)).Pairwise (· < ·) ∧
      (remarks.map fun remark =>
        toLex ((remark.warning text).location.line, (remark.warning text).location.column)).Pairwise
          (· < ·) ∧
      (items = lexemes.map .ok ∧ diagnostics = remarks.map (·.warning text) ∨
        items = lexemes.map .ok ++ [.error (.lexical error)] ∧
          (∃ quote rest, isQuote quote = true ∧ text = joined lexemes ++ quote :: rest ++ ['\x00']) ∧
          diagnostics = remarks.map (·.warning text) ++ [error]) := by
  intro text items lexemes diagnostics error
  have same : text = normalized source := (normalized_eq_terminated source).symm
  have finished := (take_items (ofSource source) rfl (Nat.lt_succ_self _)).2
  obtain ⟨remarks, ⟨inOrder, within, remarkable⟩, recorded⟩ :=
    take_diagnostics (ofSource source) rfl (Nat.lt_succ_self _)
  change diagnostics = [] ++ remarks.map (ofSource source).warning ++ errors items at recorded
  have warnings : remarks.map (ofSource source).warning = remarks.map (·.warning text) :=
    List.map_congr_left fun remark there => same ▸ warning_ofSource (within remark there)
  rw [List.nil_append, warnings] at recorded
  refine ⟨?_, remarks, same ▸ remarkable, List.pairwise_map.mpr inOrder,
    List.pairwise_map.mpr (inOrder.imp fun lt => Location.strictMono_ofOffset text lt), ?_⟩
  · rw [next?, if_pos]
    exact finished
  rcases items_run source with all | ⟨all, quote, rest, opens, split⟩
  · change items = lexemes.map .ok at all
    have none : errors items = [] := by
      rw [all, ← List.append_nil (lexemes.map _), errors_ok]
      rfl
    exact .inl ⟨all, by rw [recorded, none, List.append_nil]⟩
  · rw [← same] at all split
    have one : errors items = [error] := by
      refine (congrArg errors all).trans ?_
      rw [errors_ok]
      rfl
    exact .inr ⟨all, ⟨quote, rest, opens, split⟩, by rw [recorded, one]⟩

end Lexer

end LineConsole
