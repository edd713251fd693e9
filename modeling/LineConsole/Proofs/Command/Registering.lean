import LineConsole.Proofs.Command.Candidates

/-! # One more command

A command that is registered is tried behind all candidates that need no more parameters than it does,
and in front of all that need more. Names that it does not match stand for the commands they stood for.
-/

namespace LineConsole.Registry

variable {H : Type} {r : Registry H} {d : Command H} {name : String}

theorem candidates_register_of_other (other : r.sameName d.name name = false) :
    (r.register d).candidates name = r.candidates name := by
  have unknown : [d].filter (fun c => r.sameName c.name name) = [] := by
    rw [List.filter_cons, other]
    rfl
  change ((r.commands ++ [d]).filter fun c => r.sameName c.name name).mergeSort _ = _
  rw [List.filter_append, unknown, List.append_nil]
  rfl

theorem find?_register_of_other (other : r.sameName d.name name = false) (count : Nat) :
    (r.register d).find? name count = r.find? name count := by
  rw [find?, find?, candidates_register_of_other other]

/-- Commands of one count are all on one side of a bound. -/
private theorem filter_level (commands : List (Command H)) (within : Nat → Bool) (count : Nat) :
    (commands.filter (within ·.requiredCount)).filter (·.requiredCount = count) =
      if within count then commands.filter (·.requiredCount = count) else [] := by
  rw [List.filter_filter]
  split
  · rename_i inside
    refine List.filter_congr fun c _ => ?_
    by_cases level : c.requiredCount = count
    · rw [level, inside, Bool.and_true]
    · simp [level]
  · rename_i outside
    refine List.filter_eq_nil_iff.mpr fun c _ kept => outside ?_
    obtain ⟨level, inside⟩ := Bool.and_eq_true_iff.mp kept
    rwa [of_decide_eq_true level] at inside

/-- The new command's place: the order of candidates leaves it no other. -/
theorem candidates_register_of_same (same : r.sameName d.name name = true) :
    (r.register d).candidates name =
      (r.candidates name).filter (·.requiredCount ≤ d.requiredCount) ++
        d :: (r.candidates name).filter (d.requiredCount < ·.requiredCount) := by
  have before := r.inOrder_candidates name
  refine ((r.register d).inOrder_candidates name).unique ⟨?ascending, fun count => ?ties⟩
  case ascending =>
    refine List.pairwise_append.mpr ⟨before.ascending.filter _,
      List.pairwise_cons.mpr ⟨fun c behind => ?_, before.ascending.filter _⟩,
      fun c inFront other behind => ?_⟩
    · exact Nat.le_of_lt (of_decide_eq_true (List.mem_filter.mp behind).2)
    · have noMore := of_decide_eq_true (List.mem_filter.mp inFront).2
      rcases List.mem_cons.mp behind with rfl | behind
      · exact noMore
      · exact Nat.le_trans noMore (Nat.le_of_lt (of_decide_eq_true (List.mem_filter.mp behind).2))
  case ties =>
    have known : (r.register d).commands.filter (fun c => (r.register d).sameName c.name name) =
        (r.commands.filter fun c => r.sameName c.name name) ++ [d] := by
      change (r.commands ++ [d]).filter (fun c => r.sameName c.name name) = _
      rw [List.filter_append, List.filter_cons, same]
      rfl
    rw [known, List.filter_append, List.filter_append, ← before.ties count, List.filter_cons,
      filter_level _ (fun n => n ≤ d.requiredCount), filter_level _ (fun n => d.requiredCount < n)]
    rcases Nat.lt_trichotomy d.requiredCount count with below | level | above
    · simp [below, Nat.ne_of_lt below, Nat.not_le_of_lt below]
    · simp [level]
    · simp [Nat.ne_of_gt above, Nat.le_of_lt above, Nat.lt_asymm above]

/-- What stands in front of a candidate stays there if the new command needs no less than it. -/
theorem exists_candidates_register {c : Command H} {before behind : List (Command H)}
    (split : r.candidates name = before ++ c :: behind)
    (last : r.sameName d.name name = false ∨ c.requiredCount ≤ d.requiredCount) :
    ∃ behind', (r.register d).candidates name = before ++ c :: behind' := by
  cases same : r.sameName d.name name with
  | false => exact ⟨behind, (candidates_register_of_other same).trans split⟩
  | true =>
    have needsNoMore : c.requiredCount ≤ d.requiredCount := by
      rcases last with other | needsNoMore
      · rw [same] at other
        cases other
      · exact needsNoMore
    have ascending := (r.inOrder_candidates name).ascending
    rw [split, List.pairwise_append] at ascending
    have inFront : ∀ a ∈ before, decide (a.requiredCount ≤ d.requiredCount) = true := by
      intro a among
      exact decide_eq_true (Nat.le_trans (ascending.2.2 a among c List.mem_cons_self) needsNoMore)
    have kept : decide (c.requiredCount ≤ d.requiredCount) = true := decide_eq_true needsNoMore
    rw [candidates_register_of_same same, split, List.filter_append,
      List.filter_eq_self.mpr inFront, List.filter_cons, kept, if_pos rfl, List.append_assoc,
      List.cons_append]
    exact ⟨_, rfl⟩

end LineConsole.Registry
