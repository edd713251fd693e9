import LineConsole.Command.Registry

/-! # The order of candidates

A name stands for the commands whose name it matches. Two conditions say in which order these are
tried: counts of required parameters do not go down, and commands with the same count keep the order
of their registration. No more than one list meets both, and the candidates of a registry do.
-/

namespace LineConsole

namespace Registry

variable {H : Type} {r : Registry H} {name : String}

/-- The commands that a name stands for, fewest required parameters first, ties as registered. -/
structure InOrder (r : Registry H) (name : String) (commands : List (Command H)) : Prop where
  ascending : commands.Pairwise fun a b => a.requiredCount ≤ b.requiredCount
  ties : ∀ count, commands.filter (·.requiredCount = count) =
    (r.commands.filter fun c => r.sameName c.name name).filter (·.requiredCount = count)

/-- The first command needs no more than any other. -/
private theorem requiredCount_le_of_mem {c other : Command H} {rest : List (Command H)}
    (ascending : (c :: rest).Pairwise fun a b => a.requiredCount ≤ b.requiredCount)
    (among : other ∈ c :: rest) : c.requiredCount ≤ other.requiredCount := by
  rcases List.mem_cons.mp among with rfl | later
  · exact Nat.le_refl _
  · exact List.rel_of_pairwise_cons ascending later

private theorem mem_of_ties {first second : List (Command H)} {c : Command H}
    (ties : ∀ count, first.filter (·.requiredCount = count) =
      second.filter (·.requiredCount = count)) (among : c ∈ first) : c ∈ second := by
  have kept : c ∈ first.filter (·.requiredCount = c.requiredCount) :=
    List.mem_filter.mpr ⟨among, decide_eq_true rfl⟩
  rw [ties] at kept
  exact (List.mem_filter.mp kept).1

/-- By induction on the one list: the head of either list needs the least, so both heads are the
first of the commands that need as much. -/
private theorem eq_of_ties {first second : List (Command H)}
    (ascending : first.Pairwise fun a b => a.requiredCount ≤ b.requiredCount)
    (ascending' : second.Pairwise fun a b => a.requiredCount ≤ b.requiredCount)
    (ties : ∀ count, first.filter (·.requiredCount = count) =
      second.filter (·.requiredCount = count)) : first = second := by
  induction first generalizing second with
  | nil =>
    cases second with
    | nil => rfl
    | cons c rest => cases mem_of_ties (fun count => (ties count).symm) List.mem_cons_self
  | cons c rest ih =>
    cases second with
    | nil => cases mem_of_ties ties List.mem_cons_self
    | cons c' rest' =>
      have known : c' ∈ c :: rest := mem_of_ties (fun count => (ties count).symm) List.mem_cons_self
      have le : c.requiredCount ≤ c'.requiredCount := requiredCount_le_of_mem ascending known
      have ge : c'.requiredCount ≤ c.requiredCount :=
        requiredCount_le_of_mem ascending' (mem_of_ties ties List.mem_cons_self)
      have same : c'.requiredCount = c.requiredCount := Nat.le_antisymm ge le
      have heads := ties c.requiredCount
      simp only [List.filter_cons, same, decide_true, if_true] at heads
      obtain ⟨rfl, -⟩ := List.cons.inj heads
      congr 1
      refine ih ascending.of_cons ascending'.of_cons fun count => ?_
      have tails := ties count
      simp only [List.filter_cons] at tails
      split at tails
      · exact (List.cons.inj tails).2
      · exact tails

theorem InOrder.unique {first second : List (Command H)} (inOrder : r.InOrder name first)
    (inOrder' : r.InOrder name second) : first = second :=
  eq_of_ties inOrder.ascending inOrder'.ascending fun count =>
    (inOrder.ties count).trans (inOrder'.ties count).symm

/-- Sorting is stable: commands that need as much keep their order. -/
theorem inOrder_candidates (r : Registry H) (name : String) :
    r.InOrder name (r.candidates name) := by
  let noMore (a b : Command H) : Bool := a.requiredCount ≤ b.requiredCount
  have trans (a b c : Command H) (ab : noMore a b) (bc : noMore b c) : noMore a c :=
    decide_eq_true (Nat.le_trans (of_decide_eq_true ab) (of_decide_eq_true bc))
  have total (a b : Command H) : (noMore a b || noMore b a) = true := by
    simpa [noMore] using Nat.le_total a.requiredCount b.requiredCount
  constructor
  · exact (List.pairwise_mergeSort trans total _).imp of_decide_eq_true
  · intro count
    let known := r.commands.filter fun c => r.sameName c.name name
    have level : (known.filter (·.requiredCount = count)).Pairwise (noMore · ·) := by
      refine List.pairwise_of_forall_mem_list fun a inA b inB => ?_
      have needsA := of_decide_eq_true (List.mem_filter.mp inA).2
      have needsB := of_decide_eq_true (List.mem_filter.mp inB).2
      exact decide_eq_true (Nat.le_of_eq (needsA.trans needsB.symm))
    have kept := (List.sublist_mergeSort trans total level List.filter_sublist).filter
      (·.requiredCount = count)
    simp only [List.filter_filter, Bool.and_self] at kept
    exact (kept.eq_of_length ((List.mergeSort_perm known noMore).filter _).length_eq.symm).symm

end Registry

end LineConsole
