import LineConsole.Command.Registry
import Mathlib.Data.List.Induction
import Mathlib.Data.List.Perm.Basic

/-! # Each name once

Names that match stand for the same commands. The names of a registry are one for each group of
matching names that has a command, in the spelling of the command that was registered first, and the
commands that these names stand for are all commands, each of them once.
-/

namespace LineConsole

section Grouping

variable {α κ : Type} {has : κ → α → Bool} {keys : List κ}

private theorem flatMap_filter_singleton (has : κ → α → Bool) (keys : List κ) (x : α) :
    (keys.flatMap fun key => [x].filter (has key)) = (keys.filter (has · x)).map fun _ => x := by
  induction keys with
  | nil => rfl
  | cons key rest ih =>
    rw [List.flatMap_cons, ih, List.filter_cons, List.filter_cons]
    cases has key x <;> rfl

/-- Elements that have one key each are those of all keys together. -/
theorem flatMap_filter_perm {xs : List α}
    (once : ∀ x ∈ xs, ∃ key, keys.filter (has · x) = [key]) :
    (keys.flatMap fun key => xs.filter (has key)).Perm xs := by
  induction xs with
  | nil => exact .of_eq (List.flatMap_eq_nil_iff.mpr fun _ _ => rfl)
  | cons x xs ih =>
    obtain ⟨⟨key, only⟩, others⟩ := List.forall_mem_cons.mp once
    have alone : (keys.flatMap fun key => [x].filter (has key)) = [x] := by
      rw [flatMap_filter_singleton, only]
      rfl
    have apart : (fun key => (x :: xs).filter (has key)) =
        fun key => [x].filter (has key) ++ xs.filter (has key) :=
      funext fun _ => List.filter_append [x] xs
    rw [apart]
    refine (List.flatMap_append_perm keys _ _).symm.trans ?_
    rw [alone]
    exact (ih others).cons x

end Grouping

namespace Registry

variable {H : Type} {r : Registry H} {d : Command H} {x y : String}

/-! ## Matching -/

/-- What counts of a name. -/
def folded (r : Registry H) (name : String) : List Char :=
  if r.caseSensitive then name.toList else name.toList.map Char.toLower

theorem sameName_iff : r.sameName x y = true ↔ r.folded x = r.folded y := by
  unfold sameName folded
  split
  · rw [beq_iff_eq, String.toList_inj]
  · exact beq_iff_eq

/-- Names that match each other match the same names. -/
theorem sameName_congr (same : r.sameName x y = true) (name : String) :
    r.sameName name x = r.sameName name y := by
  rw [Bool.eq_iff_iff, sameName_iff, sameName_iff, sameName_iff.mp same]

theorem candidates_congr (same : r.sameName x y = true) : r.candidates x = r.candidates y := by
  simp only [candidates, sameName_congr same]

/-! ## Registrations -/

/-- A registry comes from registrations. -/
theorem ofRegistrations {motive : Registry H → Prop} (r : Registry H)
    (empty : ∀ caseSensitive, motive (.empty caseSensitive))
    (register : ∀ r d, motive r → motive (r.register d)) : motive r := by
  obtain ⟨commands, caseSensitive⟩ := r
  induction commands using List.reverseRecOn with
  | nil => exact empty caseSensitive
  | append_singleton commands d ih => exact register ⟨commands, caseSensitive⟩ d ih

theorem foldl_register (r : Registry H) (commands : List (Command H)) :
    commands.foldl register r = { r with commands := r.commands ++ commands } := by
  induction commands generalizing r with
  | nil => rw [List.foldl_nil, List.append_nil]
  | cons d rest ih =>
    rw [List.foldl_cons, ih, register, List.append_assoc]
    rfl

theorem names_register (r : Registry H) (d : Command H) : (r.register d).names =
    if r.names.any (r.sameName · d.name) then r.names else r.names ++ [d.name] := by
  change (r.commands ++ [d]).foldl _ [] = _
  rw [List.foldl_append]
  rfl

/-- A name matches one of the names just if it matches a command's. -/
theorem any_names (r : Registry H) (name : String) :
    r.names.any (r.sameName · name) = r.commands.any fun c => r.sameName c.name name := by
  induction r using ofRegistrations generalizing name with
  | empty caseSensitive => rfl
  | register r d ih =>
    have registered : (r.register d).commands.any
          (fun c => (r.register d).sameName c.name name) =
        (r.names.any (r.sameName · name) || r.sameName d.name name) := by
      change (r.commands ++ [d]).any (fun c => r.sameName c.name name) = _
      rw [List.any_append, ← ih, List.any_cons, List.any_nil, Bool.or_false]
    rw [registered, names_register]
    split
    · rename_i known
      cases matched : r.sameName d.name name with
      | false => exact (Bool.or_false _).symm
      | true =>
        rw [Bool.or_true]
        change r.names.any (r.sameName · name) = true
        simpa only [sameName_congr matched] using known
    · change (r.names ++ [d.name]).any (r.sameName · name) = _
      rw [List.any_append, List.any_cons, List.any_nil, Bool.or_false]

theorem pairwise_names (r : Registry H) :
    r.names.Pairwise fun x y => r.sameName x y = false := by
  induction r using ofRegistrations with
  | empty caseSensitive => exact .nil
  | register r d ih =>
    rw [names_register]
    split
    · exact ih
    · rename_i new
      refine List.pairwise_append.mpr ⟨ih, List.pairwise_singleton _ _, fun x known y only => ?_⟩
      obtain rfl := List.mem_singleton.mp only
      exact Bool.eq_false_iff.mpr fun same => new (List.any_eq_true.mpr ⟨x, known, same⟩)

/-- The commands that match none registered before them. -/
def founders (r : Registry H) : List (Command H) :=
  (r.commands.zipIdx.filter fun (c, i) =>
    !(r.commands.take i).any fun earlier => r.sameName earlier.name c.name).map Prod.fst

theorem founders_register (r : Registry H) (d : Command H) : (r.register d).founders =
    if r.commands.any (fun c => r.sameName c.name d.name) then r.founders
    else r.founders ++ [d] := by
  have earlier : (r.commands.zipIdx.filter fun (c, i) =>
        !((r.commands ++ [d]).take i).any fun earlier => r.sameName earlier.name c.name) =
      r.commands.zipIdx.filter fun (c, i) =>
        !(r.commands.take i).any fun earlier => r.sameName earlier.name c.name := by
    refine List.filter_congr fun (c, i) listed => ?_
    have inside : i < r.commands.length := (List.mem_zipIdx' listed).1
    dsimp only
    rw [List.take_append_of_le_length (Nat.le_of_lt inside)]
  change ((r.commands ++ [d]).zipIdx.filter fun (c, i) =>
    !((r.commands ++ [d]).take i).any fun earlier => r.sameName earlier.name c.name).map _ = _
  rw [List.zipIdx_append, List.filter_append, earlier, List.zipIdx_singleton, List.filter_cons]
  simp only [Nat.zero_add, List.take_left]
  cases r.commands.any fun c => r.sameName c.name d.name <;> simp [founders]

/-- The names are those of the commands that were the first to be registered under theirs. -/
theorem names_eq (r : Registry H) : r.names = r.founders.map (·.name) := by
  induction r using ofRegistrations with
  | empty caseSensitive => rfl
  | register r d ih =>
    rw [names_register, founders_register, any_names]
    split
    · exact ih
    · rw [ih, List.map_append]
      rfl

/-! ## Groups -/

/-- A command is a candidate for one of the names: two that it matches would match each other. -/
theorem exists_filter_names {c : Command H} (known : c ∈ r.commands) :
    ∃ name, r.names.filter (r.sameName c.name ·) = [name] := by
  have matched : r.names.any (r.sameName · c.name) = true := by
    rw [any_names]
    exact List.any_eq_true.mpr ⟨c, known, r.sameName_refl c.name⟩
  obtain ⟨name, among, same⟩ := List.any_eq_true.mp matched
  rw [sameName_comm] at same
  have kept : name ∈ r.names.filter (r.sameName c.name ·) := List.mem_filter.mpr ⟨among, same⟩
  have apart := r.pairwise_names.filter (r.sameName c.name ·)
  rcases found : r.names.filter (r.sameName c.name ·) with _ | ⟨first, _ | ⟨second, others⟩⟩
  · rw [found] at kept
    cases kept
  · exact ⟨first, rfl⟩
  · have first' : r.sameName c.name first = true :=
      (List.mem_filter.mp (found ▸ List.mem_cons_self)).2
    have second' : r.sameName c.name second = true :=
      (List.mem_filter.mp (found ▸ List.mem_cons_of_mem _ List.mem_cons_self)).2
    rw [found] at apart
    have other := List.rel_of_pairwise_cons apart List.mem_cons_self
    rw [← sameName_congr second', sameName_comm, first'] at other
    cases other

theorem existsUnique_candidates {c : Command H} (known : c ∈ r.commands) :
    ∃! name, name ∈ r.names ∧ c ∈ r.candidates name := by
  obtain ⟨name, only⟩ := exists_filter_names known
  have stands (other : String) : other ∈ r.names ∧ c ∈ r.candidates other ↔ other = name := by
    rw [mem_candidates, and_iff_right known]
    exact List.mem_filter.symm.trans (only ▸ List.mem_singleton)
  exact ⟨name, (stands name).mpr rfl, fun other => (stands other).mp⟩

/-- The candidates for the names are all commands, each as often as it was registered. -/
theorem flatMap_candidates_perm (r : Registry H) :
    (r.names.flatMap r.candidates).Perm r.commands := by
  have unsorted : (r.names.flatMap r.candidates).Perm
      (r.names.flatMap fun name => r.commands.filter fun c => r.sameName c.name name) :=
    List.Perm.flatMap_left _ fun _ _ => List.mergeSort_perm _ _
  exact unsorted.trans (flatMap_filter_perm fun c => exists_filter_names)

end Registry

end LineConsole
