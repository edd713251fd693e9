import LineConsole.Proofs.Command.Names
import LineConsole.Shell.Builtin

/-! # The overview of commands

Without a name the help command shows a heading and one row for each name of the registry. The names
are one for each group of commands, so every command is behind one row.
-/

namespace LineConsole

variable {H : Type}

namespace Builtin

/-- The first description that a command of the name has. -/
def descriptionOf (r : Registry (Handler H)) (name : String) : String :=
  (((r.candidates name).map (·.description)).find? (!·.isEmpty)).getD ""

/-- The row of a name: the name, filled up to the longest, and the description. -/
def overviewRow (r : Registry (Handler H)) (name : String) : List Piece :=
  let width := (r.names.map (·.utf8ByteSize)).foldl max 0
  [⟨"  " ++ Decimal.paddedRight width name, .command⟩, ⟨"  " ++ descriptionOf r name, .plain⟩,
    ⟨"\n", .plain⟩]

/-- By induction on the rows. -/
private theorem output_foldl_rows (width : Nat) (rows : List (String × String)) (sh : Shell H) :
    (rows.foldl (fun sh (name, description) =>
        (sh.write ("  " ++ Decimal.paddedRight width name) .command).writeLine
          ("  " ++ description) .plain) sh).output =
      sh.output ++ rows.flatMap fun (name, description) =>
        [⟨"  " ++ Decimal.paddedRight width name, .command⟩, ⟨"  " ++ description, .plain⟩,
          ⟨"\n", .plain⟩] := by
  induction rows generalizing sh with
  | nil => rw [List.foldl_nil, List.flatMap_nil, List.append_nil]
  | cons row rest ih =>
    rw [List.foldl_cons, ih, List.flatMap_cons, ← List.append_assoc]
    congr 1
    simp [Shell.write, Shell.writeLine, Transcript.write, Transcript.writeLine]

theorem output_showOverview (sh : Shell H) :
    (showOverview sh).output = sh.output ++ [⟨"Commands:", .info⟩, ⟨"\n", .plain⟩] ++
      sh.registry.names.flatMap (overviewRow sh.registry) := by
  have heading : (sh.writeLine "Commands:" .info).output =
      sh.output ++ [⟨"Commands:", .info⟩, ⟨"\n", .plain⟩] := List.append_assoc ..
  rw [← heading]
  refine (output_foldl_rows _ _ _).trans ?_
  simp only [overview, List.flatMap_map, List.map_map]
  rfl

end Builtin

/-- Commands that are registered one after the other. Those that the names stand for are all of them,
each once: every command is behind one name. The names are the ones of the commands that match none
registered earlier, in the order of registration, and no two of them match. Names that match stand for
the same commands. So the overview, which has one row for each name, shows each group of commands
once. -/
theorem overview_shows_each_group_once (caseSensitive : Bool)
    (commands : List (Command (Handler H))) :
    let r := commands.foldl Registry.register (Registry.empty caseSensitive)
    (r.names.flatMap r.candidates).Perm commands ∧
    (∀ c ∈ commands, ∃! name, name ∈ r.names ∧ c ∈ r.candidates name) ∧
    r.names = ((commands.zipIdx.filter fun (c, i) =>
      !(commands.take i).any fun earlier => r.sameName earlier.name c.name).map (·.1.name)) ∧
    r.names.Pairwise (fun x y => r.sameName x y = false) ∧
    (∀ x y, r.sameName x y = true → r.candidates x = r.candidates y) ∧
    ∀ (runner : Runner H) (sh : Shell H) (arguments : Arguments), sh.registry = r →
      arguments.str? "command" = none →
      ∃ after, (Builtin.help.program arguments).run runner sh = some (after, .done) ∧
        after.output = sh.output ++ [⟨"Commands:", .info⟩, ⟨"\n", .plain⟩] ++
          r.names.flatMap (Builtin.overviewRow r) := by
  intro r
  have all : r.commands = commands :=
    congrArg Registry.commands (Registry.foldl_register (.empty caseSensitive) commands)
  refine ⟨all ▸ r.flatMap_candidates_perm, fun c known => ?_, ?_, r.pairwise_names,
    fun x y => Registry.candidates_congr, fun runner sh arguments registered unnamed => ?_⟩
  · exact Registry.existsUnique_candidates (all.symm ▸ known)
  · rw [r.names_eq, Registry.founders, all, List.map_map]
    rfl
  · have shows : Builtin.help.program arguments = Builtin.doing (Builtin.showOverview (H := H)) := by
      simp only [Builtin.program, Builtin.helpProgram, unnamed]
    rw [shows, ← registered]
    exact ⟨sh.changedBy Builtin.showOverview, rfl, Builtin.output_showOverview sh.quiet⟩

end LineConsole
