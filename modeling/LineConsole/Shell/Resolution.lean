import LineConsole.Shell.Variables

/-! # From a line to a command

A line names a command and gives it an argument text. Of the commands that the name stands for, the
first wins that takes the count of arguments and to whose types they all convert. What happens up to
that point runs no handler.
-/

namespace LineConsole

/-- The first word of a trimmed line and the trimmed rest. -/
def splitCommand (line : List Char) : List Char × List Char :=
  (line.takeWhile (!Text.isBlank ·), Text.trim (line.dropWhile (!Text.isBlank ·)))

section SplitCommand

variable {cs name : List Char}

theorem inked_of_mem_splitCommand {c : Char} (within : c ∈ (splitCommand cs).1) :
    Text.isBlank c = false := by
  have inked : (!Text.isBlank c) = true := List.all_eq_true.mp List.all_takeWhile c within
  simpa using inked

theorem splitCommand_append (word : ∀ c ∈ name, Text.isBlank c = false) (cs : List Char) :
    splitCommand (name ++ cs) = (name ++ (splitCommand cs).1, (splitCommand cs).2) := by
  have inked : ∀ c ∈ name, (!Text.isBlank c) = true := fun c there => by rw [word c there]; rfl
  rw [splitCommand, List.takeWhile_append_of_pos inked, List.dropWhile_append_of_pos inked]
  rfl

theorem splitCommand_cons_blank {b : Char} (blank : Text.isBlank b = true) (cs : List Char) :
    splitCommand (b :: cs) = ([], Text.trim cs) := by
  have stops : (b :: cs).takeWhile (!Text.isBlank ·) = [] :=
    List.takeWhile_cons_of_neg (by simp [blank])
  have left : (b :: cs).dropWhile (!Text.isBlank ·) = b :: cs :=
    List.dropWhile_cons_of_neg (by simp [blank])
  rw [splitCommand, stops, left, Text.trim_cons_blank blank]

/-- In a trimmed line what follows the blank behind the first word is in its place, unless it begins
with a blank of its own. -/
theorem splitCommand_of_trim {line : List Char} {b : Char}
    (word : ∀ c ∈ name, Text.isBlank c = false) (blank : Text.isBlank b = true)
    (first : ∀ c ∈ cs.head?, Text.isBlank c = false) (whole : Text.trim line = name ++ b :: cs) :
    splitCommand (Text.trim line) = (name, cs) := by
  have last : ∀ c ∈ cs.getLast?, Text.isBlank c = false := by
    intro c last
    refine Text.trim_last_inked line c ?_
    rw [whole, Option.mem_def, List.getLast?_append, List.getLast?_cons, Option.mem_def.mp last]
    rfl
  rw [whole, splitCommand_append word, splitCommand_cons_blank blank, List.append_nil,
    Text.trim_of_inked first last]

end SplitCommand

/-- Converts raw arguments for the parameters in order; parameters left over are not supplied. -/
def convertArguments (table : Converters) : List Parameter → List String → Except Fault (List Value)
  | [], _ => .ok []
  | parameters, [] => .ok (parameters.map fun _ => .notSupplied)
  | parameter :: parameters, raw :: raws => do
    let value ← match table.convert raw parameter.type with
      | .ok value => .ok value
      | .error fault => .error (.notConvertible parameter.name fault.typeName fault.raw)
    let values ← convertArguments table parameters raws
    return value :: values

namespace Command

variable {H : Type}

/-- The arguments of a command for an argument text that falls into `tokens`. -/
def bind (c : Command H) (table : Converters) (tokens : List String) (text : String) :
    Except Fault Arguments :=
  if c.isSingleString then
    let value := match tokens with
      | [] => .notSupplied
      | [only] => .str only
      | _ => .str text
    .ok ⟨c.parameters, [value]⟩
  else (convertArguments table c.parameters tokens).map (⟨c.parameters, ·⟩)

end Command

/-- A candidate that takes the count of arguments, with what conversion came to. -/
structure Attempt (H : Type) where
  command : Command H
  result : Except Fault Arguments

namespace Attempt

variable {H : Type}

/-- Tries candidates in order up to the first success. -/
def all (table : Converters) (tokens : List String) (text : String) :
    List (Command H) → List (Attempt H)
  | [] => []
  | c :: rest =>
    let result := c.bind table tokens text
    ⟨c, result⟩ :: if result.isOk then [] else all table tokens text rest

/-- The command and the arguments of an attempt that succeeded. -/
def success? (a : Attempt H) : Option (Command H × Arguments) :=
  match a.result with
  | .ok arguments => some (a.command, arguments)
  | .error _ => none

def fault? (a : Attempt H) : Option Fault :=
  match a.result with
  | .ok _ => none
  | .error fault => some fault

def records (a : Attempt H) : List LogRecord :=
  .tryingCandidate a.command.usage :: (a.fault?.map LogRecord.candidateRejected).toList

/-- Only candidates are tried, each with what its own parameters make of the arguments. -/
theorem mem_all {table : Converters} {tokens : List String} {text : String}
    {commands : List (Command H)} {a : Attempt H} (tried : a ∈ all table tokens text commands) :
    a.command ∈ commands ∧ a.result = a.command.bind table tokens text := by
  induction commands with
  | nil => cases tried
  | cons c rest ih =>
    rw [all, List.mem_cons] at tried
    rcases tried with rfl | later
    · exact ⟨List.mem_cons_self, rfl⟩
    · split at later
      · cases later
      · obtain ⟨known, result⟩ := ih later
        exact ⟨List.mem_cons_of_mem c known, result⟩

/-- An attempt is noted, and so is what was wrong with it. -/
theorem eq_of_mem_records {a : Attempt H} {record : LogRecord} (noted : record ∈ a.records) :
    (∃ usage, record = .tryingCandidate usage) ∨ ∃ fault, record = .candidateRejected fault := by
  rw [records, List.mem_cons, Option.mem_toList] at noted
  rcases noted with rfl | rejected
  · exact .inl ⟨_, rfl⟩
  · obtain ⟨fault, -, rfl⟩ := Option.map_eq_some_iff.mp rejected
    exact .inr ⟨fault, rfl⟩

end Attempt

/-- What a line comes to without running a handler. -/
inductive Verdict (H : Type) where
  | settled (result : Except Fault Unit)
  | call (command : Command (Handler H)) (arguments : Arguments)

namespace Shell

variable {H : Type}

/-- Chooses among candidates: the first success, else the first fault. -/
def choose (sh : Shell H) (candidates : List (Command (Handler H))) (tokens : List String)
    (text : String) : Shell H × Verdict H :=
  let attempts := Attempt.all sh.converters tokens text
    (candidates.filter (·.accepts tokens.length))
  let verdict : Verdict H :=
    match attempts.findSome? Attempt.success?, attempts.findSome? Attempt.fault?, candidates with
    | some (command, arguments), _, _ => .call command arguments
    | none, some fault, _ => .settled (.error fault)
    | none, none, [] => .settled (.error (.countMismatch "" tokens.length))
    | none, none, c :: _ => .settled (.error (.countMismatch c.name tokens.length))
  (sh.noteAll (attempts.flatMap Attempt.records), verdict)

/-- The argument text with variables replaced, if they have a meaning. -/
def argumentText (sh : Shell H) (rest : List Char) : String :=
  if sh.usesVariables then String.ofList (ArgumentText.expand sh.environment rest)
  else String.ofList rest

/-- Finds the command that a name and an argument text stand for. A count of arguments that no
candidate takes shows how each is used. -/
def resolve (sh : Shell H) (name : String) (text : String) : Shell H × Verdict H :=
  match ArgumentText.tokens text with
  | .error fault => (sh, .settled (.error fault))
  | .ok tokens =>
    let candidates := sh.registry.candidates name
    if candidates.isEmpty then (sh, .settled (.error (.commandNotFound name)))
    else if candidates.any (·.accepts tokens.length) then sh.choose candidates tokens text
    else
      (candidates.foldl (fun sh c => sh.writeLine c.usage .usage)
        (sh.note (.noOverload name tokens.length)), .settled (.ok ()))

/-- All that a line does before a handler runs. A line that is not blank enters the history. -/
def prepare (sh : Shell H) (line : String) : Shell H × Verdict H :=
  let line := Text.trim line.toList
  if line = [] then (sh, .settled (.ok ()))
  else
    let sh := sh.addHistory (String.ofList line)
    let (name, rest) := splitCommand line
    match name with
    | '$' :: word =>
      let (sh, result) := sh.executeVariableLine word rest
      (sh, .settled result)
    | name => sh.resolve (String.ofList name) (sh.argumentText rest)

section Lines

variable {sh : Shell H} {line : String}

/-- A line that names a command comes to what the name and the argument text stand for. -/
theorem prepare_of_named {c : Char} {word rest : List Char}
    (named : splitCommand (Text.trim line.toList) = (c :: word, rest)) (plain : c ≠ '$') :
    sh.prepare line = (sh.addHistory (Text.trimmed line)).resolve (String.ofList (c :: word))
      (sh.argumentText rest) := by
  have full : Text.trim line.toList ≠ [] := by
    intro none
    rw [none] at named
    cases named
  simp only [prepare, if_neg full, named]
  split
  · rename_i same
    exact absurd (List.cons.inj same).1 plain
  · rfl

/-- A line whose first word begins with a dollar sign is about a variable. -/
theorem prepare_of_dollar {word rest : List Char}
    (named : splitCommand (Text.trim line.toList) = ('$' :: word, rest)) :
    sh.prepare line = (((sh.addHistory (Text.trimmed line)).executeVariableLine word rest).1,
      .settled ((sh.addHistory (Text.trimmed line)).executeVariableLine word rest).2) := by
  have full : Text.trim line.toList ≠ [] := by
    intro none
    rw [none] at named
    cases named
  simp only [prepare, if_neg full, named]
  rfl

end Lines

end Shell

end LineConsole
