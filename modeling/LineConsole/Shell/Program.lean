import LineConsole.Shell.Basic

/-! # What handlers do

A handler is a program over its shell: it looks at the shell, changes it, has lines and scripts
executed, and ends in an outcome. What was noted is for those who watch the shell, so a handler can
add to it and does not see it. A program says what to do; a runner gives the meaning of the lines and
scripts in it.
-/

namespace LineConsole

/-- How a handler ends. -/
inductive Outcome where
  | done
  | failed (message : String)
  /-- The handler asks to leave with this code. -/
  | exit (code : Int32)
  /-- The handler broke off, perhaps with a reason. -/
  | crashed (reason : Option String)
  deriving DecidableEq, Repr

namespace Outcome

/-- A fault in a handler is its failure; a request to leave is passed on. -/
def ofFault : Fault → Outcome
  | .exit code => .exit code
  | fault => .failed fault.text

def ofResult : Except Fault Unit → Outcome
  | .ok _ => .done
  | .error fault => ofFault fault

end Outcome

inductive Program (H : Type) where
  | finish (outcome : Outcome)
  | inspect (next : Shell H → Program H)
  | update (change : Shell H → Shell H) (next : Program H)
  | line (text : String) (next : Except Fault Unit → Program H)
  | script (path : String) (next : Except Fault Unit → Program H)

/-- What executing a line or a script leads to; nothing if handlers nest too deep. -/
abbrev Execution (H : Type) := Option (Shell H × Except Fault Unit)

/-- The meaning of lines and scripts. -/
structure Runner (H : Type) where
  line : Shell H → String → Execution H
  script : Shell H → String → Execution H

namespace Program

variable {H : Type}

def run (runner : Runner H) : Program H → Shell H → Option (Shell H × Outcome)
  | .finish outcome, sh => some (sh, outcome)
  | .inspect next, sh => (next sh.quiet).run runner sh
  | .update change next, sh => next.run runner (sh.changedBy change)
  | .line text next, sh =>
    match runner.line sh text with
    | none => none
    | some (sh, result) => (next result).run runner sh
  | .script path next, sh =>
    match runner.script sh path with
    | none => none
    | some (sh, result) => (next result).run runner sh

/-- Goes on if a line or a script succeeded. -/
def onSuccess (next : Program H) : Except Fault Unit → Program H
  | .ok _ => next
  | .error fault => .finish (.ofFault fault)

end Program

/-- How the handlers of a host behave. -/
abbrev Host (H : Type) := H → Arguments → Program H

end LineConsole
