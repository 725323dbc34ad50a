import Kix.Evaluation
import Kix.Scope.Resolution
import Kix.Syntax.StatementGrammar
import Kix.Token.Source

/-!
# Sessions

A session runs **units** of source text one after the other. A script is one
unit; at a prompt each line is one. Global variables, the addresses of the
functions defined so far and the numbering of occurrences carry over from unit
to unit, and reports are written to an error stream as they are made.

Compiling a unit scans, reads and resolves it. It succeeds when there was no
static report; a static report also keeps later units from being compiled until
the session is told to forget it.
-/

namespace Kix

structure Session where
  policy : Policy := {}
  machine : Machine := {}
  log : ReportLog := {}
  /-- The number of the next occurrence of a name. -/
  nextId : OccurrenceId := 0
  err : Sink := {}

namespace Session

/-- A session that writes to the given streams. -/
def withStreams (policy : Policy) (out err : Sink) : Session :=
  { policy, machine := .withOutput out, err }

/-- Writing the pending reports to the error stream, a line end behind each. A
stream that does not take them is not complained about: there is nowhere left
to complain. -/
def flush (s : Session) : Session :=
  let (reports, log) := s.log.drain
  { s with log, err := reports.foldl (fun err r => err.put (r.render ++ "\n")) s.err }

/-- **Compiling a unit.** The result is its program, unless there was a static
report. -/
def compile (s : Session) (source : String) : Option Program × Session :=
  let found := scan source
  let parsed := parse (found.filterMap Item.token?) s.nextId
  let read : Session :=
    { s with
      nextId := parsed.nextId
      log := s.log.addAll (found.filterMap Item.fault? ++ parsed.reports) }
  if read.log.hadError then (none, read.flush)
  else
    let resolved := resolve s.policy parsed.program
    let checked := { read with log := read.log.addAll resolved.reports }.flush
    if checked.log.hadError then (none, checked)
    else
      (some parsed.program, { checked with machine := checked.machine.extend resolved.entries })

/-- **Executing a compiled unit**, if the given number of steps suffices. -/
def execute? (s : Session) (steps : Nat) (program : Program) : Option Session :=
  (s.machine.run? steps program).map fun (report, machine) =>
    { s with machine, log := s.log.addAll report.toList }.flush

/-- Compiling a unit and, if that succeeded, executing it. -/
def run? (s : Session) (steps : Nat) (source : String) : Option Session :=
  match s.compile source with
  | (some program, s) => s.execute? steps program
  | (none, s) => some s

/-- Forgetting that there were static reports. -/
def reset (s : Session) : Session := { s with log := s.log.reset }

/-- The exit status, as the reports so far determine it. -/
def exitCode (s : Session) : Nat := s.log.exitCode

end Session

end Kix
