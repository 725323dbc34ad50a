import Kix.Command.Options
import Kix.Command.Script
import Kix.Session
import Kix.Syntax.Render
import Kix.Text.Blank
import Kix.Token.Dump

/-!
# Running the command

What the command does with its options: list the tokens of a script, run a
script, or prompt for lines and run each of them. All of it is a function of
the bytes of the script and of the lines that are entered, and its result is an
exit status and what stands on the two output streams.
-/

namespace Kix

/-- How the command ends: its exit status and what it wrote. -/
structure CommandResult where
  status : Nat
  out : Sink := {}
  err : Sink := {}

namespace Session

/-- Writing to the output of the session itself. -/
def say (s : Session) (text : String) : Session :=
  { s with machine.out := s.machine.out.put text }

/-- **Running a unit for the command**: compile it, show its tree if asked to,
and execute it. -/
def runUnit? (s : Session) (steps : Nat) (printTree : Bool) (source : String) :
    Option Session :=
  match s.compile source with
  | (none, s) => some s
  | (some program, s) =>
    (if printTree then s.say (renderProgram program ++ "\n") else s).execute? steps program

/-- What stands on the two streams, and the session with both of them empty. -/
def drain (s : Session) : (ByteArray × ByteArray) × Session :=
  ((s.machine.out.written, s.err.written),
    { s with machine.out.written := .empty, err.written := .empty })

/-- The prompt. -/
def prompt (s : Session) : Session := s.say "> "

/-- **One line at the prompt.** A blank line does nothing, and static reports
do not outlive the line. -/
def enter? (s : Session) (steps : Nat) (printTree : Bool) (line : String) : Option Session :=
  let input := Text.trim line
  if input.isEmpty then some s else (s.runUnit? steps printTree input).map Session.reset

end Session

namespace Command

/-- A session for the given options, with the readings of its clock. -/
def openSession (o : Options) (clock : Nat → Nat) : Session :=
  { policy := o.policy, machine := { clock } }

/-- **Listing tokens.** Text that is no token is reported, and makes the status
that of a static error. -/
def dumpTokens (source : String) : CommandResult :=
  let items := scan source
  let faults := items.filterMap Item.fault?
  { status := if faults.isEmpty then 0 else 65
    out := (items.filterMap Item.token?).foldl (fun s t => s.put (t.dump ++ "\n")) {}
    err := faults.foldl (fun s r => s.put (r.render ++ "\n")) {} }

/-- **Running a script.** -/
def runScript? (o : Options) (steps : Nat) (clock : Nat → Nat) (source : String) :
    Option CommandResult :=
  ((openSession o clock).runUnit? steps o.printTree source).map fun s =>
    { status := s.exitCode, out := s.machine.out, err := s.err }

/-- What is written when a line at the prompt is not text. -/
def badLine : String := "Error: stream did not contain valid UTF-8\n"

/-- **Prompting for lines** up to the end of the input. A line that is not text
ends the command at once. -/
def prompt? (printTree : Bool) (steps : Nat) (s : Session) :
    List ByteArray → Option CommandResult
  | [] =>
    let s := s.prompt
    some { status := 0, out := s.machine.out, err := s.err }
  | line :: rest =>
    let s := s.prompt
    match Utf8.decode line with
    | .error _ => some { status := 1, out := s.machine.out, err := s.err.put badLine }
    | .ok text =>
      match s.enter? steps printTree text with
      | some s => prompt? printTree steps s rest
      | none => none

/-- Bytes cut into lines, each with its line end. -/
def splitLines : List UInt8 → List (List UInt8)
  | [] => []
  | b :: rest =>
    if b = 10 then [b] :: splitLines rest
    else
      match splitLines rest with
      | [] => [[b]]
      | line :: others => (b :: line) :: others

/-- **The whole command**, given the contents of the script it names and what
is entered at the prompt. No result means that the steps did not suffice. -/
def run? (o : Options) (steps : Nat) (clock : Nat → Nat)
    (contents : String → Except ScriptFault ByteArray) (input : ByteArray) :
    Option CommandResult :=
  match o.script with
  | none =>
    prompt? o.printTree steps (openSession o clock)
      ((splitLines input.toList).map fun line => ⟨line.toArray⟩)
  | some path =>
    match scriptText (contents path) with
    | .error fault => some { status := 1, err := Sink.put {} (fault.render path) }
    | .ok source =>
      if o.dumpTokens then some (dumpTokens source) else runScript? o steps clock source

end Command

end Kix
