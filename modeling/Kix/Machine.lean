import Kix.Report
import Kix.Scope.Address
import Kix.Sink
import Kix.Value

/-!
# The machine

The state that running programs share: the global variables by name, the
frames, which of them is current, the addresses of local occurrences, and the
output stream. Evaluation (`Kix.Evaluation`) changes it and either yields a
result or **halts**: with the report of a fault, or because it was given too
few steps to find out.
-/

namespace Kix

structure Machine where
  globals : Std.HashMap String Value := .ofList (Native.all.map fun n => (n.name, .native n))
  store : Store Value := {}
  /-- The innermost frame, or none in the global scope. -/
  current : Option FrameRef := none
  addresses : AddressTable := {}
  /-- The identity of the next closure. -/
  nextClosure : Nat := 0
  out : Sink := {}
  /-- What the clock shows at each reading, in milliseconds. -/
  clock : Nat → Nat := fun _ => 0
  /-- How many times the clock was read. -/
  readings : Nat := 0

/-- Why an evaluation does not yield a result. -/
inductive Halt where
  | fault (report : Report)
  /-- The steps it was given did not suffice. -/
  | exhausted

/-- An evaluation: it reads and changes the machine, and yields a result or
halts. -/
abbrev Eval (α : Type) := EStateM Halt Machine α

namespace Machine

/-- A machine that writes to the given sink. -/
def withOutput (out : Sink) : Machine := { out }

/-- Adding the addresses of another program. -/
def extend (m : Machine) (entries : List (OccurrenceId × Address)) : Machine :=
  { m with addresses := m.addresses.extend entries }

/-- The value of a global variable. -/
def global? (m : Machine) (name : String) : Option Value := m.globals[name]?

end Machine

namespace Eval

/-- Halting with a report. -/
def fault {α : Type} (report : Report) : Eval α := throw (.fault report)

/-- A runtime fault at a token. -/
def faultAt {α : Type} (t : Token) (problem : Problem) : Eval α :=
  fault (.runtime t.line problem)

/-- **Writing to the output**; a failing write is turned into a report of its
reason. -/
def write (text : String) (report : String → Report) : Eval Unit := fun m =>
  if m.out.fits text then .ok () { m with out := m.out.put text }
  else .error (.fault (report m.out.writeFault)) { m with out := m.out.put text }

/-- Reading the clock. -/
def readClock : Eval Nat := fun m =>
  .ok (m.clock m.readings) { m with readings := m.readings + 1 }

/-- **A new variable in the current scope.** Frames take it as their next slot,
the global scope by its name. -/
def define (name : Token) (value : Value) : Eval Unit := fun m =>
  match m.current with
  | some f => .ok () { m with store := m.store.define f value }
  | none => .ok () { m with globals := m.globals.insert name.lexeme value }

/-- **Reading a variable**: at its address if it has one, else as a global. -/
def lookup (id : OccurrenceId) (name : Token) : Eval Value := fun m =>
  match m.addresses[id]? with
  | some a =>
    match m.current.bind (m.store.getAt? · a.distance a.slot) with
    | some value => .ok value m
    | none => .error (.fault (.runtime name.line (.missingLocal name.lexeme))) m
  | none =>
    match m.globals[name.lexeme]? with
    | some value => .ok value m
    | none => .error (.fault (.runtime name.line (.undefinedGlobal name.lexeme))) m

/-- **Assigning a variable**: at its address if it has one, else as a global
that has to exist. -/
def assign (id : OccurrenceId) (name : Token) (value : Value) : Eval Unit := fun m =>
  match m.addresses[id]? with
  | some a =>
    match m.current.bind (m.store.frameAt? · a.distance a.slot) with
    | some f => .ok () { m with store := m.store.set f a.slot value }
    | none => .error (.fault (.runtime name.line (.missingLocal name.lexeme))) m
  | none =>
    if m.globals.contains name.lexeme then
      .ok () { m with globals := m.globals.insert name.lexeme value }
    else .error (.fault (.runtime name.line (.undefinedGlobal name.lexeme))) m

/-- The current frame. -/
def currentFrame : Eval (Option FrameRef) := fun m => .ok m.current m

/-- A new closure over the current frame. -/
def close (name : Token) (params : List Token) (body : List Stmt) : Eval Value := fun m =>
  .ok (.closure { id := m.nextClosure, name := name.lexeme, params, body, scope := m.current })
    { m with nextClosure := m.nextClosure + 1 }

/-- **Running in a frame of its own**, made for the purpose. However it ends,
the frame that was current before is current again. -/
@[inline] def within {α : Type} (frame : Frame Value) (run : Eval α) : Eval α := fun m =>
  let saved := m.current
  let f := m.store.next
  match run { m with store := m.store.allocate frame, current := some f } with
  | .ok a m => .ok a { m with current := saved }
  | .error e m => .error e { m with current := saved }

end Eval

end Kix
