import Kix.Evaluation

/-!
# Evaluation by name

A second evaluator, which knows nothing of addresses and frames. A variable
lives in a **cell**. The **environment** is a list of names with their cells,
which is never changed: a block or a call goes on with a longer list, and a
closure keeps the list that was current when its declaration was executed. A
name means the first cell in the list that carries it, and a global variable if
there is none.

A local variable is in the environment of its own initializer already, with a
cell that is empty until the initializer has been evaluated. Touching an empty
cell is a fault.

Operators, output, the clock and the order of evaluation are those of
`Kix.Evaluation`; the two differ in how they find variables, and in nothing
else.
-/

namespace Kix

namespace Lexical

/-- The name of a cell: its place among all cells, in the order of creation. -/
abbrev CellRef := Nat

/-- The names that can be seen from a place and their cells, the innermost
first. -/
abbrev Env := List (String × CellRef)

/-- A function together with the environment in which its declaration was
executed, its own name included. -/
structure Closure where
  id : Nat
  name : String
  params : List Token
  body : List Stmt
  env : Env

/-- **Values**, where a closure holds an environment instead of a frame. -/
inductive Value where
  | nil
  | bool (value : Bool)
  | number (value : Float)
  | string (value : String)
  | closure (value : Closure)
  | native (value : Native)

namespace Value

/-- What operators, calls and output see of a value: all but the environment of
a closure. -/
def face : Value → Kix.Value
  | nil => .nil
  | bool b => .bool b
  | number x => .number x
  | string s => .string s
  | closure c =>
    .closure { id := c.id, name := c.name, params := c.params, body := c.body, scope := none }
  | native n => .native n

/-- The value that shows a given face. Operators never make closures. -/
def ofFace : Kix.Value → Value
  | .nil => nil
  | .bool b => bool b
  | .number x => number x
  | .string s => string s
  | .closure c =>
    closure { id := c.id, name := c.name, params := c.params, body := c.body, env := [] }
  | .native n => native n

end Value

/-- The state that evaluation by name changes. -/
structure Machine where
  globals : Std.HashMap String Value := .ofList (Native.all.map fun n => (n.name, .native n))
  /-- All cells made so far; an empty one waits for its initializer. -/
  cells : Array (Option Value) := #[]
  nextClosure : Nat := 0
  out : Sink := {}
  clock : Nat → Nat := fun _ => 0
  readings : Nat := 0

abbrev Eval (α : Type) := EStateM Halt Machine α

/-- How executing a statement ends: with the scope in which the next statement
is executed – none is the global scope – or with a `return` on its way to the
call. -/
inductive Flow where
  | normal (scope : Option Env)
  | returned (value : Value)

namespace Eval

/-- A runtime fault at a token. -/
def faultAt {α : Type} (t : Token) (problem : Problem) : Eval α :=
  throw (.fault (.runtime t.line problem))

/-- Writing to the output, which may fail. -/
def write (text : String) (report : String → Report) : Eval Unit := fun n =>
  if n.out.fits text then .ok () { n with out := n.out.put text }
  else .error (.fault (report n.out.writeFault)) { n with out := n.out.put text }

def readClock : Eval Nat := fun n =>
  .ok (n.clock n.readings) { n with readings := n.readings + 1 }

/-- A new cell. -/
def newCell (content : Option Value) : Eval CellRef := fun n =>
  .ok n.cells.size { n with cells := n.cells.push content }

/-- Putting a value into a cell. -/
def fill (cell : CellRef) (value : Value) : Eval Unit := fun n =>
  .ok () { n with cells := n.cells.setIfInBounds cell (some value) }

def defineGlobal (name : Token) (value : Value) : Eval Unit := fun n =>
  .ok () { n with globals := n.globals.insert name.lexeme value }

/-- **Reading a variable**: the first cell of its name, else a global. -/
def lookup (env : Env) (name : Token) : Eval Value := fun n =>
  match env.lookup name.lexeme with
  | some cell =>
    match n.cells[cell]?.join with
    | some value => .ok value n
    | none => .error (.fault (.runtime name.line (.missingLocal name.lexeme))) n
  | none =>
    match n.globals[name.lexeme]? with
    | some value => .ok value n
    | none => .error (.fault (.runtime name.line (.undefinedGlobal name.lexeme))) n

/-- **Assigning a variable**: the first cell of its name, else a global that has
to exist. -/
def assign (env : Env) (name : Token) (value : Value) : Eval Unit := fun n =>
  match env.lookup name.lexeme with
  | some cell =>
    match n.cells[cell]?.join with
    | some _ => .ok () { n with cells := n.cells.setIfInBounds cell (some value) }
    | none => .error (.fault (.runtime name.line (.missingLocal name.lexeme))) n
  | none =>
    if n.globals.contains name.lexeme then
      .ok () { n with globals := n.globals.insert name.lexeme value }
    else .error (.fault (.runtime name.line (.undefinedGlobal name.lexeme))) n

/-- A new closure over an environment. -/
def close (name : Token) (params : List Token) (body : List Stmt) (env : Env) : Eval Value :=
  fun n => .ok (.closure { id := n.nextClosure, name := name.lexeme, params, body, env })
    { n with nextClosure := n.nextClosure + 1 }

/-- The environment with parameters in front, each in a new cell that holds its
argument. -/
def bindAll : List (Token × Value) → Env → Eval Env
  | [], env => pure env
  | (param, value) :: rest, env => do
    let cell ← newCell (some value)
    bindAll rest ((param.lexeme, cell) :: env)

def ofOperator (operator : Token) : Except Problem Kix.Value → Eval Value
  | .ok value => pure (.ofFace value)
  | .error problem => faultAt operator problem

def callNative (native : Native) (paren : Token) (arguments : List Value) : Eval Value :=
  let failed reason := Report.runtime paren.line (.other reason)
  match native, arguments with
  | .clock, _ => do return .number (Float.ofNat (← readClock))
  | .print, value :: _ => do write value.face.display failed; return .nil
  | .println, value :: _ => do write (value.face.display ++ "\n") failed; return .nil
  | _, [] => pure .nil

/-- Whether a value can be called with so many arguments. -/
def checkCall (callee : Value) (paren : Token) (given : Nat) : Eval Unit :=
  match callee.face.arity? with
  | none => faultAt paren .notCallable
  | some arity => if given = arity then pure () else faultAt paren (.wrongArgumentCount arity given)

end Eval

open Lexical.Eval

mutual

/-- **Evaluating an expression** in an environment. -/
def evaluate : Nat → Env → Expr → Eval Value
  | 0, _, _ => throw .exhausted
  | steps + 1, env, e =>
    match e with
    | .literal value => pure (.ofFace (.ofLiteral value))
    | .absent => pure .nil
    | .group inner => evaluate steps env inner
    | .unary operator operand => do
      let value ← evaluate steps env operand
      ofOperator operator (Operator.unary operator.kind value.face)
    | .binary left operator right => do
      let a ← evaluate steps env left
      let b ← evaluate steps env right
      ofOperator operator (Operator.binary operator.kind a.face b.face)
    | .logical left operator right => do
      let a ← evaluate steps env left
      if Operator.decides operator.kind a.face then pure a else evaluate steps env right
    | .conditional condition thenBranch elseBranch => do
      let a ← evaluate steps env condition
      if a.face.isTruthy then evaluate steps env thenBranch else evaluate steps env elseBranch
    | .var _ name => lookup env name
    | .assign _ name value => do
      let a ← evaluate steps env value
      assign env name a
      pure a
    | .call callee paren arguments => do
      let f ← evaluate steps env callee
      let given ← evaluateAll steps env arguments
      call steps f paren given

/-- Evaluating arguments, from the left. -/
def evaluateAll : Nat → Env → List Expr → Eval (List Value)
  | 0, _, _ => throw .exhausted
  | _ + 1, _, [] => pure []
  | steps + 1, env, e :: rest => do
    let value ← evaluate steps env e
    let others ← evaluateAll steps env rest
    pure (value :: others)

/-- **Calling a value.** The body is executed in the environment of the closure
with the parameters in front. -/
def call : Nat → Value → Token → List Value → Eval Value
  | 0, _, _, _ => throw .exhausted
  | steps + 1, callee, paren, given => do
    checkCall callee paren given.length
    match callee with
    | .native native => callNative native paren given
    | .closure f =>
      let env ← bindAll (f.params.zip given) f.env
      let flow ← executeAll steps (some env) f.body
      match flow with
      | .returned value => pure value
      | .normal _ => pure .nil
    | _ => faultAt paren .notCallable

/-- **Executing a statement** in a scope. -/
def execute : Nat → Option Env → Stmt → Eval Flow
  | 0, _, _ => throw .exhausted
  | steps + 1, scope, s =>
    match s with
    | .expression value => do
      let _ ← evaluate steps (scope.getD []) value
      pure (.normal scope)
    | .print value => do
      let a ← evaluate steps (scope.getD []) value
      write (a.face.display ++ "\n") .stream
      pure (.normal scope)
    | .var name initializer =>
      match scope with
      | none => do
        let value ← evaluate steps [] initializer
        defineGlobal name value
        pure (.normal none)
      | some env => do
        let cell ← newCell none
        let value ← evaluate steps ((name.lexeme, cell) :: env) initializer
        fill cell value
        pure (.normal (some ((name.lexeme, cell) :: env)))
    | .block body => do
      let flow ← executeAll steps (some (scope.getD [])) body
      match flow with
      | .normal _ => pure (.normal scope)
      | .returned value => pure (.returned value)
    | .branch condition thenBranch elseBranch => do
      let a ← evaluate steps (scope.getD []) condition
      if a.face.isTruthy then execute steps scope thenBranch else execute steps scope elseBranch
    | .loop condition body => do
      let a ← evaluate steps (scope.getD []) condition
      if a.face.isTruthy then
        let flow ← execute steps scope body
        match flow with
        | .normal scope => execute steps scope (.loop condition body)
        | .returned value => pure (.returned value)
      else pure (.normal scope)
    | .function name params body =>
      match scope with
      | none => do
        let f ← close name params body []
        defineGlobal name f
        pure (.normal none)
      | some env => do
        let cell ← newCell none
        let f ← close name params body ((name.lexeme, cell) :: env)
        fill cell f
        pure (.normal (some ((name.lexeme, cell) :: env)))
    | .ret _ value => do
      let a ← evaluate steps (scope.getD []) value
      pure (.returned a)
    | .absent => pure (.normal scope)

/-- Executing statements in order, up to the first that returns. -/
def executeAll : Nat → Option Env → List Stmt → Eval Flow
  | 0, _, _ => throw .exhausted
  | _ + 1, scope, [] => pure (.normal scope)
  | steps + 1, scope, s :: rest => do
    let flow ← execute steps scope s
    match flow with
    | .normal scope => executeAll steps scope rest
    | .returned value => pure (.returned value)

end

/-- **Running a program** in the global scope: the report of the fault that ended
it, or else that of flushing the output. No result means that the steps did not
suffice. -/
def Machine.run? (n : Machine) (steps : Nat) (program : Program) :
    Option (Option Report × Machine) :=
  match executeAll steps none program n with
  | .ok _ n => some (n.out.flushFault.map .stream, n)
  | .error (.fault report) n => some (some report, n)
  | .error .exhausted _ => none

end Lexical

end Kix
