import Kix.Machine

/-!
# Evaluation

Expressions evaluate to values and statements are executed, both on a
`Machine`. Programs need not end, so evaluation is given a number of **steps**:
it is defined by recursion on that number, and halts as exhausted when the
number was too small. A `return` is no fault: it is a `Flow`, which ends the
statements around it up to the call.
-/

namespace Kix

/-- How executing a statement ends. -/
inductive Flow where
  | normal
  /-- A `return` on its way to the call. -/
  | returned (value : Value)

namespace Operator

/-- The operators that take two numbers and nothing else. -/
def arithmetic? : Kind → Option (Float → Float → Value)
  | .minus => some fun a b => .number (a - b)
  | .star => some fun a b => .number (a * b)
  | .slash => some fun a b => .number (a / b)
  | .greater => some fun a b => .bool (decide (a > b))
  | .greaterEqual => some fun a b => .bool (decide (a ≥ b))
  | .less => some fun a b => .bool (decide (a < b))
  | .lessEqual => some fun a b => .bool (decide (a ≤ b))
  | _ => none

/-- `+` adds numbers, joins strings, and splices a number into a string on
either side. -/
def plus (left right : Value) : Except Problem Value :=
  match left, right with
  | .number a, .number b => .ok (.number (a + b))
  | .string a, .string b => .ok (.string (a ++ b))
  | .string a, .number b => .ok (.string (a ++ Number.spliced b))
  | .number a, .string b => .ok (.string (Number.spliced a ++ b))
  | left, right => .error (.invalidOperands left.display right.display)

/-- **The operators with two operands** other than `and` and `or`. -/
def binary (kind : Kind) (left right : Value) : Except Problem Value :=
  match kind with
  | .plus => plus left right
  | .equalEqual => .ok (.bool (left.equals right))
  | .bangEqual => .ok (.bool (!left.equals right))
  | kind =>
    match arithmetic? kind, left, right with
    | some operate, .number a, .number b => .ok (operate a b)
    | some _, _, _ => .error .operandNotNumber
    | none, _, _ => .error .invalidBinaryOperator

/-- **The operators with one operand.** -/
def unary (kind : Kind) (operand : Value) : Except Problem Value :=
  match kind with
  | .bang => .ok (.bool (!operand.isTruthy))
  | .minus =>
    match operand with
    | .number a => .ok (.number (-a))
    | _ => .error .operandNotNumber
  | _ => .error .invalidUnaryOperator

/-- Whether the left operand of `or`, or else of `and`, decides the result. -/
def decides (kind : Kind) (left : Value) : Bool :=
  if kind = .orWord then left.isTruthy else !left.isTruthy

end Operator

namespace Eval

/-- A result, or the fault of an operator at its token. -/
def ofOperator (operator : Token) : Except Problem Value → Eval Value
  | .ok value => pure value
  | .error problem => faultAt operator problem

/-- Calling a native function; a failing output is a fault of the call. -/
def callNative (native : Native) (paren : Token) (arguments : List Value) : Eval Value :=
  let failed reason := Report.runtime paren.line (.other reason)
  match native, arguments with
  | .clock, _ => do return .number (Float.ofNat (← readClock))
  | .print, value :: _ => do write value.display failed; return .nil
  | .println, value :: _ => do write (value.display ++ "\n") failed; return .nil
  | _, [] => pure .nil

/-- Whether a value can be called with a number of arguments, and the fault if
it cannot. -/
def checkCall (callee : Value) (paren : Token) (given : Nat) : Eval Unit :=
  match callee.arity? with
  | none => faultAt paren .notCallable
  | some arity => if given = arity then pure () else faultAt paren (.wrongArgumentCount arity given)

end Eval

open Eval

mutual

/-- **Evaluating an expression.** -/
def evaluate : Nat → Expr → Eval Value
  | 0, _ => throw .exhausted
  | steps + 1, e =>
    match e with
    | .literal value => pure (.ofLiteral value)
    | .absent => pure .nil
    | .group inner => evaluate steps inner
    | .unary operator operand => do
      let value ← evaluate steps operand
      ofOperator operator (Operator.unary operator.kind value)
    | .binary left operator right => do
      let a ← evaluate steps left
      let b ← evaluate steps right
      ofOperator operator (Operator.binary operator.kind a b)
    | .logical left operator right => do
      let a ← evaluate steps left
      if Operator.decides operator.kind a then pure a else evaluate steps right
    | .conditional condition thenBranch elseBranch => do
      let a ← evaluate steps condition
      if a.isTruthy then evaluate steps thenBranch else evaluate steps elseBranch
    | .var id name => lookup id name
    | .assign id name value => do
      let a ← evaluate steps value
      assign id name a
      pure a
    | .call callee paren arguments => do
      let f ← evaluate steps callee
      let given ← evaluateAll steps arguments
      call steps f paren given

/-- Evaluating arguments, from the left. -/
def evaluateAll : Nat → List Expr → Eval (List Value)
  | 0, _ => throw .exhausted
  | _ + 1, [] => pure []
  | steps + 1, e :: rest => do
    let value ← evaluate steps e
    let others ← evaluateAll steps rest
    pure (value :: others)

/-- **Calling a value.** The frame of a call holds the arguments and hangs
under the frame of the closure, not under that of the caller. -/
def call : Nat → Value → Token → List Value → Eval Value
  | 0, _, _, _ => throw .exhausted
  | steps + 1, callee, paren, given => do
    checkCall callee paren given.length
    match callee with
    | .native native => callNative native paren given
    | .closure f =>
      let flow ← within ⟨given.toArray, f.scope⟩ (executeAll steps f.body)
      match flow with
      | .returned value => pure value
      | .normal => pure .nil
    | _ => faultAt paren .notCallable

/-- **Executing a statement.** -/
def execute : Nat → Stmt → Eval Flow
  | 0, _ => throw .exhausted
  | steps + 1, s =>
    match s with
    | .expression value => do
      let _ ← evaluate steps value
      pure .normal
    | .print value => do
      let a ← evaluate steps value
      write (a.display ++ "\n") .stream
      pure .normal
    | .var name initializer => do
      let value ← evaluate steps initializer
      define name value
      pure .normal
    | .block body => do
      let parent ← currentFrame
      within { parent } (executeAll steps body)
    | .branch condition thenBranch elseBranch => do
      let a ← evaluate steps condition
      if a.isTruthy then execute steps thenBranch else execute steps elseBranch
    | .loop condition body => do
      let a ← evaluate steps condition
      if a.isTruthy then
        let flow ← execute steps body
        match flow with
        | .normal => execute steps (.loop condition body)
        | .returned value => pure (.returned value)
      else pure .normal
    | .function name params body => do
      let f ← close name params body
      define name f
      pure .normal
    | .ret _ value => do
      let a ← evaluate steps value
      pure (.returned a)
    | .absent => pure .normal

/-- Executing statements in order, up to the first that returns. -/
def executeAll : Nat → List Stmt → Eval Flow
  | 0, _ => throw .exhausted
  | _ + 1, [] => pure .normal
  | steps + 1, s :: rest => do
    let flow ← execute steps s
    match flow with
    | .normal => executeAll steps rest
    | .returned value => pure (.returned value)

end

/-- **Running a program**, back to the global scope. The report is that of the
fault that ended the run, or else that of flushing the output. No result means
that the steps did not suffice. -/
def Machine.run? (m : Machine) (steps : Nat) (program : Program) :
    Option (Option Report × Machine) :=
  let settle (m : Machine) : Machine := { m with current := none }
  match executeAll steps program m with
  | .ok _ m => some (m.out.flushFault.map .stream, settle m)
  | .error (.fault report) m => some (some report, settle m)
  | .error .exhausted _ => none

end Kix
