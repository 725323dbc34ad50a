import Kix.Syntax.StatementGrammar

/-!
# The grammar, read by index

The readers of `Kix.Grammar` walk down a list, and cannot leave it. Here is the grammar once
more, over all the tokens, marks of the end included, and an index into them. The readers
look at the token at the index (`peek`) and at the one before it (`previous`). They stop at a
mark of the end only because they look for it (`atEnd`), and they call each other without
measuring what is left.

So there is something to prove about them. A reader that looks outside of the tokens has no
outcome, and neither has one whose calls nest deeper than a given **depth**; a loop is a call
here. A reader **ends** with a result if it has that outcome from some depth on (`Ends`). One
that goes on forever has no outcome at any depth.
-/

namespace Kix.Indexed

/-- Where a reader stands: the index of the next token, the next identity to hand out, and
the reports made so far, the latest first. -/
structure Position where
  current : Nat
  nextId : Nat
  reports : List Report

/-- A reader that moves from position to position. It may fail, after a report. -/
abbrev Reader (α : Type) := ExceptT Unit (StateT Position Option) α

/-- **The outcome of a reader** from a position: what was read, or that it failed, and where
it stands then; or nothing. -/
def outcome {α : Type} (m : Reader α) (p : Position) : Option (Except Unit α × Position) :=
  StateT.run (ExceptT.run m) p

/-- The reader without an outcome. -/
def nothing {α : Type} : Reader α := fun _ => none

/-- **Ending with a result**: that is the outcome, however deep the calls may nest from some
depth on. -/
def Ends {α : Type} (reader : Nat → Reader α) (p : Position) (result : Except Unit α × Position) :
    Prop :=
  ∃ depth, ∀ deeper, depth ≤ deeper → outcome (reader deeper) p = some result

/-! ## Looking and moving -/

section

variable (tokens : List Token)

/-- The token at an index. There is no outcome outside of the tokens. -/
def look (index : Nat) : Reader Token :=
  match tokens[index]? with
  | some t => return t
  | none => nothing

/-- The next token. -/
def peek : Reader Token := do
  let p ← get
  look tokens p.current

/-- The token before the next one; at the very start, the next one. -/
def previous : Reader Token := do
  let p ← get
  look tokens (p.current - 1)

/-- Whether the next token marks the end. -/
def atEnd : Reader Bool := do
  let t ← peek tokens
  return t.kind == .eof

/-- Whether the next token is of an accepted kind; a mark of the end is not. -/
def check (accepts : Kind → Bool) : Reader Bool := do
  if ← atEnd tokens then
    return false
  else
    let t ← peek tokens
    return accepts t.kind

/-- Moving past the next token, but not past the end. -/
def advance : Reader Token := do
  if ← atEnd tokens then
    previous tokens
  else
    modify fun p => { p with current := p.current + 1 }
    previous tokens

/-- Moving past the next token if it is of an accepted kind. -/
def accept (accepts : Kind → Bool) : Reader Bool := do
  if ← check tokens accepts then
    let _ ← advance tokens
    return true
  else
    return false

/-- A report about a token. -/
def complain (t : Token) (problem : Problem) : Reader Unit :=
  modify fun p => { p with reports := .syntactic t.place problem :: p.reports }

/-- Handing out an identity. -/
def freshId : Reader Nat :=
  modifyGet fun p => (p.nextId, { p with nextId := p.nextId + 1 })

/-- A report about the next token, and failure. -/
def fail {α : Type} (problem : Problem) : Reader α := do
  let t ← peek tokens
  complain t problem
  throw ()

/-- The one token that can follow here. -/
def expect (what : Expectation) : Reader Token := do
  if ← check tokens (· == what.kind) then
    advance tokens
  else
    fail tokens (.expected what)

/-- A report if there are already as many parameters or arguments as there may be. -/
def checkCount (count : Nat) (problem : Problem) : Reader Unit := do
  if Cursor.maxArity ≤ count then
    let t ← peek tokens
    complain t problem
  else
    return ()

/-- Moving on until a semicolon was passed or a word follows that begins a statement. -/
def skip : Nat → Reader Unit
  | 0 => nothing
  | depth + 1 => do
    if ← atEnd tokens then
      return ()
    else
      let last ← previous tokens
      let next ← peek tokens
      if last.kind == .semicolon || Cursor.beginsStatement next.kind then
        return ()
      else
        let _ ← advance tokens
        skip depth

/-- Finding the next statement after a failure. -/
def resume (depth : Nat) : Reader Unit := do
  let _ ← advance tokens
  skip tokens depth

/-- A failure ends here: it leaves an absent statement, and reading goes on behind it. -/
def orResume (depth : Nat) (attempt : Reader Stmt) : Reader Stmt :=
  tryCatch attempt fun _ => do
    resume tokens depth
    return .absent

/-! ## The rules

Each reader has the name of the one in `Kix.Grammar` that reads the same. -/

mutual

/-- An assignment, or an expression without one. -/
def expression : Nat → Reader Expr
  | 0 => nothing
  | depth + 1 => do
    let target ← conditional depth
    if ← accept tokens (· == .equal) then
      let equals ← previous tokens
      let value ← expression depth
      match target with
      | .var _ name =>
        let id ← freshId
        return .assign id name value
      | _ =>
        complain equals .invalidAssignmentTarget
        return target
    else
      return target

/-- A conditional expression, or its condition alone. -/
def conditional : Nat → Reader Expr
  | 0 => nothing
  | depth + 1 => do
    let condition ← operators depth Tier.all
    if ← accept tokens (· == .question) then
      let thenBranch ← expression depth
      let _ ← expect tokens .conditionalColon
      let elseBranch ← expression depth
      return .conditional condition thenBranch elseBranch
    else
      return condition

/-- Operators of the given tiers with their operands. -/
def operators : Nat → List Tier → Reader Expr
  | 0, _ => nothing
  | depth + 1, [] => unary depth
  | depth + 1, tier :: tighter => do
    let left ← operators depth tighter
    moreOperators depth tier tighter left

/-- Further operators of one tier behind a left operand. -/
def moreOperators : Nat → Tier → List Tier → Expr → Reader Expr
  | 0, _, _, _ => nothing
  | depth + 1, tier, tighter, left => do
    if ← accept tokens tier.accepts then
      let operator ← previous tokens
      let right ← operators depth tighter
      moreOperators depth tier tighter (tier.join left operator right)
    else
      return left

/-- An operator in front of an operand, or a call. -/
def unary : Nat → Reader Expr
  | 0 => nothing
  | depth + 1 => do
    if ← accept tokens Grammar.isUnaryOperator then
      let operator ← previous tokens
      let operand ← unary depth
      return .unary operator operand
    else
      call depth

/-- What is called, with its argument lists. -/
def call : Nat → Reader Expr
  | 0 => nothing
  | depth + 1 => do
    let callee ← primary depth
    moreCalls depth callee

/-- Further argument lists behind what is called. -/
def moreCalls : Nat → Expr → Reader Expr
  | 0, _ => nothing
  | depth + 1, callee => do
    if ← accept tokens (· == .leftParen) then
      let (given, paren) ← arguments depth
      moreCalls depth (.call callee paren given)
    else
      return callee

/-- Arguments up to the closing parenthesis. -/
def arguments : Nat → Reader (List Expr × Token)
  | 0 => nothing
  | depth + 1 => do
    if ← check tokens (· == .rightParen) then
      let paren ← expect tokens .argumentsClose
      return ([], paren)
    else
      someArguments depth 0

/-- Arguments behind the first `count` ones. -/
def someArguments : Nat → Nat → Reader (List Expr × Token)
  | 0, _ => nothing
  | depth + 1, count => do
    checkCount tokens count .tooManyArguments
    let first ← expression depth
    if ← accept tokens (· == .comma) then
      let (others, paren) ← someArguments depth (count + 1)
      return (first :: others, paren)
    else
      let paren ← expect tokens .argumentsClose
      return ([first], paren)

/-- Literals, names and groups, tried in this order. -/
def primary : Nat → Reader Expr
  | 0 => nothing
  | depth + 1 => do
    if ← accept tokens (· == .falseWord) then
      return .literal (.bool false)
    else if ← accept tokens (· == .trueWord) then
      return .literal (.bool true)
    else if ← accept tokens (· == .nilWord) then
      return .literal .nil
    else if ← accept tokens (fun kind => kind == .number || kind == .string) then
      let t ← previous tokens
      return .literal (t.literal.getD .nil)
    else if ← accept tokens (· == .identifier) then
      let name ← previous tokens
      let id ← freshId
      return .var id name
    else if ← accept tokens (· == .leftParen) then
      let inner ← expression depth
      let _ ← expect tokens .groupClose
      return .group inner
    else
      fail tokens .expectedExpression

end

/-- An expression that may be missing in front of a closing token. -/
def optional (depth : Nat) (closing : Expectation) : Reader (Option Expr) := do
  if ← check tokens (· == closing.kind) then
    let _ ← expect tokens closing
    return none
  else
    let value ← expression tokens depth
    let _ ← expect tokens closing
    return some value

/-- An expression and the token behind it. -/
def closedExpression (depth : Nat) (closing : Expectation) : Reader Expr := do
  let value ← expression tokens depth
  let _ ← expect tokens closing
  return value

def variableDeclaration (depth : Nat) : Reader Stmt := do
  let name ← expect tokens .variableName
  if ← accept tokens (· == .equal) then
    let value ← closedExpression tokens depth .variableEnd
    return .var name value
  else
    let _ ← expect tokens .variableEnd
    return .var name .absent

def expressionStatement (depth : Nat) : Reader Stmt := do
  let value ← closedExpression tokens depth .expressionEnd
  return .expression value

/-- Parameters behind the first `count` ones. -/
def someParameters : Nat → Nat → Reader (List Token)
  | 0, _ => nothing
  | depth + 1, count => do
    checkCount tokens count .tooManyParameters
    let first ← expect tokens .parameterName
    if ← accept tokens (· == .comma) then
      let others ← someParameters depth (count + 1)
      return first :: others
    else
      let _ ← expect tokens .parametersClose
      return [first]

def parameters (depth : Nat) : Reader (List Token) := do
  if ← check tokens (· == .rightParen) then
    let _ ← expect tokens .parametersClose
    return []
  else
    someParameters tokens depth 0

/-- What stands first in a `for` loop. -/
def forInitializer (depth : Nat) : Reader Stmt := do
  if ← accept tokens (· == .semicolon) then
    return .absent
  else if ← accept tokens (· == .varWord) then
    variableDeclaration tokens depth
  else
    expressionStatement tokens depth

mutual

/-- A statement, tried by its first word. -/
def statement : Nat → Reader Stmt
  | 0 => nothing
  | depth + 1 => do
    if ← accept tokens (· == .forWord) then
      forStatement depth
    else if ← accept tokens (· == .ifWord) then
      ifStatement depth
    else if ← accept tokens (· == .printWord) then
      let value ← closedExpression tokens depth .printEnd
      return .print value
    else if ← accept tokens (· == .returnWord) then
      let word ← previous tokens
      let value ← optional tokens depth .returnEnd
      return .ret word (value.getD .absent)
    else if ← accept tokens (· == .whileWord) then
      whileStatement depth
    else if ← accept tokens (· == .leftBrace) then
      let body ← block depth
      return .block body
    else
      expressionStatement tokens depth

/-- A `for` loop behind its first word. -/
def forStatement : Nat → Reader Stmt
  | 0 => nothing
  | depth + 1 => do
    let _ ← expect tokens .forOpen
    let initializer ← forInitializer tokens depth
    let condition ← optional tokens depth .forConditionEnd
    let increment ← optional tokens depth .forClose
    let body ← statement depth
    return .forLoop initializer (condition.getD (.literal (.bool true)))
      (increment.getD .absent) body

def ifStatement : Nat → Reader Stmt
  | 0 => nothing
  | depth + 1 => do
    let _ ← expect tokens .ifOpen
    let condition ← closedExpression tokens depth .ifClose
    let thenBranch ← statement depth
    if ← accept tokens (· == .elseWord) then
      let elseBranch ← statement depth
      return .branch condition thenBranch elseBranch
    else
      return .branch condition thenBranch .absent

def whileStatement : Nat → Reader Stmt
  | 0 => nothing
  | depth + 1 => do
    let _ ← expect tokens .whileOpen
    let condition ← closedExpression tokens depth .whileClose
    let body ← statement depth
    return .loop condition body

/-- The declarations up to the brace that closes a block, or up to the end of the input. -/
def block : Nat → Reader (List Stmt)
  | 0 => nothing
  | depth + 1 => do
    if ← check tokens (· == .rightBrace) then
      let _ ← expect tokens .blockClose
      return []
    else if ← atEnd tokens then
      let _ ← expect tokens .blockClose
      return []
    else
      let first ← declaration depth
      let others ← block depth
      return first :: others

def functionDeclaration : Nat → Reader Stmt
  | 0 => nothing
  | depth + 1 => do
    let name ← expect tokens .functionName
    let _ ← expect tokens .functionOpen
    let params ← parameters tokens depth
    let _ ← expect tokens .bodyOpen
    let body ← block depth
    return .function name params body

/-- A declaration, or nothing if reading it fails. -/
def declaration : Nat → Reader Stmt
  | 0 => nothing
  | depth + 1 => orResume tokens depth do
    if ← accept tokens (· == .funWord) then
      functionDeclaration depth
    else if ← accept tokens (· == .varWord) then
      variableDeclaration tokens depth
    else
      statement depth

end

/-- All declarations up to the end of the input. -/
def declarations : Nat → Reader Program
  | 0 => nothing
  | depth + 1 => do
    if ← atEnd tokens then
      return []
    else
      let first ← declaration tokens depth
      let others ← declarations depth
      return first :: others

end

/-! ## Programs -/

/-- The tokens with a mark of the end behind them, unless the last one is one. -/
def closed (ts : List Token) : List Token :=
  if ts.getLast?.any (·.kind == .eof) then ts
  else ts ++ [.endOfInput ((ts.getLast?.map Token.line).getD 1)]

/-- **Reading a program by index**, from any list of tokens, with calls up to a depth. -/
def parse (depth : Nat) (ts : List Token) (firstId : Nat) : Option Parse :=
  match outcome (declarations (closed ts) depth) ⟨0, firstId, []⟩ with
  | some (.ok program, p) => some ⟨program, p.nextId, p.reports.reverse⟩
  | _ => none

end Kix.Indexed
