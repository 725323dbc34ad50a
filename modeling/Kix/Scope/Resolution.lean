import Kix.Report
import Kix.Scope.Address

/-!
# Resolving names

One walk over a program finds the address of each occurrence of a local
variable, and reports what is wrong with its scopes: a name declared twice in
one scope, a variable read in its own initializer, a `return` outside a
function, and – if the policy asks – variables that are never read.

A **scope** is opened by each block and by each function, whose parameters and
body share one. The global scope is not among them: what is declared there has
no address and may be mentioned before it is declared.
-/

namespace Kix

/-- How unused variables are treated. -/
inductive UnusedPolicy where
  | off | warn | error
  deriving DecidableEq, Repr

/-- What the walk is asked to check. -/
structure Policy where
  unused : UnusedPolicy := .warn
  /-- Whether functions that are never mentioned count as unused variables. -/
  checkFunctions : Bool := false
  deriving DecidableEq, Repr

/-- A declaration in a scope, and what the walk knows about it so far. -/
structure Binding where
  name : Token
  isFunction : Bool
  /-- Its initializer has been passed. -/
  defined : Bool := false
  /-- It has been read. -/
  used : Bool := false
  deriving DecidableEq

/-- The declarations of a scope, the latest first. -/
abbrev Scope := List Binding

namespace Scope

/-- The latest declaration of a name. -/
def find? (scope : Scope) (name : String) : Option Binding :=
  List.find? (·.name.lexeme == name) scope

/-- The slot of the latest declaration of a name: the number of declarations
before it. -/
def slot? (name : String) : Scope → Option Nat
  | [] => none
  | b :: older => if b.name.lexeme == name then some older.length else slot? name older

/-- Changing the latest declaration of a name. -/
def update (name : String) (f : Binding → Binding) : Scope → Scope
  | [] => []
  | b :: older => if b.name.lexeme == name then f b :: older else b :: update name f older

/-- **Where a name leads**, through scopes from the innermost outwards. -/
def locate (name : String) : List Scope → Option Address
  | [] => none
  | scope :: outer =>
    match slot? name scope with
    | some slot => some ⟨0, slot⟩
    | none => (locate name outer).map Address.outward

/-- Marking as used the declaration that a name leads to. -/
def markUsed (name : String) : List Scope → List Scope
  | [] => []
  | scope :: outer =>
    if (slot? name scope).isSome then update name ({ · with used := true }) scope :: outer
    else scope :: markUsed name outer

end Scope

/-- What the walk has found: the scopes that are open, the innermost first; the
addresses, and the reports, both with the latest first. -/
structure Resolution where
  scopes : List Scope := []
  entries : List (OccurrenceId × Address) := []
  reports : List Report := []

namespace Resolution

def report (r : Resolution) (report : Report) : Resolution :=
  { r with reports := report :: r.reports }

/-- Entering a block or a function. -/
def openScope (r : Resolution) : Resolution := { r with scopes := [] :: r.scopes }

/-- The report about a declaration that was never read, if the policy wants
one. -/
def unusedReport? (policy : Policy) (b : Binding) : Option Report :=
  if b.used || (b.isFunction && !policy.checkFunctions) then none
  else
    match policy.unused with
    | .off => none
    | .warn => some (.warning b.name.place .unusedVariable)
    | .error => some (.scoping b.name.place .unusedVariable)

/-- **Leaving a scope**, which is when its unused variables are known. They are
reported in the order of their declarations. -/
def closeScope (policy : Policy) (r : Resolution) : Resolution :=
  match r.scopes with
  | [] => r
  | scope :: outer =>
    { r with
      scopes := outer
      reports := scope.filterMap (unusedReport? policy) ++ r.reports }

/-- Declaring a name in the innermost scope. A second declaration of one name
is reported, and takes a slot of its own all the same. -/
def declare (name : Token) (isFunction : Bool) (r : Resolution) : Resolution :=
  match r.scopes with
  | [] => r
  | scope :: outer =>
    let declared := { r with scopes := ({ name, isFunction } :: scope) :: outer }
    if (Scope.slot? name.lexeme scope).isSome then
      declared.report (.scoping name.place .alreadyDeclared)
    else declared

/-- From here on a name of the innermost scope may be read. -/
def define (name : Token) (r : Resolution) : Resolution :=
  match r.scopes with
  | [] => r
  | scope :: outer =>
    { r with scopes := Scope.update name.lexeme ({ · with defined := true }) scope :: outer }

/-- Recording the address of an occurrence, if it has one. -/
def record (id : OccurrenceId) (name : Token) (r : Resolution) : Resolution :=
  match Scope.locate name.lexeme r.scopes with
  | some address => { r with entries := (id, address) :: r.entries }
  | none => r

/-- Whether a name is that of a variable of the innermost scope whose
initializer is being walked. -/
def isBeingInitialized (name : Token) (r : Resolution) : Bool :=
  match r.scopes with
  | [] => false
  | scope :: _ => (Scope.find? scope name.lexeme).any (!·.defined)

/-- An occurrence that reads. -/
def read (id : OccurrenceId) (name : Token) (r : Resolution) : Resolution :=
  let checked :=
    if r.isBeingInitialized name then r.report (.scoping name.place .readInOwnInitializer)
    else r
  let recorded := checked.record id name
  { recorded with scopes := Scope.markUsed name.lexeme recorded.scopes }

/-- Declaring the parameters of a function. -/
def declareParameters (params : List Token) (r : Resolution) : Resolution :=
  params.foldl (fun r p => (r.declare p false).define p) r

end Resolution

open Resolution

mutual

/-- Walking an expression. -/
def Expr.resolve : Expr → Resolution → Resolution
  | .literal _, r | .absent, r => r
  | .group inner, r => inner.resolve r
  | .unary _ operand, r => operand.resolve r
  | .binary left _ right, r | .logical left _ right, r => right.resolve (left.resolve r)
  | .conditional condition thenBranch elseBranch, r =>
    elseBranch.resolve (thenBranch.resolve (condition.resolve r))
  | .var id name, r => r.read id name
  | .assign id name value, r => (value.resolve r).record id name
  | .call callee _ arguments, r => resolveArguments arguments (callee.resolve r)

/-- Walking the arguments of a call. -/
def resolveArguments : List Expr → Resolution → Resolution
  | [], r => r
  | e :: rest, r => resolveArguments rest (e.resolve r)

end

mutual

/-- Walking a statement, inside a function or outside all of them. -/
def Stmt.resolve (policy : Policy) (inFunction : Bool) : Stmt → Resolution → Resolution
  | .expression value, r | .print value, r => value.resolve r
  | .var name initializer, r => (initializer.resolve (r.declare name false)).define name
  | .block body, r => (resolveBody policy inFunction body r.openScope).closeScope policy
  | .branch condition thenBranch elseBranch, r =>
    elseBranch.resolve policy inFunction
      (thenBranch.resolve policy inFunction (condition.resolve r))
  | .loop condition body, r => body.resolve policy inFunction (condition.resolve r)
  | .function name params body, r =>
    let inside := (((r.declare name true).define name).openScope).declareParameters params
    (resolveBody policy true body inside).closeScope policy
  | .ret keyword value, r =>
    value.resolve
      (if inFunction then r else r.report (.scoping keyword.place .returnOutsideFunction))
  | .absent, r => r

/-- Walking the statements of a body. -/
def resolveBody (policy : Policy) (inFunction : Bool) : List Stmt → Resolution → Resolution
  | [], r => r
  | s :: rest, r => resolveBody policy inFunction rest (s.resolve policy inFunction r)

end

/-- What resolving a program gives: the addresses and the reports, in the order
in which they were found. -/
structure Resolved where
  entries : List (OccurrenceId × Address)
  reports : List Report

/-- **Resolving a whole program.** -/
def resolve (policy : Policy) (program : Program) : Resolved :=
  let r := resolveBody policy false program {}
  ⟨r.entries.reverse, r.reports.reverse⟩

end Kix
