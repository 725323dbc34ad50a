import Kix.Token.Basic

/-!
# Syntax trees

Expressions and statements, as the grammar builds them. Tokens stay in the
tree where a later report has to name them: operators, declared names, the
closing parenthesis of a call and the word `return`.

An optional part that is not there is `absent`: a missing initializer, a bare
`return`, a missing `else`. A `for` loop has no form of its own.
-/

namespace Kix

/-- The identity of an occurrence of a name: no two occurrences in a session
share one. -/
abbrev OccurrenceId := Nat

inductive Expr where
  | literal (value : Literal)
  | unary (operator : Token) (operand : Expr)
  | binary (left : Expr) (operator : Token) (right : Expr)
  /-- The operators `and` and `or`, which may leave out their right operand. -/
  | logical (left : Expr) (operator : Token) (right : Expr)
  | conditional (condition thenBranch elseBranch : Expr)
  | group (inner : Expr)
  | var (id : OccurrenceId) (name : Token)
  | assign (id : OccurrenceId) (name : Token) (value : Expr)
  | call (callee : Expr) (paren : Token) (arguments : List Expr)
  | absent
  deriving Inhabited

inductive Stmt where
  | expression (value : Expr)
  | print (value : Expr)
  | var (name : Token) (initializer : Expr)
  | block (body : List Stmt)
  | branch (condition : Expr) (thenBranch elseBranch : Stmt)
  | loop (condition : Expr) (body : Stmt)
  | function (name : Token) (params : List Token) (body : List Stmt)
  | ret (keyword : Token) (value : Expr)
  /-- A missing statement, or one that could not be read. -/
  | absent
  deriving Inhabited

/-- A program is a sequence of statements. -/
abbrev Program := List Stmt

/-- **The meaning of a `for` loop**, in terms of the other statements: a block
that holds the initializer and a loop, whose body is a block that ends with
the increment. -/
def Stmt.forLoop (initializer : Stmt) (condition increment : Expr) (body : Stmt) : Stmt :=
  .block [initializer, .loop condition (.block [body, .expression increment])]

end Kix
