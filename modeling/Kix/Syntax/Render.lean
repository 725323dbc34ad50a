import Kix.Number.Text
import Kix.Syntax.Tree

/-!
# Syntax trees as text

A tree is rendered in fully parenthesized form, operator first: every compound
node is a **form**, its parts between parentheses with single spaces.
-/

namespace Kix

/-- Parts between parentheses, separated by spaces. -/
def form (parts : List String) : String := "(" ++ " ".intercalate parts ++ ")"

/-- The text of a literal; a string stands without quotes. -/
def Literal.render : Literal → String
  | number x => Number.literal x
  | string s => s
  | bool b => if b then "true" else "false"
  | nil => "nil"

mutual

/-- The text of an expression. -/
def Expr.render : Expr → String
  | .literal value => value.render
  | .unary operator operand => form [operator.lexeme, operand.render]
  | .binary left operator right => form [operator.lexeme, left.render, right.render]
  | .logical left operator right => form [operator.lexeme, left.render, right.render]
  | .conditional condition thenBranch elseBranch =>
    form ["?:", condition.render, thenBranch.render, elseBranch.render]
  | .group inner => form ["group", inner.render]
  | .var _ name => name.lexeme
  | .assign _ name value => form ["=", name.lexeme, value.render]
  | .call callee _ arguments => form ("call" :: callee.render :: renderArguments arguments)
  | .absent => "nil"

/-- The texts of the arguments of a call. -/
def renderArguments : List Expr → List String
  | [] => []
  | e :: rest => e.render :: renderArguments rest

end

mutual

/-- The text of a statement. What is absent is left out, except where a
statement has to stand. -/
def Stmt.render : Stmt → String
  | .expression value => form [";", value.render]
  | .print value => form ["print", value.render]
  | .var name initializer =>
    match initializer with
    | .absent => form ["var", name.lexeme]
    | value => form ["var", name.lexeme, value.render]
  | .block body => form ("block" :: renderBody body)
  | .branch condition thenBranch elseBranch =>
    match elseBranch with
    | .absent => form ["if", condition.render, thenBranch.render]
    | other => form ["if-else", condition.render, thenBranch.render, other.render]
  | .loop condition body => form ["while", condition.render, body.render]
  | .function name params body =>
    form ("fun" :: name.lexeme :: form (params.map Token.lexeme) :: renderBody body)
  | .ret _ value =>
    match value with
    | .absent => form ["return"]
    | value => form ["return", value.render]
  | .absent => form ["null"]

/-- The texts of the statements of a body. -/
def renderBody : List Stmt → List String
  | [] => []
  | s :: rest => s.render :: renderBody rest

end

/-- The text of a program, one statement to a line. -/
def renderProgram (program : Program) : String := "\n".intercalate (renderBody program)

end Kix
