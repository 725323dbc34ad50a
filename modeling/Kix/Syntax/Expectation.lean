import Kix.Token.Basic

/-!
# What the grammar expects

At each point where only one kind of token can continue a construct, the
grammar *expects* it. An expectation knows the kind of token that meets it and
the sentence that complains when another token stands there.
-/

namespace Kix

/-- A point of the grammar at which one kind of token has to follow. -/
inductive Expectation where
  | functionName | functionOpen | parameterName | parametersClose | bodyOpen
  | variableName | variableEnd
  | forOpen | forConditionEnd | forClose
  | ifOpen | ifClose
  | printEnd | returnEnd
  | whileOpen | whileClose
  | blockClose
  | expressionEnd
  | conditionalColon | argumentsClose | groupClose
  deriving DecidableEq, Repr

namespace Expectation

/-- The kind of token that meets an expectation. -/
def kind : Expectation → Kind
  | functionName | parameterName | variableName => .identifier
  | functionOpen | forOpen | ifOpen | whileOpen => .leftParen
  | parametersClose | forClose | ifClose | whileClose | argumentsClose | groupClose => .rightParen
  | bodyOpen => .leftBrace
  | blockClose => .rightBrace
  | variableEnd | forConditionEnd | printEnd | returnEnd | expressionEnd => .semicolon
  | conditionalColon => .colon

/-- The complaint about a token that does not meet an expectation. -/
def message : Expectation → String
  | functionName => "Expect function name."
  | functionOpen => "Expect '(' after function name."
  | parameterName => "Expect parameter name."
  | parametersClose => "Expect ')' after parameters."
  | bodyOpen => "Expect '\x7b' before function body."
  | variableName => "Expect variable name."
  | variableEnd => "Expect ';' after variable declaration."
  | forOpen => "Expect '(' after 'for'."
  | forConditionEnd => "Expect ';' after loop condition."
  | forClose => "Expect ')' after for clauses."
  | ifOpen => "Expect '(' after 'if'."
  | ifClose => "Expect ')' after if condition."
  | printEnd => "Expect ';' after value."
  | returnEnd => "Expect ';' after return value."
  | whileOpen => "Expect '(' after 'while'."
  | whileClose => "Expect ')' after condition."
  | blockClose => "Expect '\x7d' after block."
  | expressionEnd => "Expect ';' after expression."
  | conditionalColon => "Expect ':' in conditional expression."
  | argumentsClose => "Expect ')' after arguments."
  | groupClose => "Expect ')' after expression."

end Expectation

end Kix
