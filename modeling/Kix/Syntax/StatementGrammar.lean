import Kix.Syntax.ExpressionGrammar

/-!
# The grammar of statements

```text
program     → declaration* EOF
declaration → "fun" NAME "(" parameters? ")" block
            | "var" NAME ( "=" expression )? ";"
            | statement
statement   → "for" "(" ( "var" … ";" | expression ";" | ";" ) expression? ";" expression? ")" statement
            | "if" "(" expression ")" statement ( "else" statement )?
            | "print" expression ";"
            | "return" expression? ";"
            | "while" "(" expression ")" statement
            | block
            | expression ";"
block       → "{" declaration* "}"
parameters  → NAME ( "," NAME )*
```

A declaration that cannot be read is reported, skipped (`Cursor.resume`) and
stands in the tree as an absent statement; so reading a program always gives a
tree, and a declaration always reads at least one token.
-/

namespace Kix

namespace Grammar

variable (eof : Token)

/-- An expression, unless the closing token stands there already; the closing
token is read in both cases. -/
def optional (c : Cursor) (closing : Expectation) : Step c.size (Option Expr) :=
  if c.sees closing.kind then (c.expect eof closing).map fun _ => none
  else
    (expression eof c).andThen fun value c₁ h₁ =>
      ((c₁.expect eof closing).within h₁).map fun _ => some value

/-- An expression with the token that closes it. -/
def closedExpression (c : Cursor) (closing : Expectation) : Step c.size Expr :=
  (expression eof c).andThen fun value c₁ h₁ =>
    ((c₁.expect eof closing).within h₁).map fun _ => value

/-- The rest of a variable declaration behind `var`. -/
def variableDeclaration (c : Cursor) : Step c.size Stmt :=
  (c.expect eof .variableName).andThen fun name c₁ h₁ =>
    match c₁.take? (· == .equal) with
    | some (_, ⟨c₂, h₂⟩) =>
      ((closedExpression eof c₂ .variableEnd).within (Cursor.shorter_trans h₂ h₁)).map (.var name)
    | none => ((c₁.expect eof .variableEnd).within h₁).map fun _ => .var name .absent

/-- An expression as a statement. -/
def expressionStatement (c : Cursor) : Step c.size Stmt :=
  (closedExpression eof c .expressionEnd).map .expression

/-- One or more parameters behind `count` others, up to the closing
parenthesis. -/
def someParameters (count : Nat) (c : Cursor) : Step c.size (List Token) :=
  let c₀ := c.checkCount eof count .tooManyParameters
  have h₀ := Cursor.size_checkCount c eof count .tooManyParameters
  ((c₀.expect eof .parameterName).relocate h₀).andThen fun first c₁ h₁ =>
    match c₁.take? (· == .comma) with
    | some (_, ⟨c₂, h₂⟩) =>
      have h₂ := Cursor.shorter_trans h₂ h₁
      ((someParameters (count + 1) c₂).within h₂).map fun others => first :: others
    | none => ((c₁.expect eof .parametersClose).within h₁).map fun _ => [first]
termination_by c.size

/-- The parameters of a function up to the closing parenthesis. -/
def parameters (c : Cursor) : Step c.size (List Token) :=
  match c.take? (· == .rightParen) with
  | some (_, ⟨c₁, h₁⟩) => .ok [] c₁ h₁
  | none => someParameters eof 0 c

/-- The first clause of a `for` loop with its semicolon. -/
def forInitializer (c : Cursor) : Step c.size Stmt :=
  match c.take? (· == .semicolon) with
  | some (_, ⟨c₁, h₁⟩) => .ok .absent c₁ h₁
  | none =>
    match c.take? (· == .varWord) with
    | some (_, ⟨c₁, h₁⟩) => (variableDeclaration eof c₁).within h₁
    | none => expressionStatement eof c

mutual

/-- A statement other than a declaration. -/
def statement (c : Cursor) : Step c.size Stmt :=
  match c.next? with
  | none => expressionStatement eof c
  | some (t, ⟨c₁, h₁⟩) =>
    match t.kind with
    | .forWord => (forStatement c₁).within h₁
    | .ifWord => (ifStatement c₁).within h₁
    | .printWord => ((closedExpression eof c₁ .printEnd).within h₁).map .print
    | .returnWord =>
      ((optional eof c₁ .returnEnd).within h₁).map fun value => .ret t (value.getD .absent)
    | .whileWord => (whileStatement c₁).within h₁
    | .leftBrace => ((block c₁).within h₁).map .block
    | _ => expressionStatement eof c
termination_by (c.size, 1)

/-- The rest of a `for` loop. -/
def forStatement (c : Cursor) : Step c.size Stmt :=
  (c.expect eof .forOpen).andThen fun _ c₁ h₁ =>
    ((forInitializer eof c₁).within h₁).andThen fun initializer c₂ h₂ =>
      ((optional eof c₂ .forConditionEnd).within h₂).andThen fun condition c₃ h₃ =>
        ((optional eof c₃ .forClose).within h₃).andThen fun increment c₄ h₄ =>
          ((statement c₄).within h₄).map fun body =>
            .forLoop initializer (condition.getD (.literal (.bool true)))
              (increment.getD .absent) body
termination_by (c.size, 0)

/-- The rest of an `if` statement. -/
def ifStatement (c : Cursor) : Step c.size Stmt :=
  (c.expect eof .ifOpen).andThen fun _ c₁ h₁ =>
    ((closedExpression eof c₁ .ifClose).within h₁).andThen fun condition c₂ h₂ =>
      ((statement c₂).within h₂).andThen fun thenBranch c₃ h₃ =>
        match c₃.take? (· == .elseWord) with
        | some (_, ⟨c₄, h₄⟩) =>
          have h₄ := Cursor.shorter_trans h₄ h₃
          ((statement c₄).within h₄).map (.branch condition thenBranch)
        | none => .ok (.branch condition thenBranch .absent) c₃ h₃
termination_by (c.size, 0)

/-- The rest of a `while` loop. -/
def whileStatement (c : Cursor) : Step c.size Stmt :=
  (c.expect eof .whileOpen).andThen fun _ c₁ h₁ =>
    ((closedExpression eof c₁ .whileClose).within h₁).andThen fun condition c₂ h₂ =>
      ((statement c₂).within h₂).map (.loop condition)
termination_by (c.size, 0)

/-- The statements of a block with the brace that closes it. -/
def block (c : Cursor) : Step c.size (List Stmt) :=
  if h : c.rest = [] then .fail c eof (.expected .blockClose)
  else if c.sees .rightBrace then (c.expect eof .blockClose).map fun _ => []
  else
    match declaration c h with
    | (first, ⟨c₁, h₁⟩) => ((block c₁).within h₁).map fun others => first :: others
termination_by (c.size, 3)

/-- The rest of a function declaration behind `fun`. -/
def functionDeclaration (c : Cursor) : Step c.size Stmt :=
  (c.expect eof .functionName).andThen fun name c₁ h₁ =>
    ((c₁.expect eof .functionOpen).within h₁).andThen fun _ c₂ h₂ =>
      ((parameters eof c₂).within h₂).andThen fun params c₃ h₃ =>
        ((c₃.expect eof .bodyOpen).within h₃).andThen fun _ c₄ h₄ =>
          ((block c₄).within h₄).map (.function name params)
termination_by (c.size, 0)

/-- **A declaration, whatever it takes**: when it cannot be read the cursor
moves on to the next statement. -/
def declaration (c : Cursor) (nonempty : c.rest ≠ []) :
    Stmt × { c' : Cursor // c'.size < c.size } :=
  c.orResume nonempty
    (match c.take? (· == .funWord) with
    | some (_, ⟨c₁, h₁⟩) => (functionDeclaration c₁).within h₁
    | none =>
      match c.take? (· == .varWord) with
      | some (_, ⟨c₁, h₁⟩) => (variableDeclaration eof c₁).within h₁
      | none => statement c)
    .absent
termination_by (c.size, 2)

end

/-- Declarations up to the end of the input. -/
def declarations (c : Cursor) : Program × Cursor :=
  if h : c.rest = [] then ([], c)
  else
    match declaration eof c h with
    | (first, ⟨c₁, _⟩) =>
      let (others, last) := declarations c₁
      (first :: others, last)
termination_by c.size

end Grammar

/-- What reading a program gives: its tree, the first identity not handed out,
and the reports in the order in which they were made. -/
structure Parse where
  program : Program
  nextId : Nat
  reports : List Report

/-- The first token that marks the end of the input. A list without one ends
on the line of its last token. -/
def endToken (ts : List Token) : Token :=
  (ts.find? (·.kind == .eof)).getD (.endOfInput ((ts.getLast?.map Token.line).getD 1))

/-- **Reading a program** from the tokens in front of the end of the input.
Occurrences of names are numbered from `firstId`. -/
def parse (ts : List Token) (firstId : Nat) : Parse :=
  let (program, c) := Grammar.declarations (endToken ts)
    ⟨ts.takeWhile (·.kind != .eof), firstId, []⟩
  ⟨program, c.nextId, c.reports.reverse⟩

end Kix
