import Kix.Syntax.Cursor
import Kix.Syntax.Tree

/-!
# The grammar of expressions

```text
expression  → NAME "=" expression | conditional
conditional → or ( "?" expression ":" expression )?
or          → and ( "or" and )*
and         → equality ( "and" equality )*
equality    → comparison ( ( "!=" | "==" ) comparison )*
comparison  → term ( ( ">" | ">=" | "<" | "<=" ) term )*
term        → factor ( ( "-" | "+" ) factor )*
factor      → unary ( ( "/" | "*" ) unary )*
unary       → ( "!" | "-" ) unary | call
call        → primary ( "(" arguments? ")" )*
arguments   → expression ( "," expression )*
primary     → NUMBER | STRING | "true" | "false" | "nil" | NAME | "(" expression ")"
```

The six rules from `or` to `factor` have one shape and are one reader, over the
list of **tiers** from the loosest operators to the tightest.

Each reader ends because it either reads a token before it calls another one,
or calls one that stands later in this list.
-/

namespace Kix

/-- A tier of left-associative operators. -/
inductive Tier where
  | or | and | equality | comparison | term | factor
  deriving DecidableEq, Repr

namespace Tier

/-- The operators of a tier. -/
def accepts : Tier → Kind → Bool
  | or, .orWord => true
  | and, .andWord => true
  | equality, .bangEqual | equality, .equalEqual => true
  | comparison, .greater | comparison, .greaterEqual | comparison, .less
  | comparison, .lessEqual => true
  | term, .minus | term, .plus => true
  | factor, .slash | factor, .star => true
  | _, _ => false

/-- The tree of an operator with its operands. -/
def join (tier : Tier) (left : Expr) (operator : Token) (right : Expr) : Expr :=
  match tier with
  | or | and => .logical left operator right
  | equality | comparison | term | factor => .binary left operator right

/-- **All tiers**, the loosest first. -/
def all : List Tier := [or, and, equality, comparison, term, factor]

end Tier

namespace Grammar

/-- The operators in front of an operand. -/
def isUnaryOperator (kind : Kind) : Bool := kind == .bang || kind == .minus

variable (eof : Token)

mutual

/-- An assignment, or an expression without one. An assignment to something
other than a name is reported and its left side stands for the whole. -/
def expression (c : Cursor) : Step c.size Expr :=
  (conditional c).andThen fun target c₁ h₁ =>
    match c₁.take? (· == .equal) with
    | none => .ok target c₁ h₁
    | some (equals, ⟨c₂, h₂⟩) =>
      have h₂ := Cursor.shorter_trans h₂ h₁
      ((expression c₂).within h₂).andThen fun value c₃ h₃ =>
        match target with
        | .var _ name => .ok (.assign c₃.nextId name value) c₃.advanceId h₃
        | _ => .ok target (c₃.complain equals .invalidAssignmentTarget) h₃
termination_by (c.size, 6 + Tier.all.length)

/-- A conditional expression, or its condition alone. -/
def conditional (c : Cursor) : Step c.size Expr :=
  (operators Tier.all c).andThen fun condition c₁ h₁ =>
    match c₁.take? (· == .question) with
    | none => .ok condition c₁ h₁
    | some (_, ⟨c₂, h₂⟩) =>
      have h₂ := Cursor.shorter_trans h₂ h₁
      ((expression c₂).within h₂).andThen fun thenBranch c₃ h₃ =>
        ((c₃.expect eof .conditionalColon).within h₃).andThen fun _ c₄ h₄ =>
          ((expression c₄).within h₄).map fun elseBranch =>
            .conditional condition thenBranch elseBranch
termination_by (c.size, 5 + Tier.all.length)

/-- Operators of the given tiers with their operands. -/
def operators (tiers : List Tier) (c : Cursor) : Step c.size Expr :=
  match tiers with
  | [] => unary c
  | tier :: tighter =>
    (operators tighter c).andThen fun left c₁ h₁ => moreOperators tier tighter c left c₁ h₁
termination_by (c.size, 4 + tiers.length)

/-- Further operators of one tier behind a left operand that began at `start`;
there may be none. -/
def moreOperators (tier : Tier) (tighter : List Tier) (start : Cursor) (left : Expr)
    (c : Cursor) (h : c.size < start.size) : Step start.size Expr :=
  match c.take? tier.accepts with
  | none => .ok left c h
  | some (operator, ⟨c₁, h₁⟩) =>
    ((operators tighter c₁).within h₁).andThenFrom h fun right c₂ h₂ =>
      moreOperators tier tighter start (tier.join left operator right) c₂
        (Cursor.shorter_trans h₂ h)
termination_by (c.size, 0)

/-- An operand with the operators in front of it. -/
def unary (c : Cursor) : Step c.size Expr :=
  match c.take? isUnaryOperator with
  | some (operator, ⟨c₁, h₁⟩) => ((unary c₁).within h₁).map (.unary operator)
  | none => call c
termination_by (c.size, 3)

/-- A primary expression with the calls behind it. -/
def call (c : Cursor) : Step c.size Expr :=
  (primary c).andThen fun callee c₁ h₁ => moreCalls c callee c₁ h₁
termination_by (c.size, 2)

/-- Further calls behind a callee that began at `start`; there may be none. -/
def moreCalls (start : Cursor) (callee : Expr) (c : Cursor) (h : c.size < start.size) :
    Step start.size Expr :=
  match c.take? (· == .leftParen) with
  | none => .ok callee c h
  | some (_, ⟨c₁, h₁⟩) =>
    ((arguments c₁).within h₁).andThenFrom h fun (given, paren) c₂ h₂ =>
      moreCalls start (.call callee paren given) c₂ (Cursor.shorter_trans h₂ h)
termination_by (c.size, 0)

/-- The arguments of a call up to the closing parenthesis, which is kept. -/
def arguments (c : Cursor) : Step c.size (List Expr × Token) :=
  match c.take? (· == .rightParen) with
  | some (paren, ⟨c₁, h₁⟩) => .ok ([], paren) c₁ h₁
  | none => someArguments 0 c
termination_by (c.size, 8 + Tier.all.length)

/-- One or more arguments behind `count` others. -/
def someArguments (count : Nat) (c : Cursor) : Step c.size (List Expr × Token) :=
  let c₀ := c.checkCount eof count .tooManyArguments
  have h₀ := Cursor.size_checkCount c eof count .tooManyArguments
  ((expression c₀).relocate h₀).andThen fun first c₁ h₁ =>
    match c₁.take? (· == .comma) with
    | some (_, ⟨c₂, h₂⟩) =>
      have h₂ := Cursor.shorter_trans h₂ h₁
      ((someArguments (count + 1) c₂).within h₂).map fun (others, paren) =>
        (first :: others, paren)
    | none => ((c₁.expect eof .argumentsClose).within h₁).map fun paren => ([first], paren)
termination_by (c.size, 7 + Tier.all.length)

/-- A literal, a name, or an expression in parentheses. -/
def primary (c : Cursor) : Step c.size Expr :=
  match c.next? with
  | none => .fail c eof .expectedExpression
  | some (t, ⟨c₁, h₁⟩) =>
    match t.kind with
    | .falseWord => .ok (.literal (.bool false)) c₁ h₁
    | .trueWord => .ok (.literal (.bool true)) c₁ h₁
    | .nilWord => .ok (.literal .nil) c₁ h₁
    | .number | .string => .ok (.literal (t.literal.getD .nil)) c₁ h₁
    | .identifier => .ok (.var c.nextId t) c₁.advanceId h₁
    | .leftParen =>
      ((expression c₁).within h₁).andThen fun inner c₂ h₂ =>
        ((c₂.expect eof .groupClose).within h₂).map fun _ => .group inner
    | _ => .fail c t .expectedExpression
termination_by (c.size, 1)

end

end Grammar

end Kix
