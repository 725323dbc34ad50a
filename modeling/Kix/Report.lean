import Kix.Syntax.Expectation

/-!
# Reports

Whatever goes wrong with a program is a **problem**, and a problem found
somewhere is a **report**. Reports fall into three classes: *static* ones
(lexical, syntactic and scoping), which keep a program from running; runtime
ones, which end a run; and warnings, which change nothing.
-/

namespace Kix

/-- The causes of reports. -/
inductive Problem where
  | unexpectedCharacter (c : Char)
  | unterminatedString
  | unterminatedComment
  | expected (what : Expectation)
  | expectedExpression
  | invalidAssignmentTarget
  | tooManyParameters
  | tooManyArguments
  | alreadyDeclared
  | readInOwnInitializer
  | returnOutsideFunction
  | unusedVariable
  | invalidUnaryOperator
  | invalidBinaryOperator
  | operandNotNumber
  /-- `+` was given operands, displayed here, that it cannot combine. -/
  | invalidOperands (left right : String)
  /-- A local variable has no cell at its address. -/
  | missingLocal (name : String)
  | undefinedGlobal (name : String)
  | notCallable
  | wrongArgumentCount (arity given : Nat)
  /-- A message worded elsewhere, such as the failure of an output stream. -/
  | other (message : String)
  deriving DecidableEq, Repr

namespace Problem

/-- The wording of a problem. -/
def message : Problem → String
  | unexpectedCharacter c => s!"Unexpected character: {c}"
  | unterminatedString => "Unterminated string."
  | unterminatedComment => "Unterminated block comment."
  | expected what => what.message
  | expectedExpression => "Expect expression."
  | invalidAssignmentTarget => "Invalid assignment target."
  | tooManyParameters => "Can't have more than 255 parameters."
  | tooManyArguments => "Can't have more than 255 arguments."
  | alreadyDeclared => "Variable with this name already declared in this scope."
  | readInOwnInitializer => "Can't read local variable in its own initializer."
  | returnOutsideFunction => "Can't return from outside function."
  | unusedVariable => "Variable defined but not used."
  | invalidUnaryOperator => "Invalid unary operator."
  | invalidBinaryOperator => "Invalid binary operator."
  | operandNotNumber => "Operand must be a number."
  | invalidOperands left right => s!"Invalid operands: {left} and {right} for '+'."
  | missingLocal name => s!"Unable to find variable '{name}'."
  | undefinedGlobal name => s!"Undefined variable '{name}'."
  | notCallable => "Can only call functions."
  | wrongArgumentCount arity given => s!"Expected {arity} arguments but got {given}."
  | other message => message

end Problem

/-- Where in a program a problem was found: the line, and the text of the token
there unless it is the end of the input. -/
structure Place where
  line : Nat
  lexeme : Option String
  deriving DecidableEq, Repr

/-- The place of a token. -/
def Token.place (t : Token) : Place :=
  ⟨t.line, if t.kind = .eof then none else some t.lexeme⟩

/-- The words in which a report names a place. -/
def Place.location (p : Place) : String :=
  match p.lexeme with
  | none => " at end"
  | some lexeme => s!" at '{lexeme}'"

/-- A problem together with the stage that found it and the place it was found
at. -/
inductive Report where
  | lexical (line : Nat) (problem : Problem)
  | syntactic (place : Place) (problem : Problem)
  | scoping (place : Place) (problem : Problem)
  | warning (place : Place) (problem : Problem)
  | runtime (line : Nat) (problem : Problem)
  /-- An output stream failed, for the reason given. -/
  | stream (reason : String)
  deriving DecidableEq, Repr

namespace Report

/-- The wording of the problem alone. -/
def message : Report → String
  | lexical _ p | syntactic _ p | scoping _ p | warning _ p | runtime _ p => p.message
  | stream reason => reason

/-- The line of a report; a failing stream has none. -/
def line? : Report → Option Nat
  | lexical line _ | runtime line _ => some line
  | syntactic place _ | scoping place _ | warning place _ => some place.line
  | stream _ => none

/-- The place of a report, if the stage that made it names tokens. -/
def place? : Report → Option Place
  | syntactic place _ | scoping place _ | warning place _ => some place
  | lexical _ _ | runtime _ _ | stream _ => none

/-- **The text of a report**, as it is written to the error stream. -/
def render : Report → String
  | lexical line p => s!"[line {line}] Error: {p.message}"
  | syntactic place p | scoping place p =>
    s!"[line {place.line}] Error{place.location}: {p.message}"
  | warning place p => s!"[line {place.line}] Warning{place.location}: {p.message}"
  | runtime line p => s!"{p.message}\n[line {line}]"
  | stream reason => s!"I/O error: {reason}"

/-- Static reports keep a program from running. -/
def isStatic : Report → Bool
  | lexical _ _ | syntactic _ _ | scoping _ _ => true
  | warning _ _ | runtime _ _ | stream _ => false

/-- Runtime reports end a run. -/
def isRuntime : Report → Bool
  | runtime _ _ | stream _ => true
  | lexical _ _ | syntactic _ _ | scoping _ _ | warning _ _ => false

end Report

/-! ## The log

A log collects reports until they are written out, and remembers which classes
it has seen. -/

/-- Reports that wait to be written, in the order in which they were made, and
what is remembered of those made before. -/
structure ReportLog where
  pending : List Report := []
  /-- A static report was made since the last `reset`. -/
  hadError : Bool := false
  /-- A runtime report was ever made. -/
  hadRuntimeError : Bool := false
  deriving DecidableEq, Repr

namespace ReportLog

/-- Adding a report. -/
def add (log : ReportLog) (r : Report) : ReportLog where
  pending := log.pending ++ [r]
  hadError := log.hadError || r.isStatic
  hadRuntimeError := log.hadRuntimeError || r.isRuntime

/-- Adding several reports in order. -/
def addAll (log : ReportLog) (rs : List Report) : ReportLog where
  pending := log.pending ++ rs
  hadError := log.hadError || rs.any Report.isStatic
  hadRuntimeError := log.hadRuntimeError || rs.any Report.isRuntime

/-- Forgetting that there were static reports; the pending ones stay. -/
def reset (log : ReportLog) : ReportLog := { log with hadError := false }

/-- Taking out what is pending. -/
def drain (log : ReportLog) : List Report × ReportLog :=
  (log.pending, { log with pending := [] })

/-- **The exit status**: 65 after a static error, else 70 after a runtime
error, else 0. -/
def exitCode (log : ReportLog) : Nat :=
  if log.hadError then 65 else if log.hadRuntimeError then 70 else 0

end ReportLog

end Kix
