import Kix.Proofs.Reading
import Kix.Syntax.StatementGrammar

/-!
# What reading a program does

The readers of statements as rules, in the manner of `Kix.Proofs.Reading`.
`ReadsStatements eof p c ss c'` holds when reading the passage `p` from `c` gives
the statements `ss` and ends at `c'`; a passage that is one statement gives a
list of one.

A declaration that cannot be read is skipped, and an absent statement stands in
its place. That is the only rule under which tokens are lost, and its premise is
that there was a report.
-/

namespace Kix

/-- What is read of a program: all its declarations, one of them, a statement, a
block behind its opening brace, a variable declaration behind its first word, or
the first clause of a `for` loop. -/
inductive Passage where
  | declarations
  | declaration
  | statement
  | block
  | variableTail
  | initializer

/-- Reading parameters behind the given ones, up to the closing parenthesis. -/
inductive ReadsParameters (eof : Token) : List Token → Cursor → List Token → Cursor → Prop where
  | none {c : Cursor} {paren : Token} (sign : paren.kind = .rightParen) :
      ReadsParameters eof [] (c.push paren) [] c
  | last {given : List Token} {c c' : Cursor} {name paren : Token}
      (first : c.checkCount eof given.length .tooManyParameters = (c'.push paren).push name)
      (sign : name.kind = .identifier) (sign' : paren.kind = .rightParen) :
      ReadsParameters eof given c (given ++ [name]) c'
  | more {given all : List Token} {c c₂ c' : Cursor} {name comma : Token}
      (first : c.checkCount eof given.length .tooManyParameters = (c₂.push comma).push name)
      (sign : name.kind = .identifier) (sign' : comma.kind = .comma)
      (others : ReadsParameters eof (given ++ [name]) c₂ all c') :
      ReadsParameters eof given c all c'

/-- Reading an expression that may be missing, with the token that closes it. -/
def ReadsOptional (eof : Token) (closing : Kind) (c : Cursor) (value : Option Expr)
    (c' : Cursor) : Prop :=
  match value with
  | none => ∃ t, t.kind = closing ∧ c = c'.push t
  | some e => ∃ t, t.kind = closing ∧ Reads eof .expression c e (c'.push t)

/-- **The rules of reading statements.** -/
inductive ReadsStatements (eof : Token) : Passage → Cursor → List Stmt → Cursor → Prop where
  | done {c : Cursor} (empty : c.rest = []) : ReadsStatements eof .declarations c [] c
  | next {c c₁ c' : Cursor} {s ss} (first : ReadsStatements eof .declaration c [s] c₁)
      (others : ReadsStatements eof .declarations c₁ ss c') :
      ReadsStatements eof .declarations c (s :: ss) c'
  | function {c c₁ c' : Cursor} {word name opening brace : Token} {params body}
      (kind : word.kind = .funWord) (sign : name.kind = .identifier)
      (sign₁ : opening.kind = .leftParen)
      (list : ReadsParameters eof [] c params (c₁.push brace))
      (sign₂ : brace.kind = .leftBrace) (inner : ReadsStatements eof .block c₁ body c') :
      ReadsStatements eof .declaration (((c.push opening).push name).push word)
        [.function name params body] c'
  | variableDeclaration {c c' : Cursor} {word : Token} {s} (kind : word.kind = .varWord)
      (inner : ReadsStatements eof .variableTail c [s] c') :
      ReadsStatements eof .declaration (c.push word) [s] c'
  | statement {c c' : Cursor} {s} (inner : ReadsStatements eof .statement c [s] c') :
      ReadsStatements eof .declaration c [s] c'
  | skipped {c c₁ : Cursor} (failed : c.Fails c₁) :
      ReadsStatements eof .declaration c [.absent] { c₁ with rest := Cursor.resume c₁.rest }
  | uninitialized {c : Cursor} {name closing : Token} (sign : name.kind = .identifier)
      (sign' : closing.kind = .semicolon) :
      ReadsStatements eof .variableTail ((c.push closing).push name) [.var name .absent] c
  | initialized {c c' : Cursor} {name equals closing : Token} {e}
      (sign : name.kind = .identifier) (sign₁ : equals.kind = .equal)
      (value : Reads eof .expression c e (c'.push closing))
      (sign₂ : closing.kind = .semicolon) :
      ReadsStatements eof .variableTail ((c.push equals).push name) [.var name e] c'
  | noInitializer {c : Cursor} {closing : Token} (sign : closing.kind = .semicolon) :
      ReadsStatements eof .initializer (c.push closing) [.absent] c
  | variableInitializer {c c' : Cursor} {word : Token} {s} (kind : word.kind = .varWord)
      (inner : ReadsStatements eof .variableTail c [s] c') :
      ReadsStatements eof .initializer (c.push word) [s] c'
  | expressionInitializer {c c' : Cursor} {closing : Token} {e}
      (value : Reads eof .expression c e (c'.push closing))
      (sign : closing.kind = .semicolon) :
      ReadsStatements eof .initializer c [.expression e] c'
  | expression {c c' : Cursor} {closing : Token} {e}
      (value : Reads eof .expression c e (c'.push closing))
      (sign : closing.kind = .semicolon) :
      ReadsStatements eof .statement c [.expression e] c'
  | print {c c' : Cursor} {word closing : Token} {e} (kind : word.kind = .printWord)
      (value : Reads eof .expression c e (c'.push closing))
      (sign : closing.kind = .semicolon) :
      ReadsStatements eof .statement (c.push word) [.print e] c'
  | ret {c c' : Cursor} {word : Token} {value} (kind : word.kind = .returnWord)
      (result : ReadsOptional eof .semicolon c value c') :
      ReadsStatements eof .statement (c.push word) [.ret word (value.getD .absent)] c'
  | loop {c c₂ c' : Cursor} {word opening closing : Token} {e s}
      (kind : word.kind = .whileWord) (sign : opening.kind = .leftParen)
      (condition : Reads eof .expression c e (c₂.push closing))
      (sign' : closing.kind = .rightParen) (body : ReadsStatements eof .statement c₂ [s] c') :
      ReadsStatements eof .statement ((c.push opening).push word) [.loop e s] c'
  | branch {c c₂ c' : Cursor} {word opening closing : Token} {e s}
      (kind : word.kind = .ifWord) (sign : opening.kind = .leftParen)
      (condition : Reads eof .expression c e (c₂.push closing))
      (sign' : closing.kind = .rightParen)
      (thenBranch : ReadsStatements eof .statement c₂ [s] c')
      (last : c'.take? (· == .elseWord) = none) :
      ReadsStatements eof .statement ((c.push opening).push word) [.branch e s .absent] c'
  | branchElse {c c₂ c₄ c' : Cursor} {word opening closing other : Token} {e s s'}
      (kind : word.kind = .ifWord) (sign : opening.kind = .leftParen)
      (condition : Reads eof .expression c e (c₂.push closing))
      (sign' : closing.kind = .rightParen)
      (thenBranch : ReadsStatements eof .statement c₂ [s] (c₄.push other))
      (kind' : other.kind = .elseWord)
      (elseBranch : ReadsStatements eof .statement c₄ [s'] c') :
      ReadsStatements eof .statement ((c.push opening).push word) [.branch e s s'] c'
  | forLoop {c c₁ c₂ c₃ c' : Cursor} {word opening : Token} {init condition increment body}
      (kind : word.kind = .forWord) (sign : opening.kind = .leftParen)
      (first : ReadsStatements eof .initializer c [init] c₁)
      (second : ReadsOptional eof .semicolon c₁ condition c₂)
      (third : ReadsOptional eof .rightParen c₂ increment c₃)
      (inner : ReadsStatements eof .statement c₃ [body] c') :
      ReadsStatements eof .statement ((c.push opening).push word)
        [.forLoop init (condition.getD (.literal (.bool true))) (increment.getD .absent) body] c'
  | block {c c' : Cursor} {brace : Token} {body} (kind : brace.kind = .leftBrace)
      (inner : ReadsStatements eof .block c body c') :
      ReadsStatements eof .statement (c.push brace) [.block body] c'
  | blockEnd {c : Cursor} {brace : Token} (kind : brace.kind = .rightBrace) :
      ReadsStatements eof .block (c.push brace) [] c
  | blockNext {c c₁ c' : Cursor} {s ss} (more : c.take? (· == .rightBrace) = none)
      (first : ReadsStatements eof .declaration c [s] c₁)
      (others : ReadsStatements eof .block c₁ ss c') :
      ReadsStatements eof .block c (s :: ss) c'

open Cursor (Advances Fails Passes Breaks)

/-- There is no semicolon in a parameter list, and one that is too long is no fatal report. -/
theorem ReadsParameters.passes {eof : Token} {given all : List Token} {c c' : Cursor}
    (h : ReadsParameters eof given c all c') : c.Passes c' := by
  induction h with
  | none sign => exact .push _ sign (by decide)
  | @last given c c' name paren first sign sign' =>
    have counted : c.Passes _ := .checkCount c eof given.length (p := .tooManyParameters) rfl
    rw [first] at counted
    exact (counted.past sign (by decide)).past sign' (by decide)
  | @more given all c c₂ c' name comma first sign sign' others ih =>
    have counted : c.Passes _ := .checkCount c eof given.length (p := .tooManyParameters) rfl
    rw [first] at counted
    exact ((counted.past sign (by decide)).past sign' (by decide)).trans ih

/-- Reading parameters moves on. -/
theorem ReadsParameters.advances {eof : Token} {given all : List Token} {c c' : Cursor}
    (h : ReadsParameters eof given c all c') : c.Advances c' :=
  h.passes.toAdvances

/-- So does an expression that may be missing: its closing token is read. -/
theorem ReadsOptional.advances {eof : Token} {closing : Kind} {c c' : Cursor}
    {value : Option Expr} (h : ReadsOptional eof closing c value c') : c.Advances c' := by
  match value, h with
  | none, ⟨t, _, heq⟩ => exact heq ▸ .push c' t
  | some e, ⟨t, _, read⟩ => exact read.advances.past

/-- Skipping to the next statement moves on. -/
theorem Cursor.resume_suffix (ts : List Token) : Cursor.resume ts <:+ ts := by
  induction ts with
  | nil => exact List.suffix_refl _
  | cons t rest ih =>
    rw [Cursor.resume]
    split
    · exact List.suffix_cons t rest
    · exact ih.trans (List.suffix_cons t rest)

/-- Reading statements moves on. -/
theorem ReadsStatements.advances {eof : Token} {p : Passage} {c c' : Cursor} {ss : List Stmt}
    (h : ReadsStatements eof p c ss c') : c.Advances c' := by
  induction h with
  | done => exact .refl _
  | next _ _ ih ih' | blockNext _ _ _ ih ih' => exact ih.trans ih'
  | function _ _ _ list _ _ ih =>
    exact (Advances.refl _).past.past.past.trans (list.advances.past.trans ih)
  | variableDeclaration _ _ ih | variableInitializer _ _ ih | block _ _ ih =>
    exact (Advances.push _ _).trans ih
  | statement _ ih => exact ih
  | skipped failed =>
    exact failed.toAdvances.trans
      ⟨Cursor.resume_suffix _, Nat.le_refl _, List.suffix_refl _, fun _ => .inl⟩
  | uninitialized => exact (Advances.refl _).past.past
  | initialized _ _ value => exact (Advances.refl _).past.past.trans value.advances.past
  | noInitializer | blockEnd => exact .push _ _
  | expressionInitializer value | expression value => exact value.advances.past
  | print _ value => exact (Advances.push _ _).trans value.advances.past
  | ret _ result => exact (Advances.push _ _).trans result.advances
  | loop _ _ condition _ _ ih =>
    exact (Advances.refl _).past.past.trans (condition.advances.past.trans ih)
  | branch _ _ condition _ _ _ ih =>
    exact (Advances.refl _).past.past.trans (condition.advances.past.trans ih)
  | branchElse _ _ condition _ _ _ _ ih ih' =>
    exact (Advances.refl _).past.past.trans (condition.advances.past.trans (ih.past.trans ih'))
  | forLoop _ _ _ second third _ ih ih' =>
    exact (Advances.refl _).past.past.trans
      (ih.trans (second.advances.trans (third.advances.trans ih')))

/-! ## The readers follow the rules -/

namespace Grammar

variable (eof : Token)

/-- An expression and the token behind it, or a break in one of them. -/
theorem closedExpression_outcome (c : Cursor) (closing : Expectation) :
    (closedExpression eof c closing).Spec
      (fun e c' => ∃ t, t.kind = closing.kind ∧ Reads eof .expression c e (c'.push t))
      c.Breaks := by
  unfold closedExpression
  refine (expression_outcome eof c).andThen fun e c₁ h₁ value => ?_
  refine .map (.within (.mono (c₁.expect_outcome eof closing) ?_
    fun _ => Breaks.after value.passes) h₁)
  rintro t c₂ ⟨rfl, sign⟩
  exact ⟨t, sign, value⟩

/-- An expression that may be missing. -/
theorem optional_outcome (c : Cursor) (closing : Expectation) :
    (optional eof c closing).Spec (ReadsOptional eof closing.kind c) c.Breaks := by
  unfold optional
  split
  · refine .map (.mono (c.expect_outcome eof closing) ?_ fun _ => id)
    rintro t c₁ ⟨rfl, sign⟩
    exact ⟨t, sign, rfl⟩
  · refine (expression_outcome eof c).andThen fun e c₁ h₁ value => ?_
    refine .map (.within (.mono (c₁.expect_outcome eof closing) ?_
      fun _ => Breaks.after value.passes) h₁)
    rintro t c₂ ⟨rfl, sign⟩
    exact ⟨t, sign, value⟩

/-- A variable declaration behind its first word, with its initializer or without. -/
theorem variableDeclaration_outcome (c : Cursor) :
    (variableDeclaration eof c).Spec (fun s => ReadsStatements eof .variableTail c [s])
      c.Breaks := by
  unfold variableDeclaration
  refine (c.expect_outcome eof .variableName).andThen fun name c₁ h₁ sign => ?_
  obtain ⟨rfl, sign⟩ := sign
  rcases take?_cases c₁ (· == .equal) with hnone | ⟨equals, c₂, h₂, hsome, rfl, sign₁⟩
  · rw [hnone]
    refine .map (.within (.mono (c₁.expect_outcome eof .variableEnd) ?_
      fun _ => Breaks.after (.push c₁ sign (by decide))) h₁)
    rintro closing c₂ ⟨rfl, sign'⟩
    exact .uninitialized sign sign'
  · rw [hsome]
    have passed : ((c₂.push equals).push name).Passes c₂ :=
      (Passes.push _ sign (by decide)).past (eq_of_beq sign₁) (by decide)
    refine .map (.within (.mono (closedExpression_outcome eof c₂ .variableEnd) ?_
      fun _ => Breaks.after passed) _)
    rintro e c₃ ⟨closing, sign₂, value⟩
    exact .initialized sign (eq_of_beq sign₁) value sign₂

theorem expressionStatement_outcome (c : Cursor) :
    (expressionStatement eof c).Spec (fun s => ReadsStatements eof .statement c [s]) c.Breaks := by
  refine .map (.mono (closedExpression_outcome eof c .expressionEnd) ?_ fun _ => id)
  rintro e c₁ ⟨closing, sign, value⟩
  exact .expression value sign

/-- The reader of parameters behind others gives the parameters it read, the
rules all of them. -/
theorem someParameters_outcome (given : List Token) (c : Cursor) :
    (someParameters eof given.length c).Spec
      (fun others => ReadsParameters eof given c (given ++ others)) c.Breaks := by
  rw [someParameters]
  have hsize := Cursor.size_checkCount c eof given.length .tooManyParameters
  have counted : c.Passes _ := .checkCount c eof given.length (p := .tooManyParameters) rfl
  have first := ((c.checkCount eof given.length .tooManyParameters).expect_outcome eof
    .parameterName).mono (fun _ _ => id) fun _ => Breaks.after counted
  refine (first.relocate hsize).andThen fun name c₁ h₁ first => ?_
  obtain ⟨first, sign⟩ := first
  have moved : c.Passes c₁ := (first ▸ counted).past sign (by decide)
  rcases take?_cases c₁ (· == .comma) with hnone | ⟨comma, c₂, h₂, hsome, rfl, sign'⟩
  · rw [hnone]
    refine .map (.within (.mono (c₁.expect_outcome eof .parametersClose) ?_
      fun _ => Breaks.after moved) h₁)
    rintro paren c₂ ⟨rfl, sign'⟩
    exact .last first sign sign'
  · rw [hsome]
    have hlt := Cursor.shorter_trans h₂ h₁
    have others := someParameters_outcome (given ++ [name]) c₂
    rw [List.length_append] at others
    refine .map (.within (others.mono ?_
      fun _ => Breaks.after (moved.past (eq_of_beq sign') (by decide))) hlt)
    intro others c₃ more
    rw [List.append_assoc] at more
    exact .more first sign (eq_of_beq sign') more
termination_by c.size

/-- Parameters up to the closing parenthesis. -/
theorem parameters_outcome (c : Cursor) :
    (parameters eof c).Spec (ReadsParameters eof [] c) c.Breaks := by
  unfold parameters
  rcases take?_cases c (· == .rightParen) with hnone | ⟨paren, c₁, h₁, hsome, rfl, sign⟩
  · rw [hnone]
    exact someParameters_outcome eof [] c
  · rw [hsome]
    exact .none (eq_of_beq sign)

theorem closedExpression_spec (c : Cursor) (closing : Expectation) :
    (closedExpression eof c closing).Spec
      (fun e c' => ∃ t, t.kind = closing.kind ∧ Reads eof .expression c e (c'.push t))
      c.Fails :=
  (closedExpression_outcome eof c closing).fails

theorem optional_spec (c : Cursor) (closing : Expectation) :
    (optional eof c closing).Spec (ReadsOptional eof closing.kind c) c.Fails :=
  (optional_outcome eof c closing).fails

theorem variableDeclaration_spec (c : Cursor) :
    (variableDeclaration eof c).Spec (fun s => ReadsStatements eof .variableTail c [s])
      c.Fails :=
  (variableDeclaration_outcome eof c).fails

theorem expressionStatement_spec (c : Cursor) :
    (expressionStatement eof c).Spec (fun s => ReadsStatements eof .statement c [s]) c.Fails :=
  (expressionStatement_outcome eof c).fails

theorem parameters_spec (c : Cursor) :
    (parameters eof c).Spec (ReadsParameters eof [] c) c.Fails :=
  (parameters_outcome eof c).fails

/-- What stands first in a `for` loop. A declaration there is told by its first word. -/
theorem forInitializer_spec (c : Cursor) :
    (forInitializer eof c).Spec (fun s => ReadsStatements eof .initializer c [s]) c.Fails := by
  unfold forInitializer
  rcases take?_cases c (· == .semicolon) with hnone | ⟨closing, c₁, h₁, hsome, rfl, sign⟩
  · rw [hnone]
    dsimp only
    rcases take?_cases c (· == .varWord) with hnone | ⟨word, c₁, h₁, hsome, rfl, sign⟩
    · rw [hnone]
      refine .map (.mono (closedExpression_spec eof c .expressionEnd) ?_ fun _ => id)
      rintro e c₁ ⟨closing, sign, value⟩
      exact .expressionInitializer value sign
    · rw [hsome]
      exact ((variableDeclaration_spec eof c₁).mono
        (fun _ _ => .variableInitializer (eq_of_beq sign))
        fun _ => Fails.after (.push c₁ word)).within h₁
  · rw [hsome]
    exact .noInitializer (eq_of_beq sign)

/-- A declaration is read, or skipped after a failure. -/
theorem orResume_spec {c : Cursor} (nonempty : c.rest ≠ []) {x : Step c.size Stmt}
    (h : x.Spec (fun s => ReadsStatements eof .declaration c [s]) c.Fails) :
    ReadsStatements eof .declaration c [(c.orResume nonempty x .absent).1]
      (c.orResume nonempty x .absent).2.1 := by
  cases x with
  | ok s c' hlt => exact h
  | failed c' hle => exact .skipped h

mutual

/-- **A statement**, by the kind of its first token. -/
theorem statement_spec (c : Cursor) :
    (statement eof c).Spec (fun s => ReadsStatements eof .statement c [s]) c.Fails := by
  rw [statement]
  rcases found : c.next? with _ | ⟨t, c₁, h₁⟩
  · exact expressionStatement_spec eof c
  · obtain rfl := Cursor.eq_push_of_next? found
    dsimp only
    have behind {c' : Cursor} : c₁.Fails c' → (c₁.push t).Fails c' := Fails.after (.push c₁ t)
    split
    case h_1 kind =>
      exact ((forStatement_spec t kind c₁).mono (fun _ _ => id) fun _ => behind).within h₁
    case h_2 kind =>
      exact ((ifStatement_spec t kind c₁).mono (fun _ _ => id) fun _ => behind).within h₁
    case h_3 kind =>
      refine .map (.within (.mono (closedExpression_spec eof c₁ .printEnd) ?_ fun _ => behind) h₁)
      rintro e c₂ ⟨closing, sign, value⟩
      exact .print kind value sign
    case h_4 kind =>
      exact .map (.within ((optional_spec eof c₁ .returnEnd).mono (fun _ _ => .ret kind)
        fun _ => behind) h₁)
    case h_5 kind =>
      exact ((whileStatement_spec t kind c₁).mono (fun _ _ => id) fun _ => behind).within h₁
    case h_6 kind =>
      exact .map (.within ((block_spec c₁).mono (fun _ _ => .block kind) fun _ => behind) h₁)
    case h_7 => exact expressionStatement_spec eof (c₁.push t)
termination_by (c.size, 1)

/-- A `for` loop behind its first word. -/
theorem forStatement_spec (word : Token) (kind : word.kind = .forWord) (c : Cursor) :
    (forStatement eof c).Spec (fun s => ReadsStatements eof .statement (c.push word) [s])
      c.Fails := by
  rw [forStatement]
  refine (c.expect_spec eof .forOpen).andThen fun opening c₁ h₁ sign => ?_
  obtain ⟨rfl, sign⟩ := sign
  have moved₁ := Advances.push c₁ opening
  have first := (forInitializer_spec eof c₁).mono (fun _ _ => id) fun _ => Fails.after moved₁
  refine (first.within h₁).andThen fun init c₂ h₂ first => ?_
  have moved₂ := moved₁.trans first.advances
  have second := (optional_spec eof c₂ .forConditionEnd).mono (fun _ _ => id)
    fun _ => Fails.after moved₂
  refine (second.within h₂).andThen fun condition c₃ h₃ second => ?_
  have moved₃ := moved₂.trans second.advances
  have third := (optional_spec eof c₃ .forClose).mono (fun _ _ => id) fun _ => Fails.after moved₃
  refine (third.within h₃).andThen fun increment c₄ h₄ third => ?_
  have moved₄ := moved₃.trans third.advances
  exact .map (.within ((statement_spec c₄).mono (fun _ _ => .forLoop kind sign first second third)
    fun _ => Fails.after moved₄) h₄)
termination_by (c.size, 0)

/-- An `if` statement behind its first word. An `else` that is next belongs to it. -/
theorem ifStatement_spec (word : Token) (kind : word.kind = .ifWord) (c : Cursor) :
    (ifStatement eof c).Spec (fun s => ReadsStatements eof .statement (c.push word) [s])
      c.Fails := by
  rw [ifStatement]
  refine (c.expect_spec eof .ifOpen).andThen fun opening c₁ h₁ sign => ?_
  obtain ⟨rfl, sign⟩ := sign
  have moved₁ := Advances.push c₁ opening
  have condition := (closedExpression_spec eof c₁ .ifClose).mono (fun _ _ => id)
    fun _ => Fails.after moved₁
  refine (condition.within h₁).andThen fun e c₂ h₂ condition => ?_
  obtain ⟨closing, sign', condition⟩ := condition
  have moved₂ := moved₁.trans condition.advances.past
  have thenBranch := (statement_spec c₂).mono (fun _ _ => id) fun _ => Fails.after moved₂
  refine (thenBranch.within h₂).andThen fun s c₃ h₃ thenBranch => ?_
  have moved₃ := moved₂.trans thenBranch.advances
  rcases take?_cases c₃ (· == .elseWord) with hnone | ⟨other, c₄, h₄, hsome, rfl, kind'⟩
  · rw [hnone]
    exact .branch kind sign condition sign' thenBranch hnone
  · rw [hsome]
    have hlt := Cursor.shorter_trans h₄ h₃
    exact .map (.within ((statement_spec c₄).mono
      (fun _ _ => .branchElse kind sign condition sign' thenBranch (eq_of_beq kind'))
      fun _ => Fails.after moved₃.past) hlt)
termination_by (c.size, 0)

/-- A `while` loop behind its first word. -/
theorem whileStatement_spec (word : Token) (kind : word.kind = .whileWord) (c : Cursor) :
    (whileStatement eof c).Spec (fun s => ReadsStatements eof .statement (c.push word) [s])
      c.Fails := by
  rw [whileStatement]
  refine (c.expect_spec eof .whileOpen).andThen fun opening c₁ h₁ sign => ?_
  obtain ⟨rfl, sign⟩ := sign
  have moved₁ := Advances.push c₁ opening
  have condition := (closedExpression_spec eof c₁ .whileClose).mono (fun _ _ => id)
    fun _ => Fails.after moved₁
  refine (condition.within h₁).andThen fun e c₂ h₂ condition => ?_
  obtain ⟨closing, sign', condition⟩ := condition
  exact .map (.within ((statement_spec c₂).mono (fun _ _ => .loop kind sign condition sign')
    fun _ => Fails.after (moved₁.trans condition.advances.past)) h₂)
termination_by (c.size, 0)

/-- The declarations up to the brace that closes a block. -/
theorem block_spec (c : Cursor) :
    (block eof c).Spec (ReadsStatements eof .block c) c.Fails := by
  rw [block]
  split
  · exact Fails.complain c _ _
  · next nonempty =>
    rcases take?_cases c (· == .rightBrace) with hnone | ⟨brace, c₁, h₁, hsome, rfl, sign⟩
    · rw [if_neg (by simp [Cursor.sees_eq_isSome_take?, hnone])]
      have first := declaration_spec c nonempty
      have moved := first.advances
      have hlt := (declaration eof c nonempty).2.2
      exact .map (.within ((block_spec (declaration eof c nonempty).2.1).mono
        (fun _ _ => .blockNext hnone first) fun _ => Fails.after moved) hlt)
    · rw [if_pos (by simp [Cursor.sees_eq_isSome_take?, hsome])]
      refine .map (.mono ((c₁.push brace).expect_spec eof .blockClose) ?_ fun _ => id)
      rintro t c₂ ⟨heq, kind⟩
      rw [heq]
      exact .blockEnd kind
termination_by (c.size, 3)

/-- A function declaration behind its first word. -/
theorem functionDeclaration_spec (word : Token) (kind : word.kind = .funWord) (c : Cursor) :
    (functionDeclaration eof c).Spec
      (fun s => ReadsStatements eof .declaration (c.push word) [s]) c.Fails := by
  rw [functionDeclaration]
  refine (c.expect_spec eof .functionName).andThen fun name c₁ h₁ sign => ?_
  obtain ⟨rfl, sign⟩ := sign
  have paren := (c₁.expect_spec eof .functionOpen).mono (fun _ _ => id)
    fun _ => Fails.after (.push c₁ name)
  refine (paren.within h₁).andThen fun opening c₂ h₂ sign₁ => ?_
  obtain ⟨rfl, sign₁⟩ := sign₁
  have moved₂ : ((c₂.push opening).push name).Advances c₂ := (Advances.refl _).past.past
  have list := (parameters_spec eof c₂).mono (fun _ _ => id) fun _ => Fails.after moved₂
  refine (list.within h₂).andThen fun params c₃ h₃ list => ?_
  have moved₃ := moved₂.trans list.advances
  have bodyOpen := (c₃.expect_spec eof .bodyOpen).mono (fun _ _ => id) fun _ => Fails.after moved₃
  refine (bodyOpen.within h₃).andThen fun brace c₄ h₄ sign₂ => ?_
  obtain ⟨rfl, sign₂⟩ := sign₂
  exact .map (.within ((block_spec c₄).mono (fun _ _ => .function kind sign sign₁ list sign₂)
    fun _ => Fails.after moved₃.past) h₄)
termination_by (c.size, 0)

/-- **A declaration is read in any case**: one that fails is skipped, and stands as
nothing. -/
theorem declaration_spec (c : Cursor) (nonempty : c.rest ≠ []) :
    ReadsStatements eof .declaration c [(declaration eof c nonempty).1]
      (declaration eof c nonempty).2.1 := by
  rw [declaration]
  refine orResume_spec eof nonempty ?_
  rcases take?_cases c (· == .funWord) with hnone | ⟨word, c₁, h₁, hsome, rfl, kind⟩
  · rw [hnone]
    dsimp only
    rcases take?_cases c (· == .varWord) with hnone | ⟨word, c₁, h₁, hsome, rfl, kind⟩
    · rw [hnone]
      exact (statement_spec c).mono (fun _ _ => .statement) fun _ => id
    · rw [hsome]
      exact ((variableDeclaration_spec eof c₁).mono
        (fun _ _ => .variableDeclaration (eq_of_beq kind))
        fun _ => Fails.after (.push c₁ word)).within h₁
  · rw [hsome]
    exact ((functionDeclaration_spec word (eq_of_beq kind) c₁).mono (fun _ _ => id)
      fun _ => Fails.after (.push c₁ word)).within h₁
termination_by (c.size, 2)

end

theorem declarations_of_empty {c : Cursor} (empty : c.rest = []) : declarations eof c = ([], c) := by
  rw [declarations, dif_pos empty]

/-- As long as there are tokens, a declaration is read and then the others. -/
theorem declarations_of_nonempty {c : Cursor} (nonempty : c.rest ≠ []) :
    declarations eof c = ((declaration eof c nonempty).1 ::
      (declarations eof (declaration eof c nonempty).2.1).1,
      (declarations eof (declaration eof c nonempty).2.1).2) := by
  rw [declarations, dif_neg nonempty]

/-- **All declarations up to the end of the input.** -/
theorem declarations_spec (c : Cursor) :
    ReadsStatements eof .declarations c (declarations eof c).1 (declarations eof c).2 := by
  rw [declarations]
  split
  · next empty => exact .done empty
  · next nonempty =>
    have hlt := (declaration eof c nonempty).2.2
    exact .next (declaration_spec eof c nonempty)
      (declarations_spec (declaration eof c nonempty).2.1)
termination_by c.size

end Grammar

/-- Tokens with a mark of the end among them have a first one. -/
theorem exists_find?_eof {ts : List Token} (closed : ∃ t ∈ ts, t.kind = .eof) :
    ∃ eof, ts.find? (·.kind == .eof) = some eof := by
  obtain ⟨t, mem, isEof⟩ := closed
  exact Option.isSome_iff_exists.1 (List.find?_isSome.2 ⟨t, mem, beq_iff_eq.2 isEof⟩)

/-- **Reading a program follows the rules**, from all the tokens in front of the
end of the input. -/
theorem parse_reads (ts : List Token) (firstId : Nat) :
    ∃ c' : Cursor, ReadsStatements (endToken ts) .declarations
        ⟨ts.takeWhile (·.kind != .eof), firstId, []⟩ (parse ts firstId).program c' ∧
      (parse ts firstId).nextId = c'.nextId ∧ (parse ts firstId).reports = c'.reports.reverse :=
  ⟨_, Grammar.declarations_spec _ _, rfl, rfl⟩

end Kix
