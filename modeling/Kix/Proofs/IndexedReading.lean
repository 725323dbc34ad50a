import Kix.Proofs.IndexedPositions

/-!
# Reading by index gives the same

The readers of `Kix.Proofs.IndexedGrammar` may leave the tokens, or never end; those of
`Kix.Grammar` cannot. They do the same: a reader by index ends with what the reader over lists
gives. The lemmas `Tape.expression_mirrors` to `Tape.declarations_ends` say so of one reader
each, by induction on the number of tokens that are left.

From this follows what the parser does with any list of tokens, however many marks of the end
it has and wherever they are: it ends, within the tokens, and leaves none of them out
(`parsing_ends_within_tokens`).
-/

namespace Kix.Indexed

namespace Tape

variable (T : Tape)

/-! ## Expressions -/

mutual

/-- An assignment. The name on its left is read as a condition first, on both sides. -/
theorem expression_mirrors (c : Cursor) (h : T.Holds c) :
    T.Mirrors (Grammar.expression T.eof c) (expression T.tokens) (T.position c) := by
  refine .deeper ?_
  rw [Grammar.expression]
  simp only [expression]
  refine (conditional_mirrors c h).andThen fun target c₁ h₁ holds₁ => ?_
  rcases Grammar.take?_cases c₁ (· == .equal) with hnone | ⟨equals, c₂, h₂, hsome, rfl, sign⟩
  · rw [hnone]
    exact .refused holds₁ hnone (.done holds₁)
  · rw [hsome]
    refine .accepted holds₁ sign (.after (outcome_previous holds₁) ?_)
    have hlt := Cursor.shorter_trans h₂ h₁
    refine ((expression_mirrors c₂ holds₁.of_push).within hlt).andThen fun value c₃ h₃ holds₃ => ?_
    cases target <;> exact .ok holds₃ (.of_outcome rfl)
termination_by (c.size, 6 + Tier.all.length)

/-- A conditional expression, whose colon is expected behind the first branch. -/
theorem conditional_mirrors (c : Cursor) (h : T.Holds c) :
    T.Mirrors (Grammar.conditional T.eof c) (conditional T.tokens) (T.position c) := by
  refine .deeper ?_
  rw [Grammar.conditional]
  simp only [conditional]
  refine (operators_mirrors Tier.all c h).andThen fun condition c₁ h₁ holds₁ => ?_
  rcases Grammar.take?_cases c₁ (· == .question) with hnone | ⟨mark, c₂, h₂, hsome, rfl, sign⟩
  · rw [hnone]
    exact .refused holds₁ hnone (.done holds₁)
  · rw [hsome]
    refine .accepted holds₁ sign ?_
    have hlt := Cursor.shorter_trans h₂ h₁
    refine ((expression_mirrors c₂ holds₁.of_push).within hlt).andThen
      fun thenBranch c₃ h₃ holds₃ => ?_
    refine ((expect_mirrors holds₃ .conditionalColon).within h₃).andThen
      fun colon c₄ h₄ holds₄ => ?_
    exact ((expression_mirrors c₄ holds₄).within h₄).map
termination_by (c.size, 5 + Tier.all.length)

/-- Operators by tiers, the loosest first. -/
theorem operators_mirrors (tiers : List Tier) (c : Cursor) (h : T.Holds c) :
    T.Mirrors (Grammar.operators T.eof tiers c) (fun depth => operators T.tokens depth tiers)
      (T.position c) := by
  refine .deeper ?_
  rw [Grammar.operators.eq_def]
  match tiers with
  | [] =>
    simp only [operators]
    exact unary_mirrors c h
  | tier :: tighter =>
    simp only [operators]
    exact (operators_mirrors tighter c h).andThen fun left c₁ h₁ holds₁ =>
      moreOperators_mirrors tier tighter c left c₁ h₁ holds₁
termination_by (c.size, 4 + tiers.length)

/-- A chain of operators of one tier, for which the index goes on from the last operand. -/
theorem moreOperators_mirrors (tier : Tier) (tighter : List Tier) (start : Cursor) (left : Expr)
    (c : Cursor) (shorter : c.size < start.size) (h : T.Holds c) :
    T.Mirrors (Grammar.moreOperators T.eof tier tighter start left c shorter)
      (fun depth => moreOperators T.tokens depth tier tighter left) (T.position c) := by
  refine .deeper ?_
  rw [Grammar.moreOperators]
  simp only [moreOperators]
  rcases Grammar.take?_cases c tier.accepts with hnone | ⟨operator, c₁, h₁, hsome, rfl, sign⟩
  · rw [hnone]
    exact .refused h hnone (.done h)
  · rw [hsome]
    refine .accepted h sign (.after (outcome_previous h) ?_)
    refine ((operators_mirrors tighter c₁ h.of_push).within h₁).andThenFrom
      fun right c₂ h₂ holds₂ => ?_
    exact moreOperators_mirrors tier tighter start _ c₂ _ holds₂
termination_by (c.size, 0)

/-- Operators in front of an operand, and then a call. -/
theorem unary_mirrors (c : Cursor) (h : T.Holds c) :
    T.Mirrors (Grammar.unary T.eof c) (unary T.tokens) (T.position c) := by
  refine .deeper ?_
  rw [Grammar.unary]
  simp only [unary]
  rcases Grammar.take?_cases c Grammar.isUnaryOperator with
    hnone | ⟨operator, c₁, h₁, hsome, rfl, sign⟩
  · rw [hnone]
    exact .refused h hnone (call_mirrors c h)
  · rw [hsome]
    refine .accepted h sign (.after (outcome_previous h) ?_)
    exact ((unary_mirrors c₁ h.of_push).within h₁).map
termination_by (c.size, 3)

/-- What is called, with its argument lists behind it. -/
theorem call_mirrors (c : Cursor) (h : T.Holds c) :
    T.Mirrors (Grammar.call T.eof c) (call T.tokens) (T.position c) := by
  refine .deeper ?_
  rw [Grammar.call]
  simp only [call]
  exact (primary_mirrors c h).andThen fun callee c₁ h₁ holds₁ =>
    moreCalls_mirrors c callee c₁ h₁ holds₁
termination_by (c.size, 2)

/-- Argument lists, as long as a parenthesis opens. -/
theorem moreCalls_mirrors (start : Cursor) (callee : Expr) (c : Cursor)
    (shorter : c.size < start.size) (h : T.Holds c) :
    T.Mirrors (Grammar.moreCalls T.eof start callee c shorter)
      (fun depth => moreCalls T.tokens depth callee) (T.position c) := by
  refine .deeper ?_
  rw [Grammar.moreCalls]
  simp only [moreCalls]
  rcases Grammar.take?_cases c (· == .leftParen) with hnone | ⟨opening, c₁, h₁, hsome, rfl, sign⟩
  · rw [hnone]
    exact .refused h hnone (.done h)
  · rw [hsome]
    refine .accepted h sign ?_
    refine ((arguments_mirrors c₁ h.of_push).within h₁).andThenFrom
      fun (given, paren) c₂ h₂ holds₂ => ?_
    exact moreCalls_mirrors start _ c₂ _ holds₂
termination_by (c.size, 0)

/-- Arguments up to the closing parenthesis, or none. -/
theorem arguments_mirrors (c : Cursor) (h : T.Holds c) :
    T.Mirrors (Grammar.arguments T.eof c) (arguments T.tokens) (T.position c) := by
  refine .deeper ?_
  rw [Grammar.arguments]
  simp only [arguments]
  refine .after (outcome_check h _) ?_
  rcases Grammar.take?_cases c (· == .rightParen) with hnone | ⟨paren, c₁, h₁, hsome, rfl, sign⟩
  · rw [hnone]
    exact someArguments_mirrors 0 c h
  · have closes : paren.kind = Expectation.argumentsClose.kind := eq_of_beq sign
    rw [hsome]
    exact .after (outcome_expect h closes) (.done h.of_push)
termination_by (c.size, 8 + Tier.all.length)

/-- Arguments behind the first `count` ones, each of them counted before it is read. -/
theorem someArguments_mirrors (count : Nat) (c : Cursor) (h : T.Holds c) :
    T.Mirrors (Grammar.someArguments T.eof count c)
      (fun depth => someArguments T.tokens depth count) (T.position c) := by
  refine .deeper ?_
  rw [Grammar.someArguments]
  simp only [someArguments]
  refine .after (outcome_checkCount h count .tooManyArguments) ?_
  have hsize := Cursor.size_checkCount c T.eof count .tooManyArguments
  have holds : T.Holds (c.checkCount T.eof count .tooManyArguments) := by
    rwa [Holds, Cursor.rest_checkCount]
  refine ((expression_mirrors _ holds).relocate hsize).andThen fun first c₁ h₁ holds₁ => ?_
  rcases Grammar.take?_cases c₁ (· == .comma) with hnone | ⟨comma, c₂, h₂, hsome, rfl, sign⟩
  · rw [hnone]
    exact .refused holds₁ hnone ((expect_mirrors holds₁ .argumentsClose).within h₁).map
  · rw [hsome]
    have hlt := Cursor.shorter_trans h₂ h₁
    exact .accepted holds₁ sign
      ((someArguments_mirrors (count + 1) c₂ holds₁.of_push).within hlt).map
termination_by (c.size, 7 + Tier.all.length)

/-- Literals, names and groups, by the kind of the next token. Anything else fails where it
stands. -/
theorem primary_mirrors (c : Cursor) (h : T.Holds c) :
    T.Mirrors (Grammar.primary T.eof c) (primary T.tokens) (T.position c) := by
  refine .deeper ?_
  rw [Grammar.primary]
  simp only [primary]
  rcases found : c.next? with _ | ⟨t, c₁, h₁⟩
  · have none (accepts : Kind → Bool) : c.take? accepts = none := by rw [Cursor.take?, found]; rfl
    iterate 6 refine .refused h (none _) ?_
    obtain ⟨_ | ⟨t, rest⟩, nextId, reports⟩ := c
    · exact fail_mirrors h _
    · cases found
  · obtain rfl := Cursor.eq_push_of_next? found
    dsimp only
    refine .choose h (fun kind => ?_) fun notFalse => ?_
    · rw [eq_of_beq kind]
      exact .done h.of_push
    refine .choose h (fun kind => ?_) fun notTrue => ?_
    · rw [eq_of_beq kind]
      exact .done h.of_push
    refine .choose h (fun kind => ?_) fun notNil => ?_
    · rw [eq_of_beq kind]
      exact .done h.of_push
    refine .choose h (fun kind => .after (outcome_previous h) ?_) fun notLiteral => ?_
    · rcases Bool.or_eq_true_iff.1 kind with kind | kind <;> rw [eq_of_beq kind] <;>
        exact .done h.of_push
    refine .choose h (fun kind => .after (outcome_previous h) ?_) fun notName => ?_
    · rw [eq_of_beq kind]
      exact .ok h.of_push (.of_outcome rfl)
    refine .choose h (fun kind => ?_) fun notParen => ?_
    · rw [eq_of_beq kind]
      refine ((expression_mirrors c₁ h.of_push).within h₁).andThen fun inner c₂ h₂ holds₂ => ?_
      exact ((expect_mirrors holds₂ .groupClose).within h₂).map
    split
    case h_8 => exact fail_mirrors h _
    all_goals
      next kind => simp [kind] at notFalse notTrue notNil notLiteral notName notParen
termination_by (c.size, 1)

end

/-! ## Statements -/

/-- An expression that may be missing in front of a closing token. -/
theorem optional_mirrors (c : Cursor) (h : T.Holds c) (closing : Expectation) :
    T.Mirrors (Grammar.optional T.eof c closing) (fun depth => optional T.tokens depth closing)
      (T.position c) := by
  unfold Grammar.optional
  refine .after (outcome_check h _) ?_
  rw [← Cursor.sees_eq_isSome_take?]
  split
  · exact (expect_mirrors h closing).map
  · refine (expression_mirrors T c h).andThen fun value c₁ h₁ holds₁ => ?_
    exact ((expect_mirrors holds₁ closing).within h₁).map

theorem closedExpression_mirrors (c : Cursor) (h : T.Holds c) (closing : Expectation) :
    T.Mirrors (Grammar.closedExpression T.eof c closing)
      (fun depth => closedExpression T.tokens depth closing) (T.position c) := by
  unfold Grammar.closedExpression
  refine (expression_mirrors T c h).andThen fun value c₁ h₁ holds₁ => ?_
  exact ((expect_mirrors holds₁ closing).within h₁).map

/-- A variable declaration behind its first word. -/
theorem variableDeclaration_mirrors (c : Cursor) (h : T.Holds c) :
    T.Mirrors (Grammar.variableDeclaration T.eof c) (variableDeclaration T.tokens)
      (T.position c) := by
  unfold Grammar.variableDeclaration
  refine (expect_mirrors h .variableName).andThen fun name c₁ h₁ holds₁ => ?_
  rcases Grammar.take?_cases c₁ (· == .equal) with hnone | ⟨equals, c₂, h₂, hsome, rfl, sign⟩
  · rw [hnone]
    exact .refused holds₁ hnone ((expect_mirrors holds₁ .variableEnd).within h₁).map
  · rw [hsome]
    have hlt := Cursor.shorter_trans h₂ h₁
    exact .accepted holds₁ sign
      ((closedExpression_mirrors T c₂ holds₁.of_push .variableEnd).within hlt).map

theorem expressionStatement_mirrors (c : Cursor) (h : T.Holds c) :
    T.Mirrors (Grammar.expressionStatement T.eof c) (expressionStatement T.tokens)
      (T.position c) :=
  (closedExpression_mirrors T c h .expressionEnd).map

/-- Parameters behind the first `count` ones. -/
theorem someParameters_mirrors (count : Nat) (c : Cursor) (h : T.Holds c) :
    T.Mirrors (Grammar.someParameters T.eof count c)
      (fun depth => someParameters T.tokens depth count) (T.position c) := by
  refine .deeper ?_
  rw [Grammar.someParameters]
  simp only [someParameters]
  refine .after (outcome_checkCount h count .tooManyParameters) ?_
  have hsize := Cursor.size_checkCount c T.eof count .tooManyParameters
  have holds : T.Holds (c.checkCount T.eof count .tooManyParameters) := by
    rwa [Holds, Cursor.rest_checkCount]
  refine ((expect_mirrors holds .parameterName).relocate hsize).andThen
    fun first c₁ h₁ holds₁ => ?_
  rcases Grammar.take?_cases c₁ (· == .comma) with hnone | ⟨comma, c₂, h₂, hsome, rfl, sign⟩
  · rw [hnone]
    exact .refused holds₁ hnone ((expect_mirrors holds₁ .parametersClose).within h₁).map
  · rw [hsome]
    have hlt := Cursor.shorter_trans h₂ h₁
    exact .accepted holds₁ sign
      ((someParameters_mirrors (count + 1) c₂ holds₁.of_push).within hlt).map
termination_by c.size

/-- Parameters up to the closing parenthesis, or none. -/
theorem parameters_mirrors (c : Cursor) (h : T.Holds c) :
    T.Mirrors (Grammar.parameters T.eof c) (parameters T.tokens) (T.position c) := by
  unfold Grammar.parameters
  refine .after (outcome_check h _) ?_
  rcases Grammar.take?_cases c (· == .rightParen) with hnone | ⟨paren, c₁, h₁, hsome, rfl, sign⟩
  · rw [hnone]
    exact someParameters_mirrors T 0 c h
  · have closes : paren.kind = Expectation.parametersClose.kind := eq_of_beq sign
    rw [hsome]
    exact .after (outcome_expect h closes) (.done h.of_push)

/-- What stands first in a `for` loop. -/
theorem forInitializer_mirrors (c : Cursor) (h : T.Holds c) :
    T.Mirrors (Grammar.forInitializer T.eof c) (forInitializer T.tokens) (T.position c) := by
  unfold Grammar.forInitializer
  rcases Grammar.take?_cases c (· == .semicolon) with
    hnone | ⟨closing, c₁, h₁, hsome, rfl, sign⟩
  · rw [hnone]
    refine .refused h hnone ?_
    rcases Grammar.take?_cases c (· == .varWord) with hnone | ⟨word, c₁, h₁, hsome, rfl, sign⟩
    · rw [hnone]
      exact .refused h hnone (expressionStatement_mirrors T c h)
    · rw [hsome]
      exact .accepted h sign ((variableDeclaration_mirrors T c₁ h.of_push).within h₁)
  · rw [hsome]
    exact .accepted h sign (.done h.of_push)

/-! ### After a failure -/

/-- Skipping goes on behind a token that was passed, and ends where the readers over lists
resume. -/
theorem skip_ends {c : Cursor} {t : Token} (h : T.Holds (c.push t)) :
    Ends (skip T.tokens) (T.position c)
      (.ok (), T.position { c with rest := Cursor.resume (t :: c.rest) }) := by
  obtain ⟨rest, nextId, reports⟩ := c
  induction rest generalizing t with
  | nil =>
    have done : Cursor.resume [t] = [] := by simp [Cursor.resume]
    rw [done]
    refine .deeper (.bind_ok (.of_outcome (outcome_atEnd h.of_push)) ?_)
    exact .of_outcome rfl
  | cons next rest ih =>
    have behind : T.Holds (Cursor.push ⟨rest, nextId, reports⟩ next) := h.of_push
    refine .deeper (.bind_ok (.of_outcome (outcome_atEnd h.of_push)) ?_)
    refine .bind_ok (.of_outcome (outcome_previous h)) ?_
    refine .bind_ok (.of_outcome (outcome_peek h.of_push)) ?_
    show Ends (fun depth =>
      if (t.kind == .semicolon || Cursor.beginsStatement next.kind) = true then pure ()
      else do
        let _ ← advance T.tokens
        skip T.tokens depth) _ _
    by_cases stops : (t.kind == .semicolon || Cursor.beginsStatement next.kind) = true
    · have resumed : Cursor.resume (t :: next :: rest) = next :: rest := by
        rw [Cursor.resume]
        exact if_pos stops
      simp only [resumed, if_pos stops]
      exact .of_outcome rfl
    · have resumed : Cursor.resume (t :: next :: rest) = Cursor.resume (next :: rest) := by
        rw [Cursor.resume]
        exact if_neg stops
      have moved := outcome_advance behind
      simp only [resumed, if_neg stops]
      exact .bind_ok (.of_outcome moved) (ih behind)

/-- Resuming by index. -/
theorem resume_ends {c : Cursor} (h : T.Holds c) :
    Ends (resume T.tokens) (T.position c)
      (.ok (), T.position { c with rest := Cursor.resume c.rest }) := by
  obtain ⟨_ | ⟨t, rest⟩, nextId, reports⟩ := c
  · -- At the end nothing moves, but `advance` still looks at the token before.
    obtain ⟨t, last⟩ := exists_outcome_previous (T := T) ⟨[], nextId, reports⟩
    have stays : outcome (advance T.tokens) (T.position ⟨[], nextId, reports⟩)
        = some (.ok t, T.position ⟨[], nextId, reports⟩) := by
      rw [advance, outcome_bind_ok (outcome_atEnd h)]
      exact last
    refine .bind_ok (.of_outcome stays) (.deeper ?_)
    exact .bind_ok (.of_outcome (outcome_atEnd h)) (.of_outcome rfl)
  · have passed : T.Holds (Cursor.push ⟨rest, nextId, reports⟩ t) := h
    have moved := outcome_advance passed
    exact .bind_ok (.of_outcome moved) (skip_ends T passed)

/-- A declaration is read as it was attempted, or skipped after a failure. -/
theorem orResume_ends {c : Cursor} (nonempty : c.rest ≠ []) {x : Step c.size Stmt}
    {attempt : Nat → Reader Stmt} (read : T.Mirrors x attempt (T.position c)) :
    T.Holds (c.orResume nonempty x .absent).2.1 ∧
      Ends (fun depth => orResume T.tokens depth (attempt depth)) (T.position c)
        (.ok (c.orResume nonempty x .absent).1,
          T.position (c.orResume nonempty x .absent).2.1) := by
  cases read with
  | ok holds ends => exact ⟨holds, ends.catch_ok⟩
  | failed holds ends =>
    refine ⟨(Cursor.resume_suffix _).trans holds, ends.catch_error ?_⟩
    exact (resume_ends T holds).bind_ok (.of_outcome rfl)

mutual

/-- A statement, by the kind of its first token. -/
theorem statement_mirrors (c : Cursor) (h : T.Holds c) :
    T.Mirrors (Grammar.statement T.eof c) (statement T.tokens) (T.position c) := by
  refine .deeper ?_
  rw [Grammar.statement]
  simp only [statement]
  rcases found : c.next? with _ | ⟨t, c₁, h₁⟩
  · have none (accepts : Kind → Bool) : c.take? accepts = none := by rw [Cursor.take?, found]; rfl
    iterate 6 refine .refused h (none _) ?_
    exact expressionStatement_mirrors T c h
  · obtain rfl := Cursor.eq_push_of_next? found
    dsimp only
    refine .choose h (fun kind => ?_) fun notFor => ?_
    · rw [eq_of_beq kind]
      exact (forStatement_mirrors c₁ h.of_push).within h₁
    refine .choose h (fun kind => ?_) fun notIf => ?_
    · rw [eq_of_beq kind]
      exact (ifStatement_mirrors c₁ h.of_push).within h₁
    refine .choose h (fun kind => ?_) fun notPrint => ?_
    · rw [eq_of_beq kind]
      exact ((closedExpression_mirrors T c₁ h.of_push .printEnd).within h₁).map
    refine .choose h (fun kind => .after (outcome_previous h) ?_) fun notReturn => ?_
    · rw [eq_of_beq kind]
      exact ((optional_mirrors T c₁ h.of_push .returnEnd).within h₁).map
    refine .choose h (fun kind => ?_) fun notWhile => ?_
    · rw [eq_of_beq kind]
      exact (whileStatement_mirrors c₁ h.of_push).within h₁
    refine .choose h (fun kind => ?_) fun notBrace => ?_
    · rw [eq_of_beq kind]
      exact ((block_mirrors c₁ h.of_push).within h₁).map
    split
    case h_7 => exact expressionStatement_mirrors T (c₁.push t) h
    all_goals
      next kind => simp [kind] at notFor notIf notPrint notReturn notWhile notBrace
termination_by (c.size, 1)

/-- A `for` loop behind its first word. -/
theorem forStatement_mirrors (c : Cursor) (h : T.Holds c) :
    T.Mirrors (Grammar.forStatement T.eof c) (forStatement T.tokens) (T.position c) := by
  refine .deeper ?_
  rw [Grammar.forStatement]
  simp only [forStatement]
  refine (expect_mirrors h .forOpen).andThen fun _ c₁ h₁ holds₁ => ?_
  refine ((forInitializer_mirrors T c₁ holds₁).within h₁).andThen fun init c₂ h₂ holds₂ => ?_
  refine ((optional_mirrors T c₂ holds₂ .forConditionEnd).within h₂).andThen
    fun condition c₃ h₃ holds₃ => ?_
  refine ((optional_mirrors T c₃ holds₃ .forClose).within h₃).andThen
    fun increment c₄ h₄ holds₄ => ?_
  exact ((statement_mirrors c₄ holds₄).within h₄).map
termination_by (c.size, 0)

/-- An `if` statement, which takes an `else` if one is next. -/
theorem ifStatement_mirrors (c : Cursor) (h : T.Holds c) :
    T.Mirrors (Grammar.ifStatement T.eof c) (ifStatement T.tokens) (T.position c) := by
  refine .deeper ?_
  rw [Grammar.ifStatement]
  simp only [ifStatement]
  refine (expect_mirrors h .ifOpen).andThen fun _ c₁ h₁ holds₁ => ?_
  refine ((closedExpression_mirrors T c₁ holds₁ .ifClose).within h₁).andThen
    fun condition c₂ h₂ holds₂ => ?_
  refine ((statement_mirrors c₂ holds₂).within h₂).andThen fun thenBranch c₃ h₃ holds₃ => ?_
  rcases Grammar.take?_cases c₃ (· == .elseWord) with hnone | ⟨other, c₄, h₄, hsome, rfl, sign⟩
  · rw [hnone]
    exact .refused holds₃ hnone (.done holds₃)
  · rw [hsome]
    have hlt := Cursor.shorter_trans h₄ h₃
    exact .accepted holds₃ sign ((statement_mirrors c₄ holds₃.of_push).within hlt).map
termination_by (c.size, 0)

theorem whileStatement_mirrors (c : Cursor) (h : T.Holds c) :
    T.Mirrors (Grammar.whileStatement T.eof c) (whileStatement T.tokens) (T.position c) := by
  refine .deeper ?_
  rw [Grammar.whileStatement]
  simp only [whileStatement]
  refine (expect_mirrors h .whileOpen).andThen fun _ c₁ h₁ holds₁ => ?_
  refine ((closedExpression_mirrors T c₁ holds₁ .whileClose).within h₁).andThen
    fun condition c₂ h₂ holds₂ => ?_
  exact ((statement_mirrors c₂ holds₂).within h₂).map
termination_by (c.size, 0)

/-- The declarations up to the brace that closes a block. -/
theorem block_mirrors (c : Cursor) (h : T.Holds c) :
    T.Mirrors (Grammar.block T.eof c) (block T.tokens) (T.position c) := by
  refine .deeper ?_
  rw [Grammar.block]
  simp only [block]
  refine .after (outcome_check h _) ?_
  rw [← Cursor.sees_eq_isSome_take?]
  by_cases empty : c.rest = []
  · rw [dif_pos empty]
    obtain ⟨_ | ⟨t, rest⟩, nextId, reports⟩ := c
    · exact .after (outcome_atEnd h) (expect_mirrors h .blockClose).map
    · cases empty
  · rw [dif_neg empty]
    split
    · exact (expect_mirrors h .blockClose).map
    · refine .after (outcome_atEnd h) ?_
      obtain ⟨behind, read⟩ := declaration_ends c h empty
      have hlt := (Grammar.declaration T.eof c empty).2.2
      have others := block_mirrors (Grammar.declaration T.eof c empty).2.1 behind
      simp only [List.isEmpty_iff, if_neg empty]
      exact .bind read (others.within hlt).map
termination_by (c.size, 3)

theorem functionDeclaration_mirrors (c : Cursor) (h : T.Holds c) :
    T.Mirrors (Grammar.functionDeclaration T.eof c) (functionDeclaration T.tokens)
      (T.position c) := by
  refine .deeper ?_
  rw [Grammar.functionDeclaration]
  simp only [functionDeclaration]
  refine (expect_mirrors h .functionName).andThen fun name c₁ h₁ holds₁ => ?_
  refine ((expect_mirrors holds₁ .functionOpen).within h₁).andThen fun _ c₂ h₂ holds₂ => ?_
  refine ((parameters_mirrors T c₂ holds₂).within h₂).andThen fun params c₃ h₃ holds₃ => ?_
  refine ((expect_mirrors holds₃ .bodyOpen).within h₃).andThen fun _ c₄ h₄ holds₄ => ?_
  exact ((block_mirrors c₄ holds₄).within h₄).map
termination_by (c.size, 0)

/-- **A declaration ends**, whether it was read or dropped, at the position of the cursor
behind it. -/
theorem declaration_ends (c : Cursor) (h : T.Holds c) (nonempty : c.rest ≠ []) :
    T.Holds (Grammar.declaration T.eof c nonempty).2.1 ∧
      Ends (declaration T.tokens) (T.position c) (.ok (Grammar.declaration T.eof c nonempty).1,
        T.position (Grammar.declaration T.eof c nonempty).2.1) := by
  rw [Grammar.declaration]
  refine (orResume_ends T nonempty ?_).imp_right .deeper
  rcases Grammar.take?_cases c (· == .funWord) with hnone | ⟨word, c₁, h₁, hsome, rfl, sign⟩
  · rw [hnone]
    refine .refused h hnone ?_
    rcases Grammar.take?_cases c (· == .varWord) with hnone | ⟨word, c₁, h₁, hsome, rfl, sign⟩
    · rw [hnone]
      exact .refused h hnone (statement_mirrors c h)
    · rw [hsome]
      exact .accepted h sign ((variableDeclaration_mirrors T c₁ h.of_push).within h₁)
  · rw [hsome]
    exact .accepted h sign ((functionDeclaration_mirrors c₁ h.of_push).within h₁)
termination_by (c.size, 2)

end

/-- **All declarations end**, at the mark of the end. -/
theorem declarations_ends (c : Cursor) (h : T.Holds c) :
    Ends (declarations T.tokens) (T.position c) (.ok (Grammar.declarations T.eof c).1,
      T.position (Grammar.declarations T.eof c).2) := by
  refine .deeper (.bind_ok (.of_outcome (outcome_atEnd h)) ?_)
  simp only [List.isEmpty_iff]
  by_cases empty : c.rest = []
  · rw [Grammar.declarations_of_empty _ empty]
    simp only [if_pos empty]
    exact .of_outcome rfl
  · obtain ⟨behind, read⟩ := declaration_ends T c h empty
    have hlt := (Grammar.declaration T.eof c empty).2.2
    have others := declarations_ends (Grammar.declaration T.eof c empty).2.1 behind
    rw [Grammar.declarations_of_nonempty _ empty]
    simp only [if_neg empty]
    exact .bind_ok read (.bind_ok others (.of_outcome rfl))
termination_by c.size

end Tape

/-! ## Statements and their tokens -/

/-- **Statements with the tokens they were read from.** Each statement is what `declaration`
gives at the first of its tokens, and the next one begins behind the last of them; behind all
of them is a mark of the end. -/
inductive Sliced (tokens : List Token) : Position → List Stmt → List (List Token) → Prop where
  | done {p t} (last : tokens[p.current]? = some t) (ends : t.kind = .eof) :
      Sliced tokens p [] []
  | next {p p' s ss segments} (read : Ends (declaration tokens) p (.ok s, p'))
      (others : Sliced tokens p' ss segments) :
      Sliced tokens p (s :: ss)
        ((tokens.drop p.current).take (p'.current - p.current) :: segments)

namespace Tape

variable {T : Tape} {c c' : Cursor}

/-- The tokens between two cursors. -/
theorem take_drop_position {read : List Token} (h : T.Holds c) (split : c.rest = read ++ c'.rest) :
    (T.tokens.drop (T.position c).current).take
      ((T.position c').current - (T.position c).current) = read := by
  have fits : c.size ≤ T.body.length := h.length_le
  have size : c.size = read.length + c'.size := by
    simp only [Cursor.size, split, List.length_append]
  have count : (T.position c').current - (T.position c).current = read.length := by
    simp only [position]
    omega
  rw [drop_position h, split, count, List.append_assoc, List.take_left]

/-- A shorter cursor stands at a later position. -/
theorem current_position_lt (h : T.Holds c) (shorter : c'.size < c.size) :
    (T.position c).current < (T.position c').current := by
  have fits : c.size ≤ T.body.length := h.length_le
  simp only [position]
  omega

/-- **The tokens in front of the end are divided** among the statements, and each statement
has at least one. -/
theorem exists_sliced (T : Tape) (c : Cursor) (h : T.Holds c) :
    ∃ segments, Sliced T.tokens (T.position c) (Grammar.declarations T.eof c).1 segments ∧
      (∀ segment ∈ segments, segment ≠ []) ∧ segments.flatten = c.rest := by
  by_cases empty : c.rest = []
  · refine ⟨[], ?_, by simp, empty.symm⟩
    rw [Grammar.declarations_of_empty _ empty]
    refine .done (getElem?_position h) ?_
    rw [Cursor.peek, empty]
    exact T.closes
  · obtain ⟨behind, read⟩ := declaration_ends T c h empty
    have hlt := (Grammar.declaration T.eof c empty).2.2
    obtain ⟨segment, split⟩ := (Grammar.declaration_spec T.eof c empty).advances.rest
    obtain ⟨segments, sliced, nonempty, all⟩ :=
      exists_sliced T (Grammar.declaration T.eof c empty).2.1 behind
    rw [Grammar.declarations_of_nonempty _ empty]
    have sliced' := Sliced.next read sliced
    rw [take_drop_position h split.symm] at sliced'
    refine ⟨segment :: segments, sliced', ?_, by rw [List.flatten_cons, all, split]⟩
    intro other mem
    rcases List.mem_cons.1 mem with rfl | mem
    · rintro rfl
      exact absurd hlt (by simp [Cursor.size, ← split])
    · exact nonempty other mem
termination_by c.size

/-- Every list with a mark of the end in it, behind others. -/
theorem exists_tape (before : List Token) {l : List Token} {eof : Token}
    (first : l.find? (·.kind == .eof) = some eof) :
    ∃ T : Tape, T.before = before ∧ T.body = l.takeWhile (·.kind != .eof) ∧ T.eof = eof ∧
      T.tokens = before ++ l := by
  obtain ⟨isEof, body, after, rfl, noEof⟩ := List.find?_eq_some_iff_append.1 first
  have inside : ∀ t ∈ body, (t.kind != .eof) = true := noEof
  refine ⟨⟨before, body, eof, after, fun t mem => bne_iff_ne.1 (inside t mem), eq_of_beq isEof⟩,
    rfl, ?_, rfl, rfl⟩
  rw [List.takeWhile_append_of_pos inside,
    List.takeWhile_cons_of_neg (by simp [eq_of_beq isEof]), List.append_nil]

end Tape

/-! ## Programs -/

/-- The last token is a mark of the end. -/
theorem exists_getLast?_closed (ts : List Token) :
    ∃ last, (closed ts).getLast? = some last ∧ last.kind = .eof := by
  unfold closed
  split
  · next ends =>
    cases found : ts.getLast? with
    | none =>
      rw [found] at ends
      cases ends
    | some last =>
      rw [found] at ends
      exact ⟨last, rfl, eq_of_beq ends⟩
  · exact ⟨_, List.getLast?_concat, rfl⟩

/-- The first mark of the end is the one that the parser takes for it. -/
theorem find?_closed (ts : List Token) :
    (closed ts).find? (·.kind == .eof) = some (endToken ts) := by
  obtain ⟨last, found, isEof⟩ := exists_getLast?_closed ts
  unfold closed at *
  split at found
  · next ends =>
    obtain ⟨eof, first⟩ := exists_find?_eof ⟨last, List.mem_of_getLast? found, isEof⟩
    rw [if_pos ends, endToken, first]
    rfl
  · next ends =>
    rw [if_neg ends, List.find?_append]
    unfold endToken
    cases ts.find? (·.kind == .eof) <;> rfl

/-- A mark behind the tokens adds nothing in front of the first one. -/
theorem takeWhile_closed (ts : List Token) :
    (closed ts).takeWhile (·.kind != .eof) = ts.takeWhile (·.kind != .eof) := by
  unfold closed
  split
  · rfl
  · rw [List.takeWhile_append]
    split
    · next full =>
      rw [(List.takeWhile_prefix _).eq_of_length full]
      exact List.append_nil ts
    · rfl

/-- **Any call of `declaration`** in front of a token that does not mark the end ends with a
statement, and moves on, to another token. -/
theorem exists_ends_declaration (ts : List Token) (p : Position) {t : Token}
    (next : (closed ts)[p.current]? = some t) (goesOn : t.kind ≠ .eof) :
    ∃ s p', Ends (declaration (closed ts)) p (.ok s, p') ∧ p.current < p'.current ∧
      p'.current < (closed ts).length := by
  obtain ⟨last, found, isEof⟩ := exists_getLast?_closed ts
  have bound : p.current < (closed ts).length := (List.getElem?_eq_some_iff.1 next).1
  have ends : last ∈ (closed ts).drop p.current := by
    refine List.mem_of_getLast? ?_
    rw [List.getLast?_drop, if_neg (Nat.not_le.2 bound), found]
  obtain ⟨eof, first⟩ := exists_find?_eof ⟨last, ends, isEof⟩
  obtain ⟨T, before, body, -, tokens⟩ := Tape.exists_tape ((closed ts).take p.current) first
  rw [List.take_append_drop] at tokens
  have holds : T.Holds ⟨T.body, p.nextId, p.reports⟩ := List.suffix_refl T.body
  have start : T.position ⟨T.body, p.nextId, p.reports⟩ = p := by
    have current : T.before.length + T.body.length - T.body.length = p.current := by
      rw [Nat.add_sub_cancel, before, List.length_take, Nat.min_eq_left (Nat.le_of_lt bound)]
    exact congrArg (Position.mk · p.nextId p.reports) current
  have nonempty : T.body ≠ [] := by
    rw [body, List.drop_eq_getElem_cons bound, List.takeWhile_cons_of_pos]
    · exact List.cons_ne_nil _ _
    · rw [List.getElem?_eq_getElem bound, Option.some_inj] at next
      rw [next]
      exact bne_iff_ne.2 goesOn
  obtain ⟨behind, read⟩ := Tape.declaration_ends T ⟨T.body, p.nextId, p.reports⟩ holds nonempty
  rw [start, tokens] at read
  refine ⟨_, _, read, ?_, ?_⟩
  · rw [← start]
    exact Tape.current_position_lt holds (Grammar.declaration T.eof _ nonempty).2.2
  · rw [← tokens]
    exact (List.getElem?_eq_some_iff.1 (Tape.getElem?_position behind)).1

/-- **The parser always ends, within its tokens.** From any list of tokens, reading by index
ends with what the parser gives. Every call of `declaration` in front of a token that does not
mark the end passes at least one token, and the statements of the program divide among them
all the tokens in front of the first mark of the end: each has its own, which follow one
another without a gap. -/
theorem parsing_ends_within_tokens (ts : List Token) (firstId : Nat) :
    (∃ depth, ∀ deeper, depth ≤ deeper →
      parse deeper ts firstId = some (Kix.parse ts firstId)) ∧
    (∀ (p : Position) (t : Token), (closed ts)[p.current]? = some t → t.kind ≠ .eof →
      ∃ s p', Ends (declaration (closed ts)) p (.ok s, p') ∧
        p.current < p'.current ∧ p'.current < (closed ts).length) ∧
    ∃ segments, Sliced (closed ts) ⟨0, firstId, []⟩ (Kix.parse ts firstId).program segments ∧
      (∀ segment ∈ segments, segment ≠ []) ∧
      segments.flatten = ts.takeWhile (·.kind != .eof) := by
  obtain ⟨T, before, body, eof, tokens⟩ := Tape.exists_tape [] (find?_closed ts)
  rw [takeWhile_closed] at body
  rw [List.nil_append] at tokens
  have holds : T.Holds ⟨T.body, firstId, []⟩ := List.suffix_refl T.body
  have start : T.position ⟨T.body, firstId, []⟩ = ⟨0, firstId, []⟩ := by
    have current : T.before.length + T.body.length - T.body.length = 0 := by
      rw [Nat.add_sub_cancel, before, List.length_nil]
    exact congrArg (Position.mk · firstId []) current
  refine ⟨?_, fun p t => exists_ends_declaration ts p, ?_⟩
  · have ends := Tape.declarations_ends T ⟨T.body, firstId, []⟩ holds
    rw [start, tokens, body, eof] at ends
    obtain ⟨depth, ends⟩ := ends
    refine ⟨depth, fun deeper le => ?_⟩
    rw [parse, ends deeper le]
    rfl
  · have sliced := Tape.exists_sliced T ⟨T.body, firstId, []⟩ holds
    rw [start, tokens, body, eof] at sliced
    exact sliced

/-- The tokens of `); x;`, a mark of the end, and a name behind it. -/
def nameBehindEnd : List Token :=
  [.onLine 1 .rightParen ")", .onLine 1 .semicolon ";", .onLine 1 .identifier "x",
    .onLine 1 .semicolon ";", .endOfInput 1, .onLine 1 .identifier "y"]

theorem parsing_ends_within_tokens_name_behind_end :
    (∃ t, (closed nameBehindEnd)[5]? = some t ∧ t.kind ≠ .eof) ∧
    (∃ depth, ∀ deeper, depth ≤ deeper →
      parse deeper nameBehindEnd 0 = some (Kix.parse nameBehindEnd 0)) ∧
    (∃ s p', Ends (declaration (closed nameBehindEnd)) ⟨5, 0, []⟩ (.ok s, p') ∧
      5 < p'.current ∧ p'.current < 7) ∧
    ∃ segments, Sliced (closed nameBehindEnd) ⟨0, 0, []⟩ (Kix.parse nameBehindEnd 0).program
        segments ∧
      (∀ segment ∈ segments, segment ≠ []) ∧ segments.flatten = nameBehindEnd.take 4 := by
  obtain ⟨ends, passes, sliced⟩ := parsing_ends_within_tokens nameBehindEnd 0
  exact ⟨⟨_, rfl, by decide⟩, ends, passes ⟨5, 0, []⟩ _ rfl (by decide), sliced⟩

end Kix.Indexed
