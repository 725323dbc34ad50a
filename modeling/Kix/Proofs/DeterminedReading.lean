import Kix.Proofs.Acceptance

/-!
# The rules determine what is read

The rules of reading were found by following the readers (`Kix.Proofs.Reading`): what a
reader gives, the rules allow. Here is the other direction. The rules say which token
was seen wherever a reader decides by it, so there is only one way to follow them: if
they allow a tree and a place, then that is what the reader gives (`Reads.gives`). For
statements this holds where nothing was reported (`ReadsStatements.gives`), since the
rule for a declaration that was skipped does not say how reading it failed.

Each rule has its lemma, about the reader that follows it; the theorems put them
together.
-/

namespace Kix

/-- **The reader gives a value** and leaves the cursor at a place. -/
def Step.Gives {n : Nat} {α : Type} (x : Step n α) (a : α) (c : Cursor) : Prop :=
  x.Spec (fun a' c' => a' = a ∧ c' = c) fun _ => False

namespace Step.Gives

variable {m n : Nat} {α β : Type} {a : α} {b : β} {c c' : Cursor}

theorem within {x : Step m α} (h : x.Gives a c) (hlt : m < n) : (x.within hlt).Gives a c :=
  Step.Spec.within h hlt

theorem relocate {x : Step m α} (h : x.Gives a c) (heq : m = n) : (x.relocate heq).Gives a c :=
  Step.Spec.relocate h heq

/-- A function of the result is a function of what is given. -/
theorem map {x : Step n α} (h : x.Gives a c) (f : α → β) : (x.map f).Gives (f a) c :=
  Step.Spec.map (h.mono (fun _ _ same => ⟨congrArg f same.1, same.2⟩) fun _ => id)

/-- Going on from the place that was reached. -/
theorem andThen {x : Step n α} {f : α → (c : Cursor) → c.size < n → Step n β}
    (h : x.Gives a c) (next : ∀ hlt, (f a c hlt).Gives b c') : (x.andThen f).Gives b c' := by
  refine Step.Spec.andThen h fun a' c₁ hlt same => ?_
  obtain ⟨rfl, rfl⟩ := same
  exact next hlt

/-- The same for a second step that is bound to an earlier cursor. -/
theorem andThenFrom {x : Step m α} {hmn : m < n}
    {f : α → (c : Cursor) → c.size < m → Step n β} (h : x.Gives a c)
    (next : ∀ hlt, (f a c hlt).Gives b c') : (x.andThenFrom hmn f).Gives b c' := by
  refine Step.Spec.andThenFrom h fun a' c₁ hlt same => ?_
  obtain ⟨rfl, rfl⟩ := same
  exact next hlt

end Step.Gives

variable {eof : Token} {c c₁ c₂ c₃ c₄ c₅ c' : Cursor}

namespace Cursor

variable {t : Token}

/-- A token that is accepted is taken. -/
theorem take?_push (c : Cursor) (accept : Kind → Bool) (accepted : accept t.kind = true) :
    ∃ h, (c.push t).take? accept = some (t, ⟨c, h⟩) := by
  refine ⟨Nat.lt_succ_self _, ?_⟩
  show Option.filter _ (some (t, _)) = _
  simp only [Option.filter, accepted]
  rfl

/-- A token that is refused stays. -/
theorem take?_push_none (c : Cursor) {accept : Kind → Bool} (refused : accept t.kind = false) :
    (c.push t).take? accept = none := by
  show Option.filter (fun found => accept found.1.kind) (some (t, _)) = _
  simp only [Option.filter, refused]
  rfl

/-- A token of the expected kind is given. -/
theorem expect_push (c : Cursor) (what : Expectation) (sign : t.kind = what.kind) :
    ((c.push t).expect eof what).Gives t c := by
  obtain ⟨h, taken⟩ := c.take?_push (· == what.kind) (beq_iff_eq.2 sign)
  unfold Cursor.expect
  rw [taken]
  exact ⟨rfl, rfl⟩

end Cursor

/-! ## Expressions, rule by rule -/

namespace Grammar

section Expressions

variable {e : Expr}

/-- Without an equals sign behind it, a condition is the whole expression. -/
theorem expression_gives_value (first : (conditional eof c).Gives e c₁)
    (last : c₁.take? (· == .equal) = none) : (expression eof c).Gives e c₁ := by
  rw [expression]
  refine first.andThen fun h₁ => ?_
  rw [last]
  exact ⟨rfl, rfl⟩

/-- A name, an equals sign and a value are an assignment. It is numbered behind the
value. -/
theorem expression_gives_assign {i : OccurrenceId} {name equals : Token} {value : Expr}
    (target : (conditional eof c).Gives (.var i name) (c₂.push equals))
    (sign : equals.kind = .equal) (source : (expression eof c₂).Gives value c₃) :
    (expression eof c).Gives (.assign c₃.nextId name value) c₃.advanceId := by
  obtain ⟨h₂, taken⟩ := c₂.take?_push (· == .equal) (beq_iff_eq.2 sign)
  rw [expression]
  refine target.andThen fun h₁ => ?_
  rw [taken]
  exact (source.within _).andThen fun h₃ => ⟨rfl, rfl⟩

/-- An assignment to anything but a name is reported at the equals sign, and its value is
dropped. -/
theorem expression_gives_badTarget {target value : Expr} {equals : Token}
    (first : (conditional eof c).Gives target (c₂.push equals)) (sign : equals.kind = .equal)
    (source : (expression eof c₂).Gives value c₃) (bad : ∀ i name, target ≠ .var i name) :
    (expression eof c).Gives target (c₃.complain equals .invalidAssignmentTarget) := by
  obtain ⟨h₂, taken⟩ := c₂.take?_push (· == .equal) (beq_iff_eq.2 sign)
  rw [expression]
  refine first.andThen fun h₁ => ?_
  rw [taken]
  refine (source.within _).andThen fun h₃ => ?_
  cases target with
  | var i name => exact absurd rfl (bad i name)
  | _ => exact ⟨rfl, rfl⟩

/-- Without a question mark behind it, the operators are the whole conditional. -/
theorem conditional_gives_condition (first : (operators eof Tier.all c).Gives e c₁)
    (last : c₁.take? (· == .question) = none) : (conditional eof c).Gives e c₁ := by
  rw [conditional]
  refine first.andThen fun h₁ => ?_
  rw [last]
  exact ⟨rfl, rfl⟩

/-- A condition and two branches. -/
theorem conditional_gives {condition thenBranch elseBranch : Expr} {mark colon : Token}
    (first : (operators eof Tier.all c).Gives condition (c₂.push mark))
    (sign : mark.kind = .question)
    (second : (expression eof c₂).Gives thenBranch (c₄.push colon))
    (sign' : colon.kind = .colon) (third : (expression eof c₄).Gives elseBranch c₅) :
    (conditional eof c).Gives (.conditional condition thenBranch elseBranch) c₅ := by
  obtain ⟨h₂, taken⟩ := c₂.take?_push (· == .question) (beq_iff_eq.2 sign)
  rw [conditional]
  refine first.andThen fun h₁ => ?_
  rw [taken]
  refine (second.within _).andThen fun h₃ => ?_
  refine ((c₄.expect_push .conditionalColon sign').within _).andThen fun h₄ => ?_
  exact (third.within _).map _

/-- The first operand belongs to the tighter tiers, and the operators of the tier follow. -/
theorem operators_gives {tier : Tier} {tighter : List Tier} {left : Expr}
    (first : (operators eof tighter c).Gives left c₁)
    (more : ∀ start h, (moreOperators eof tier tighter start left c₁ h).Gives e c') :
    (operators eof (tier :: tighter) c).Gives e c' := by
  rw [operators.eq_def]
  exact first.andThen fun h₁ => more c h₁

/-- A chain ends where no operator of its tier follows. -/
theorem moreOperators_gives_none {tier : Tier} {tighter : List Tier} {left : Expr}
    (last : c.take? tier.accepts = none) (start : Cursor) (h : c.size < start.size) :
    (moreOperators eof tier tighter start left c h).Gives left c := by
  rw [moreOperators, last]
  exact ⟨rfl, rfl⟩

/-- A chain goes on with the operand behind the operator, joined to what stands on the
left. -/
theorem moreOperators_gives {tier : Tier} {tighter : List Tier} {left right : Expr}
    {operator : Token} (sign : tier.accepts operator.kind = true)
    (first : (operators eof tighter c).Gives right c₁)
    (more : ∀ start h, (moreOperators eof tier tighter start (tier.join left operator right)
      c₁ h).Gives e c')
    (start : Cursor) (h : (c.push operator).size < start.size) :
    (moreOperators eof tier tighter start left (c.push operator) h).Gives e c' := by
  obtain ⟨h₁, taken⟩ := c.take?_push _ sign
  rw [moreOperators, taken]
  exact (first.within _).andThenFrom fun h₂ => more start _

/-- An operator in front of an operand. -/
theorem unary_gives {operator : Token} {operand : Expr}
    (sign : isUnaryOperator operator.kind = true) (first : (unary eof c).Gives operand c') :
    (unary eof (c.push operator)).Gives (.unary operator operand) c' := by
  obtain ⟨h₁, taken⟩ := c.take?_push _ sign
  rw [unary, taken]
  exact (first.within _).map _

/-- Without an operator in front, an operand is a call. -/
theorem unary_gives_call (none : c.take? isUnaryOperator = none)
    (first : (call eof c).Gives e c') : (unary eof c).Gives e c' := by
  rw [unary, none]
  exact first

/-- What is called, and the argument lists behind it. -/
theorem call_gives {callee : Expr} (first : (primary eof c).Gives callee c₁)
    (more : ∀ start h, (moreCalls eof start callee c₁ h).Gives e c') :
    (call eof c).Gives e c' := by
  rw [call]
  exact first.andThen fun h₁ => more c h₁

/-- Calls end where no parenthesis opens. -/
theorem moreCalls_gives_none {callee : Expr} (last : c.take? (· == .leftParen) = none)
    (start : Cursor) (h : c.size < start.size) :
    (moreCalls eof start callee c h).Gives callee c := by
  rw [moreCalls, last]
  exact ⟨rfl, rfl⟩

/-- An argument list makes a call of what stands in front of it, which may be called
again. -/
theorem moreCalls_gives {callee : Expr} {opening paren : Token} {given : List Expr}
    (sign : opening.kind = .leftParen) (first : (arguments eof c).Gives (given, paren) c₁)
    (more : ∀ start h, (moreCalls eof start (.call callee paren given) c₁ h).Gives e c')
    (start : Cursor) (h : (c.push opening).size < start.size) :
    (moreCalls eof start callee (c.push opening) h).Gives e c' := by
  obtain ⟨h₁, taken⟩ := c.take?_push (· == .leftParen) (beq_iff_eq.2 sign)
  rw [moreCalls, taken]
  exact (first.within _).andThenFrom fun h₂ => more start _

/-- A parenthesis that closes at once: no arguments. -/
theorem arguments_gives_none {paren : Token} (sign : paren.kind = .rightParen) :
    (arguments eof (c.push paren)).Gives ([], paren) c := by
  obtain ⟨h₁, taken⟩ := c.take?_push (· == .rightParen) (beq_iff_eq.2 sign)
  rw [arguments, taken]
  exact ⟨rfl, rfl⟩

theorem arguments_gives {given : List Expr × Token} (some : c.take? (· == .rightParen) = none)
    (first : (someArguments eof 0 c).Gives given c') : (arguments eof c).Gives given c' := by
  rw [arguments, some]
  exact first

/-- The last argument, with the closing parenthesis behind it. It is counted before it is
read. -/
theorem someArguments_gives_last {count : Nat} {paren : Token}
    (first : (expression eof (c.checkCount eof count .tooManyArguments)).Gives e (c'.push paren))
    (sign : paren.kind = .rightParen) : (someArguments eof count c).Gives ([e], paren) c' := by
  have noComma : (c'.push paren).take? (· == .comma) = none :=
    c'.take?_push_none (by rw [sign]; rfl)
  rw [someArguments]
  refine (first.relocate _).andThen fun h₁ => ?_
  rw [noComma]
  exact ((c'.expect_push .argumentsClose sign).within _).map _

/-- An argument with a comma behind it, and the arguments after that. -/
theorem someArguments_gives {count : Nat} {comma paren : Token} {others : List Expr}
    (first : (expression eof (c.checkCount eof count .tooManyArguments)).Gives e (c₂.push comma))
    (sign : comma.kind = .comma)
    (more : (someArguments eof (count + 1) c₂).Gives (others, paren) c') :
    (someArguments eof count c).Gives (e :: others, paren) c' := by
  obtain ⟨h₂, taken⟩ := c₂.take?_push (· == .comma) (beq_iff_eq.2 sign)
  rw [someArguments]
  refine (first.relocate _).andThen fun h₁ => ?_
  rw [taken]
  exact (more.within _).map _

/-- A token that denotes a value is the literal of that value. -/
theorem primary_gives_literal {t : Token} {value : Literal} (denoted : t.denotes? = some value) :
    (primary eof (c.push t)).Gives (.literal value) c := by
  rw [primary, show (c.push t).next? = some (t, ⟨c, Nat.lt_succ_self _⟩) from rfl]
  unfold Token.denotes? at denoted
  split at denoted
  case h_6 => cases denoted
  all_goals
    next sign =>
      cases denoted
      simp only [sign]
      exact ⟨rfl, rfl⟩

/-- A name is given the next number. -/
theorem primary_gives_name {t : Token} (sign : t.kind = .identifier) :
    (primary eof (c.push t)).Gives (.var c.nextId t) c.advanceId := by
  rw [primary, show (c.push t).next? = some (t, ⟨c, Nat.lt_succ_self _⟩) from rfl]
  simp only [sign]
  exact ⟨rfl, rfl⟩

/-- An expression in parentheses is kept as a group. -/
theorem primary_gives_group {opening closing : Token} (sign : opening.kind = .leftParen)
    (first : (expression eof c).Gives e (c'.push closing)) (sign' : closing.kind = .rightParen) :
    (primary eof (c.push opening)).Gives (.group e) c' := by
  rw [primary, show (c.push opening).next? = some (opening, ⟨c, Nat.lt_succ_self _⟩) from rfl]
  simp only [sign]
  refine (first.within _).andThen fun h₁ => ?_
  exact ((c'.expect_push .groupClose sign').within _).map _

end Expressions

end Grammar

/-- **The reader of a phrase gives a tree.** -/
def Phrase.Gives (eof : Token) (c : Cursor) (e : Expr) (c' : Cursor) : Phrase → Prop
  | .expression => (Grammar.expression eof c).Gives e c'
  | .conditional => (Grammar.conditional eof c).Gives e c'
  | .operators tiers => (Grammar.operators eof tiers c).Gives e c'
  | .moreOperators tier tighter left => ∀ start h,
    (Grammar.moreOperators eof tier tighter start left c h).Gives e c'
  | .unary => (Grammar.unary eof c).Gives e c'
  | .call => (Grammar.call eof c).Gives e c'
  | .moreCalls callee => ∀ start h, (Grammar.moreCalls eof start callee c h).Gives e c'
  | .arguments callee => ∃ given paren, e = .call callee paren given ∧
    (Grammar.arguments eof c).Gives (given, paren) c'
  | .someArguments callee given => ∃ others paren, e = .call callee paren (given ++ others) ∧
    (Grammar.someArguments eof given.length c).Gives (others, paren) c'
  | .primary => (Grammar.primary eof c).Gives e c'

open Grammar in
/-- **The rules determine what is read** of an expression. -/
theorem Reads.gives {p : Phrase} {e : Expr} (h : Reads eof p c e c') : p.Gives eof c e c' := by
  induction h with
  | value _ last ih => exact expression_gives_value ih last
  | assign _ sign _ ih ih' => exact expression_gives_assign ih sign ih'
  | badTarget _ sign _ bad ih ih' => exact expression_gives_badTarget ih sign ih' bad
  | condition _ last ih => exact conditional_gives_condition ih last
  | conditional _ sign _ sign' _ ih ih' ih'' => exact conditional_gives ih sign ih' sign' ih''
  | @operand c c' e _ ih =>
    show (Grammar.operators eof [] c).Gives e c'
    rw [Grammar.operators.eq_def]
    exact ih
  | operators _ _ ih ih' => exact operators_gives ih ih'
  | noOperator last => exact moreOperators_gives_none last
  | operator sign _ _ ih ih' => exact moreOperators_gives sign ih ih'
  | unary sign _ ih => exact unary_gives sign ih
  | noUnary none _ ih => exact unary_gives_call none ih
  | call _ _ ih ih' => exact call_gives ih ih'
  | noCall last => exact moreCalls_gives_none last
  | moreCalls sign _ _ ih ih' =>
    obtain ⟨given, paren, rfl, first⟩ := ih
    exact moreCalls_gives sign first ih'
  | noArguments sign => exact ⟨[], _, rfl, arguments_gives_none sign⟩
  | arguments some _ ih =>
    obtain ⟨given, paren, rfl, first⟩ := ih
    exact ⟨given, paren, rfl, arguments_gives some first⟩
  | lastArgument _ sign ih => exact ⟨_, _, rfl, someArguments_gives_last ih sign⟩
  | argument _ sign _ ih ih' =>
    obtain ⟨others, paren, rfl, more⟩ := ih'
    rw [List.length_append] at more
    refine ⟨_, paren, ?_, someArguments_gives ih sign more⟩
    rw [List.append_assoc]
    rfl
  | literal denoted => exact primary_gives_literal denoted
  | name sign => exact primary_gives_name sign
  | group sign _ sign' ih => exact primary_gives_group sign ih sign'

/-! ## Statements, rule by rule -/

namespace Grammar

section Statements

variable {e : Expr} {t closing : Token}

/-- An expression that was read, with the token that closes it. -/
theorem closedExpression_gives (what : Expectation)
    (value : Reads eof .expression c e (c'.push closing)) (sign : closing.kind = what.kind) :
    (closedExpression eof c what).Gives e c' :=
  Step.Gives.andThen value.gives fun _ => ((c'.expect_push what sign).within _).map _

/-- What an expression begins with, if nothing was reported. -/
theorem exists_push_of_reads (value : Reads eof .expression c e c')
    (quiet : c'.reports = c.reports) :
    ∃ (t : Token) (c₁ : Cursor), c = c₁.push t ∧ t.kind.beginsExpression = true := by
  obtain ⟨w, derives, heq⟩ := value.spans trivial quiet
  obtain ⟨t, v, rfl, begun⟩ := expression_beginsWith w derives
  exact ⟨t, _, Cursor.eq_push_of_rest heq, begun⟩

/-- An expression that may be missing. It is missing if the closing token is next, which
begins no expression. -/
theorem optional_gives (what : Expectation) {value : Option Expr}
    (other : what.kind.beginsExpression = false) (h : ReadsOptional eof what.kind c value c')
    (quiet : c'.reports = c.reports) : (optional eof c what).Gives value c' := by
  unfold optional
  match value, h with
  | none, ⟨t, sign, heq⟩ =>
    subst heq
    have seen : (c'.push t).sees what.kind = true := by
      show (some t.kind == some what.kind) = true
      rw [sign, beq_self_eq_true]
    rw [if_pos seen]
    exact (c'.expect_push what sign).map _
  | some e, ⟨t, sign, read⟩ =>
    have gives := read.gives
    obtain ⟨first, c₁, rfl, begun⟩ := exists_push_of_reads read quiet
    have unseen : ¬(c₁.push first).sees what.kind = true := by
      show ¬(some first.kind == some what.kind) = true
      simpa using Kind.ne_of_beginsExpression begun other
    rw [if_neg unseen]
    exact Step.Gives.andThen gives fun _ => ((c'.expect_push what sign).within _).map _

/-- A declaration without an initializer. -/
theorem variableDeclaration_gives_uninitialized {name : Token} (sign : name.kind = .identifier)
    (sign' : closing.kind = .semicolon) :
    (variableDeclaration eof ((c.push closing).push name)).Gives (.var name .absent) c := by
  have noEqual : (c.push closing).take? (· == .equal) = none :=
    c.take?_push_none (by rw [sign']; rfl)
  unfold variableDeclaration
  refine ((c.push closing).expect_push .variableName sign).andThen fun h₁ => ?_
  rw [noEqual]
  exact ((c.expect_push .variableEnd sign').within _).map _

/-- A declaration with an initializer. -/
theorem variableDeclaration_gives {name equals : Token} (sign : name.kind = .identifier)
    (sign₁ : equals.kind = .equal) (value : Reads eof .expression c e (c'.push closing))
    (sign₂ : closing.kind = .semicolon) :
    (variableDeclaration eof ((c.push equals).push name)).Gives (.var name e) c' := by
  obtain ⟨h₂, taken⟩ := c.take?_push (· == .equal) (beq_iff_eq.2 sign₁)
  unfold variableDeclaration
  refine ((c.push equals).expect_push .variableName sign).andThen fun h₁ => ?_
  rw [taken]
  exact ((closedExpression_gives .variableEnd value sign₂).within _).map _

/-- The last parameter, with the closing parenthesis behind it. -/
theorem someParameters_gives_last {count : Nat} {name paren : Token}
    (first : c.checkCount eof count .tooManyParameters = (c'.push paren).push name)
    (sign : name.kind = .identifier) (sign' : paren.kind = .rightParen) :
    (someParameters eof count c).Gives [name] c' := by
  have noComma : (c'.push paren).take? (· == .comma) = none :=
    c'.take?_push_none (by rw [sign']; rfl)
  have read : (Cursor.expect _ eof .parameterName).Gives name (c'.push paren) :=
    (c'.push paren).expect_push .parameterName sign
  rw [← first] at read
  rw [someParameters]
  refine (read.relocate _).andThen fun h₁ => ?_
  rw [noComma]
  exact ((c'.expect_push .parametersClose sign').within _).map _

/-- A parameter with a comma behind it, and the parameters after that. -/
theorem someParameters_gives {count : Nat} {name comma : Token} {others : List Token}
    (first : c.checkCount eof count .tooManyParameters = (c₂.push comma).push name)
    (sign : name.kind = .identifier) (sign' : comma.kind = .comma)
    (more : (someParameters eof (count + 1) c₂).Gives others c') :
    (someParameters eof count c).Gives (name :: others) c' := by
  obtain ⟨h₂, taken⟩ := c₂.take?_push (· == .comma) (beq_iff_eq.2 sign')
  have read : (Cursor.expect _ eof .parameterName).Gives name (c₂.push comma) :=
    (c₂.push comma).expect_push .parameterName sign
  rw [← first] at read
  rw [someParameters]
  refine (read.relocate _).andThen fun h₁ => ?_
  rw [taken]
  exact (more.within _).map _

/-- A `for` loop with nothing in front of its first semicolon. -/
theorem forInitializer_gives_none (sign : closing.kind = .semicolon) :
    (forInitializer eof (c.push closing)).Gives .absent c := by
  obtain ⟨h₁, taken⟩ := c.take?_push (· == .semicolon) (beq_iff_eq.2 sign)
  unfold forInitializer
  rw [taken]
  exact ⟨rfl, rfl⟩

/-- A `for` loop that begins with a declaration. -/
theorem forInitializer_gives_variable {word : Token} {s : Stmt} (kind : word.kind = .varWord)
    (inner : (variableDeclaration eof c).Gives s c') :
    (forInitializer eof (c.push word)).Gives s c' := by
  have noSemicolon : (c.push word).take? (· == .semicolon) = none :=
    c.take?_push_none (by rw [kind]; rfl)
  obtain ⟨h₁, taken⟩ := c.take?_push (· == .varWord) (beq_iff_eq.2 kind)
  unfold forInitializer
  rw [noSemicolon, taken]
  exact inner.within _

/-- A token that begins an expression is left where a word is looked for. -/
theorem take?_of_beginsExpression (c : Cursor) (begun : t.kind.beginsExpression = true)
    {kind : Kind} (other : kind.beginsExpression = false) :
    (c.push t).take? (· == kind) = none :=
  c.take?_push_none (beq_eq_false_iff_ne.2 (Kind.ne_of_beginsExpression begun other))

theorem expressionStatement_gives (value : Reads eof .expression c e (c'.push closing))
    (sign : closing.kind = .semicolon) : (expressionStatement eof c).Gives (.expression e) c' :=
  (closedExpression_gives .expressionEnd value sign).map _

/-- A `for` loop that begins with an expression, which begins with neither `var` nor a
semicolon. -/
theorem forInitializer_gives_expression (value : Reads eof .expression c e (c'.push closing))
    (sign : closing.kind = .semicolon) (quiet : c'.reports = c.reports) :
    (forInitializer eof c).Gives (.expression e) c' := by
  have whole := expressionStatement_gives value sign
  obtain ⟨t, c₁, rfl, begun⟩ := exists_push_of_reads value quiet
  unfold forInitializer
  rw [take?_of_beginsExpression c₁ begun rfl, take?_of_beginsExpression c₁ begun rfl]
  exact whole

/-- A statement that begins as an expression does is an expression statement. -/
theorem statement_gives_expression (value : Reads eof .expression c e (c'.push closing))
    (sign : closing.kind = .semicolon) (quiet : c'.reports = c.reports) :
    (statement eof c).Gives (.expression e) c' := by
  have whole := expressionStatement_gives value sign
  obtain ⟨t, c₁, rfl, begun⟩ := exists_push_of_reads value quiet
  rw [statement, show (c₁.push t).next? = some (t, ⟨c₁, Nat.lt_succ_self _⟩) from rfl]
  dsimp only
  split
  case h_7 => exact whole
  all_goals
    next kind => exact absurd kind (Kind.ne_of_beginsExpression begun rfl)

/-- A statement that begins with a word is read behind the word. -/
theorem statement_push (c : Cursor) (t : Token) :
    statement eof (c.push t) = match t.kind with
      | .forWord => (forStatement eof c).within (Nat.lt_succ_self _)
      | .ifWord => (ifStatement eof c).within (Nat.lt_succ_self _)
      | .printWord => ((closedExpression eof c .printEnd).within (Nat.lt_succ_self _)).map .print
      | .returnWord => ((optional eof c .returnEnd).within (Nat.lt_succ_self _)).map
        fun value => .ret t (value.getD .absent)
      | .whileWord => (whileStatement eof c).within (Nat.lt_succ_self _)
      | .leftBrace => ((block eof c).within (Nat.lt_succ_self _)).map .block
      | _ => expressionStatement eof (c.push t) := by
  rw [statement]
  rfl

/-- **A `for` loop** from its clauses and its body. -/
theorem forStatement_gives {opening : Token} {init body : Stmt} {condition increment : Option Expr}
    (sign : opening.kind = .leftParen) (first : (forInitializer eof c).Gives init c₁)
    (second : (optional eof c₁ .forConditionEnd).Gives condition c₂)
    (third : (optional eof c₂ .forClose).Gives increment c₃)
    (inner : (statement eof c₃).Gives body c') :
    (forStatement eof (c.push opening)).Gives
      (.forLoop init (condition.getD (.literal (.bool true))) (increment.getD .absent) body)
      c' := by
  rw [forStatement]
  refine (c.expect_push .forOpen sign).andThen fun h₁ => ?_
  refine (first.within _).andThen fun h₂ => ?_
  refine (second.within _).andThen fun h₃ => ?_
  refine (third.within _).andThen fun h₄ => ?_
  exact (inner.within _).map _

/-- An `if` statement without an `else`: none follows, so the statement ends here. -/
theorem ifStatement_gives {opening : Token} {s : Stmt} (sign : opening.kind = .leftParen)
    (condition : Reads eof .expression c e (c₂.push closing))
    (sign' : closing.kind = .rightParen) (thenBranch : (statement eof c₂).Gives s c')
    (last : c'.take? (· == .elseWord) = none) :
    (ifStatement eof (c.push opening)).Gives (.branch e s .absent) c' := by
  rw [ifStatement]
  refine (c.expect_push .ifOpen sign).andThen fun h₁ => ?_
  refine ((closedExpression_gives .ifClose condition sign').within _).andThen fun h₂ => ?_
  refine (thenBranch.within _).andThen fun h₃ => ?_
  rw [last]
  exact ⟨rfl, rfl⟩

/-- An `if` statement that takes the `else` behind it. -/
theorem ifStatement_gives_else {opening other : Token} {s s' : Stmt}
    (sign : opening.kind = .leftParen) (condition : Reads eof .expression c e (c₂.push closing))
    (sign' : closing.kind = .rightParen)
    (thenBranch : (statement eof c₂).Gives s (c₄.push other)) (kind : other.kind = .elseWord)
    (elseBranch : (statement eof c₄).Gives s' c') :
    (ifStatement eof (c.push opening)).Gives (.branch e s s') c' := by
  obtain ⟨h₄, taken⟩ := c₄.take?_push (· == .elseWord) (beq_iff_eq.2 kind)
  rw [ifStatement]
  refine (c.expect_push .ifOpen sign).andThen fun h₁ => ?_
  refine ((closedExpression_gives .ifClose condition sign').within _).andThen fun h₂ => ?_
  refine (thenBranch.within _).andThen fun h₃ => ?_
  rw [taken]
  exact (elseBranch.within _).map _

theorem whileStatement_gives {opening : Token} {s : Stmt} (sign : opening.kind = .leftParen)
    (condition : Reads eof .expression c e (c₂.push closing))
    (sign' : closing.kind = .rightParen) (body : (statement eof c₂).Gives s c') :
    (whileStatement eof (c.push opening)).Gives (.loop e s) c' := by
  rw [whileStatement]
  refine (c.expect_push .whileOpen sign).andThen fun h₁ => ?_
  refine ((closedExpression_gives .whileClose condition sign').within _).andThen fun h₂ => ?_
  exact (body.within _).map _

theorem block_gives_end {brace : Token} (kind : brace.kind = .rightBrace) :
    (block eof (c.push brace)).Gives [] c := by
  have seen : (c.push brace).sees .rightBrace = true := by
    show (some brace.kind == some .rightBrace) = true
    rw [kind]
    rfl
  have nonempty : (c.push brace).rest ≠ [] := List.cons_ne_nil _ _
  rw [block, dif_neg nonempty, if_pos seen]
  exact (c.expect_push .blockClose kind).map _

/-- **The reader of a declaration gives a statement.** -/
def DeclarationGives (eof : Token) (c : Cursor) (s : Stmt) (c' : Cursor) : Prop :=
  ∃ nonempty : c.rest ≠ [],
    (declaration eof c nonempty).1 = s ∧ (declaration eof c nonempty).2.1 = c'

/-- A block goes on with a declaration as long as no brace closes it. -/
theorem block_gives {s : Stmt} {ss : List Stmt} (more : c.take? (· == .rightBrace) = none)
    (first : DeclarationGives eof c s c₁) (others : (block eof c₁).Gives ss c') :
    (block eof c).Gives (s :: ss) c' := by
  obtain ⟨nonempty, rfl, rfl⟩ := first
  have unseen : ¬c.sees .rightBrace = true := by simp [Cursor.sees_eq_isSome_take?, more]
  rw [block, dif_neg nonempty, if_neg unseen]
  exact (others.within _).map _

/-- Declarations up to the end of the input, one more in front. -/
theorem declarations_eq {s : Stmt} {ss : List Stmt} (first : DeclarationGives eof c s c₁)
    (others : declarations eof c₁ = (ss, c')) : declarations eof c = (s :: ss, c') := by
  obtain ⟨nonempty, rfl, rfl⟩ := first
  rw [declarations_of_nonempty eof nonempty, others]

/-- What is read without failing is the declaration. -/
theorem orResume_of_gives {nonempty : c.rest ≠ []} {x : Step c.size Stmt} {s : Stmt}
    (h : x.Gives s c') :
    (c.orResume nonempty x .absent).1 = s ∧ (c.orResume nonempty x .absent).2.1 = c' := by
  cases x with
  | ok s c' hlt => exact h
  | failed c' hle => exact h.elim

/-- A function declaration from its name, its parameters and its body. -/
theorem declaration_gives_function {word name opening brace : Token} {params : List Token}
    {body : List Stmt} (kind : word.kind = .funWord) (sign : name.kind = .identifier)
    (sign₁ : opening.kind = .leftParen)
    (list : (parameters eof c).Gives params (c₁.push brace))
    (sign₂ : brace.kind = .leftBrace) (inner : (block eof c₁).Gives body c') :
    DeclarationGives eof (((c.push opening).push name).push word)
      (.function name params body) c' := by
  obtain ⟨h₁, taken⟩ := ((c.push opening).push name).take?_push (· == .funWord)
    (beq_iff_eq.2 kind)
  have nonempty : (((c.push opening).push name).push word).rest ≠ [] := List.cons_ne_nil _ _
  refine ⟨nonempty, ?_⟩
  rw [declaration]
  refine orResume_of_gives ?_
  rw [taken]
  refine Step.Gives.within ?_ h₁
  rw [functionDeclaration]
  refine ((c.push opening).expect_push .functionName sign).andThen fun h₁ => ?_
  refine ((c.expect_push .functionOpen sign₁).within _).andThen fun h₂ => ?_
  refine (list.within _).andThen fun h₃ => ?_
  refine ((c₁.expect_push .bodyOpen sign₂).within _).andThen fun h₄ => ?_
  exact (inner.within _).map _

theorem declaration_gives_variable {word : Token} {s : Stmt} (kind : word.kind = .varWord)
    (inner : (variableDeclaration eof c).Gives s c') :
    DeclarationGives eof (c.push word) s c' := by
  have noFunction : (c.push word).take? (· == .funWord) = none :=
    c.take?_push_none (by rw [kind]; rfl)
  obtain ⟨h₁, taken⟩ := c.take?_push (· == .varWord) (beq_iff_eq.2 kind)
  have nonempty : (c.push word).rest ≠ [] := List.cons_ne_nil _ _
  refine ⟨nonempty, ?_⟩
  rw [declaration]
  refine orResume_of_gives ?_
  rw [noFunction, taken]
  exact inner.within _

/-- What begins with neither `fun` nor `var` is a statement, and no statement begins so. -/
theorem declaration_gives_statement {s : Stmt} (spans : Spans (.rule .statement) c c')
    (inner : (statement eof c).Gives s c') : DeclarationGives eof c s c' := by
  obtain ⟨w, derives, heq⟩ := spans
  obtain ⟨t, v, rfl, begun⟩ := statement_beginsWith w derives
  have nonempty : c.rest ≠ [] := by
    rw [heq]
    exact List.cons_ne_nil _ _
  -- neither word begins a statement
  have left {kind : Kind} (other : kind.beginsStatement = false) :
      c.take? (· == kind) = none := by
    rw [Cursor.eq_push_of_rest heq]
    refine Cursor.take?_push_none _ (beq_eq_false_iff_ne.2 fun same => ?_)
    rw [same, other] at begun
    exact Bool.noConfusion begun
  refine ⟨nonempty, ?_⟩
  rw [declaration]
  refine orResume_of_gives ?_
  rw [left rfl, left rfl]
  exact inner

/-- Parameters that were read behind some given ones are given by the reader, the same count
assumed. -/
theorem someParameters_gives_of_reads {given all : List Token}
    (h : ReadsParameters eof given c all c')
    (some : given ≠ [] ∨ c.take? (· == .rightParen) = none) :
    ∃ others, all = given ++ others ∧ (someParameters eof given.length c).Gives others c' := by
  induction h with
  | @none c paren sign =>
    obtain ⟨h, taken⟩ := c.take?_push (· == .rightParen) (beq_iff_eq.2 sign)
    rw [taken] at some
    rcases some with others | left
    · exact absurd rfl others
    · exact nomatch left
  | last first sign sign' => exact ⟨_, rfl, someParameters_gives_last first sign sign'⟩
  | more first sign sign' _ ih =>
    obtain ⟨others, rfl, more⟩ := ih (.inl (by simp))
    rw [List.length_append] at more
    exact ⟨_, List.append_assoc .., someParameters_gives first sign sign' more⟩

theorem parameters_gives {params : List Token} (h : ReadsParameters eof [] c params c') :
    (parameters eof c).Gives params c' := by
  have named {c₁ : Cursor} {name : Token}
      (first : c.checkCount eof 0 .tooManyParameters = c₁.push name)
      (sign : name.kind = .identifier) : (parameters eof c).Gives params c' := by
    have rest : c.rest = name :: c₁.rest := by
      rw [← Cursor.rest_checkCount c eof 0 .tooManyParameters, first]
      rfl
    have noParen : c.take? (· == .rightParen) = none := by
      rw [Cursor.eq_push_of_rest rest]
      exact Cursor.take?_push_none _ (by rw [sign]; rfl)
    obtain ⟨others, rfl, read⟩ := someParameters_gives_of_reads h (.inr noParen)
    unfold parameters
    rw [noParen]
    exact read
  cases h with
  | none sign =>
    obtain ⟨h, taken⟩ := c'.take?_push (· == .rightParen) (beq_iff_eq.2 sign)
    unfold parameters
    rw [taken]
    exact ⟨rfl, rfl⟩
  | last first sign _ => exact named first sign
  | more first sign _ _ => exact named first sign

end Statements

end Grammar

/-! ## Passages -/

/-- **The reader of a passage gives statements.** -/
def Passage.Gives (eof : Token) (c : Cursor) (ss : List Stmt) (c' : Cursor) : Passage → Prop
  | .declarations => Grammar.declarations eof c = (ss, c')
  | .declaration => ∀ s, ss = [s] → Grammar.DeclarationGives eof c s c'
  | .statement => ∀ s, ss = [s] → (Grammar.statement eof c).Gives s c'
  | .block => (Grammar.block eof c).Gives ss c'
  | .variableTail => ∀ s, ss = [s] → (Grammar.variableDeclaration eof c).Gives s c'
  | .initializer => ∀ s, ss = [s] → (Grammar.forInitializer eof c).Gives s c'

open Grammar in
/-- **The rules determine what is read** of a program, where nothing was reported. -/
theorem ReadsStatements.gives {p : Passage} {ss : List Stmt} (h : ReadsStatements eof p c ss c')
    (quiet : c'.reports = c.reports) : p.Gives eof c ss c' := by
  induction h with
  | done empty => exact declarations_of_empty eof empty
  | next first others ih ih' =>
    obtain ⟨quiet₁, quiet₂⟩ := first.advances.reports_eq others.advances quiet
    exact declarations_eq (ih quiet₁ _ rfl) (ih' quiet₂)
  | function kind sign sign₁ list sign₂ inner ih =>
    obtain ⟨-, quiet₂⟩ := list.advances.past.reports_eq inner.advances quiet
    rintro _ ⟨⟩
    exact declaration_gives_function kind sign sign₁ (parameters_gives list) sign₂ (ih quiet₂)
  | variableDeclaration kind _ ih =>
    rintro _ ⟨⟩
    exact declaration_gives_variable kind (ih quiet _ rfl)
  | statement inner ih =>
    rintro _ ⟨⟩
    exact declaration_gives_statement (inner.spans quiet) (ih quiet _ rfl)
  | skipped failed => exact absurd quiet failed.reported
  | uninitialized sign sign' =>
    rintro _ ⟨⟩
    exact variableDeclaration_gives_uninitialized sign sign'
  | initialized sign sign₁ value sign₂ =>
    rintro _ ⟨⟩
    exact variableDeclaration_gives sign sign₁ value sign₂
  | noInitializer sign =>
    rintro _ ⟨⟩
    exact forInitializer_gives_none sign
  | variableInitializer kind _ ih =>
    rintro _ ⟨⟩
    exact forInitializer_gives_variable kind (ih quiet _ rfl)
  | expressionInitializer value sign =>
    rintro _ ⟨⟩
    exact forInitializer_gives_expression value sign quiet
  | expression value sign =>
    rintro _ ⟨⟩
    exact statement_gives_expression value sign quiet
  | print kind value sign =>
    rintro _ ⟨⟩
    rw [statement_push]
    simp only [kind]
    exact ((closedExpression_gives .printEnd value sign).within _).map _
  | ret kind result =>
    rintro _ ⟨⟩
    rw [statement_push]
    simp only [kind]
    exact ((optional_gives .returnEnd rfl result quiet).within _).map _
  | loop kind sign condition sign' body ih =>
    obtain ⟨-, quiet₂⟩ := condition.advances.past.reports_eq body.advances quiet
    rintro _ ⟨⟩
    rw [statement_push]
    simp only [kind]
    exact (whileStatement_gives sign condition sign' (ih quiet₂ _ rfl)).within _
  | branch kind sign condition sign' thenBranch last ih =>
    obtain ⟨-, quiet₂⟩ := condition.advances.past.reports_eq thenBranch.advances quiet
    rintro _ ⟨⟩
    rw [statement_push]
    simp only [kind]
    exact (ifStatement_gives sign condition sign' (ih quiet₂ _ rfl) last).within _
  | branchElse kind sign condition sign' thenBranch kind' elseBranch ih ih' =>
    have moved := thenBranch.advances.past.trans elseBranch.advances
    obtain ⟨-, quiet₂⟩ := condition.advances.past.reports_eq moved quiet
    obtain ⟨quiet₃, quiet₄⟩ := thenBranch.advances.past.reports_eq elseBranch.advances quiet₂
    rintro _ ⟨⟩
    rw [statement_push]
    simp only [kind]
    exact (ifStatement_gives_else sign condition sign' (ih quiet₃ _ rfl) kind'
      (ih' quiet₄ _ rfl)).within _
  | forLoop kind sign first second third inner ih ih' =>
    have moved₂ := third.advances.trans inner.advances
    have moved₁ := second.advances.trans moved₂
    obtain ⟨quiet₁, quiet⟩ := first.advances.reports_eq moved₁ quiet
    obtain ⟨quiet₂, quiet⟩ := second.advances.reports_eq moved₂ quiet
    obtain ⟨quiet₃, quiet⟩ := third.advances.reports_eq inner.advances quiet
    rintro _ ⟨⟩
    rw [statement_push]
    simp only [kind]
    exact (forStatement_gives sign (ih quiet₁ _ rfl)
      (optional_gives .forConditionEnd rfl second quiet₂)
      (optional_gives .forClose rfl third quiet₃) (ih' quiet _ rfl)).within _
  | block kind inner ih =>
    rintro _ ⟨⟩
    rw [statement_push]
    simp only [kind]
    exact ((ih quiet).within _).map _
  | blockEnd kind => exact block_gives_end kind
  | blockNext more first others ih ih' =>
    obtain ⟨quiet₁, quiet₂⟩ := first.advances.reports_eq others.advances quiet
    exact block_gives more (ih quiet₁ _ rfl) (ih' quiet₂)

end Kix
