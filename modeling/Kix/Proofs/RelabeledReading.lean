import Kix.Proofs.Relabeling

/-!
# Reading relabeled tokens

A reader looks at the kinds of tokens and hands out the next number. So if the tokens
in front of a cursor and the numbers it hands out are relabeled, it does the same as
before, relabeled, whether it succeeds or fails (`Grammar.expression_relabeled` and the
lemmas behind it). Reports made before are only carried along. A parse is therefore carried
over as a whole (`parse_relabel`).

Numbers are handed out one after the other, so the relabelings that can be carried
through a reader are the **shifts**, which add one amount to all numbers.
-/

namespace Kix

/-- **A shift** of all numbers by one amount, and other lines. -/
structure Shift where
  amount : Nat := 0
  line : Nat → Nat := fun line => line

/-- The relabeling of a shift. -/
@[coe] def Shift.relabeling (σ : Shift) : Relabeling := ⟨(· + σ.amount), σ.line⟩

instance : Coe Shift Relabeling := ⟨Shift.relabeling⟩

variable {ρ : Relabeling} {older : List Report}

/-! ## Cursors and steps -/

namespace Cursor

/-- The cursor in front of the relabeled tokens, with `older` reports behind those that
were made. -/
def relabel (ρ : Relabeling) (older : List Report) (c : Cursor) : Cursor :=
  ⟨c.rest.map (Token.relabel ρ), ρ.id c.nextId, c.reports.map (Report.relabel ρ) ++ older⟩

@[simp] theorem rest_relabel (c : Cursor) :
    (c.relabel ρ older).rest = c.rest.map (Token.relabel ρ) := rfl

@[simp] theorem size_relabel (c : Cursor) : (c.relabel ρ older).size = c.size := List.length_map _

/-- The next token is looked at through the relabeling. -/
theorem peek_relabel (c : Cursor) (eof : Token) :
    (c.relabel ρ older).peek (eof.relabel ρ) = (c.peek eof).relabel ρ := by
  obtain ⟨_ | ⟨t, rest⟩, nextId, reports⟩ := c <;> rfl

/-- A report about a relabeled token is the relabeled report. -/
theorem complain_relabel (c : Cursor) (t : Token) (p : Problem) :
    (c.relabel ρ older).complain (t.relabel ρ) p = (c.complain t p).relabel ρ older := rfl

/-- Lists are counted alike. A list that is too long is reported at the relabeled token. -/
theorem checkCount_relabel (c : Cursor) (eof : Token) (count : Nat) (p : Problem) :
    (c.relabel ρ older).checkCount (eof.relabel ρ) count p
      = (c.checkCount eof count p).relabel ρ older := by
  unfold checkCount
  split
  · rw [peek_relabel, complain_relabel]
  · rfl

/-- Handing out a number commutes with a shift. It would not with an arbitrary renaming. -/
theorem advanceId_relabel (σ : Shift) (c : Cursor) :
    (c.relabel σ older).advanceId = c.advanceId.relabel σ older := by
  unfold advanceId relabel Shift.relabeling
  rw [Nat.add_right_comm]

/-- Kinds are not relabeled, so a cursor sees the same kind next. -/
theorem sees_relabel (c : Cursor) (kind : Kind) : (c.relabel ρ older).sees kind = c.sees kind := by
  obtain ⟨_ | ⟨t, rest⟩, nextId, reports⟩ := c <;> rfl

/-- At the end of the input the relabeled cursor is at the end, too. -/
theorem next?_relabel_none {c : Cursor} (h : c.next? = none) :
    (c.relabel ρ older).next? = none := by
  obtain ⟨_ | ⟨t, rest⟩, nextId, reports⟩ := c
  · rfl
  · cases h

/-- Reading a token gives the relabeled one and leaves the relabeled cursor. -/
theorem next?_relabel_some {c c' : Cursor} {t : Token} {h : c'.size < c.size}
    (found : c.next? = some (t, ⟨c', h⟩)) :
    ∃ h', (c.relabel ρ older).next? = some (t.relabel ρ, ⟨c'.relabel ρ older, h'⟩) := by
  obtain rfl := eq_push_of_next? found
  exact ⟨Nat.lt_succ_self _, rfl⟩

/-- A token that is refused is refused when relabeled, since only its kind counts. -/
theorem take?_relabel_none {accept : Kind → Bool} {c : Cursor} (h : c.take? accept = none) :
    (c.relabel ρ older).take? accept = none := by
  obtain ⟨_ | ⟨t, rest⟩, nextId, reports⟩ := c
  · rfl
  · have refused : ¬accept t.kind = true := by simpa [take?, next?, Option.filter] using h
    show Option.filter (fun found => accept found.1.kind) (some (t.relabel ρ, _)) = none
    simp [Option.filter, refused]

/-- A token that is accepted is accepted when relabeled. -/
theorem take?_relabel_some {accept : Kind → Bool} {c c' : Cursor} {t : Token}
    {h : c'.size < c.size} (found : c.take? accept = some (t, ⟨c', h⟩)) :
    ∃ h', (c.relabel ρ older).take? accept = some (t.relabel ρ, ⟨c'.relabel ρ older, h'⟩) := by
  obtain ⟨rfl, accepted⟩ := eq_push_of_take? found
  obtain ⟨h', next⟩ := next?_relabel_some (ρ := ρ) (Option.filter_eq_some_iff.1 found).1
  refine ⟨h', ?_⟩
  rw [take?, next]
  simp [Option.filter, accepted]

/-- After an error, reading resumes at the relabeled token. -/
theorem resume_relabel (ts : List Token) :
    resume (ts.map (Token.relabel ρ)) = (resume ts).map (Token.relabel ρ) := by
  induction ts with
  | nil => rfl
  | cons t rest ih =>
    have head : (rest.map (Token.relabel ρ)).head?.any (beginsStatement ·.kind)
        = rest.head?.any (beginsStatement ·.kind) := by
      cases rest <;> rfl
    rw [List.map_cons, resume, resume, head, Token.kind_relabel]
    split
    · rfl
    · exact ih

end Cursor

/-- **The same outcome, relabeled.** -/
inductive Step.Relabeled (ρ : Relabeling) (older : List Report) {m n : Nat} {α : Type} (f : α → α) :
    Step m α → Step n α → Prop where
  | ok {a c h h'} : Relabeled ρ older f (.ok a c h) (.ok (f a) (c.relabel ρ older) h')
  | failed {c h h'} : Relabeled ρ older f (.failed c h) (.failed (c.relabel ρ older) h')

namespace Step.Relabeled

/-- Success, up to equations. -/
theorem okOf {m n : Nat} {α : Type} {f : α → α} {a a' : α} {c c' : Cursor} {h : c.size < m}
    {h' : c'.size < n} (value : a' = f a) (cursor : c' = c.relabel ρ older) :
    Relabeled ρ older f (.ok a c h) (.ok a' c' h') := by
  subst value cursor
  exact .ok

variable {m n m' n' : Nat} {α β : Type} {f : α → α} {g : β → β} {x : Step m α} {x' : Step m' α}

/-- A wider bound on the cursor changes nothing. -/
theorem within (h : Relabeled ρ older f x x') (hlt : m < n) (hlt' : m' < n') :
    Relabeled ρ older f (x.within hlt) (x'.within hlt') := by
  cases h with
  | ok => exact .ok
  | failed => exact .failed

theorem relocate (h : Relabeled ρ older f x x') (heq : m = n) (heq' : m' = n') :
    Relabeled ρ older f (x.relocate heq) (x'.relocate heq') := by
  cases h with
  | ok => exact .ok
  | failed => exact .failed

/-- What is made of the result has to commute with the relabeling. -/
theorem map (h : Relabeled ρ older f x x') {k k' : α → β} (commutes : ∀ a, k' (f a) = g (k a)) :
    Relabeled ρ older g (x.map k) (x'.map k') := by
  cases h with
  | ok =>
    unfold Step.map
    dsimp only
    rw [commutes]
    exact .ok
  | failed => exact .failed

/-- **One step after the other**: the second is only ever given relabeled results and
cursors. -/
theorem andThen (h : Relabeled ρ older f x x') {k : α → (c : Cursor) → c.size < m → Step m β}
    {k' : α → (c : Cursor) → c.size < m' → Step m' β}
    (next : ∀ a c hlt hlt', Relabeled ρ older g (k a c hlt) (k' (f a) (c.relabel ρ older) hlt')) :
    Relabeled ρ older g (x.andThen k) (x'.andThen k') := by
  cases h with
  | ok => exact next _ _ _ _
  | failed => exact .failed

/-- The same for a second step that is bound to an earlier cursor. -/
theorem andThenFrom (h : Relabeled ρ older f x x') {hlt : m < n} {hlt' : m' < n'}
    {k : α → (c : Cursor) → c.size < m → Step n β}
    {k' : α → (c : Cursor) → c.size < m' → Step n' β}
    (next : ∀ a c h h', Relabeled ρ older g (k a c h) (k' (f a) (c.relabel ρ older) h')) :
    Relabeled ρ older g (x.andThenFrom hlt k) (x'.andThenFrom hlt' k') := by
  cases h with
  | ok => exact next _ _ _ _
  | failed => exact .failed

end Step.Relabeled

/-- A token that is expected is found or missed alike. -/
theorem Cursor.expect_relabeled (c : Cursor) (eof : Token) (what : Expectation) :
    (c.expect eof what).Relabeled ρ older (Token.relabel ρ)
      ((c.relabel ρ older).expect (eof.relabel ρ) what) := by
  unfold Cursor.expect
  rcases found : c.take? (· == what.kind) with _ | ⟨t, c', h⟩
  · rw [take?_relabel_none found, peek_relabel]
    exact .failed
  · obtain ⟨h', found'⟩ := take?_relabel_some (ρ := ρ) found
    rw [found']
    exact .ok

/-! ## Expressions -/

namespace Grammar

variable (σ : Shift) (older : List Report) (eof : Token)

mutual

/-- An assignment is told from other expressions by a name in front of it, and its number is
the next one on both sides. -/
theorem expression_relabeled (c : Cursor) :
    (expression eof c).Relabeled σ older (Expr.relabel σ)
      (expression (eof.relabel σ) (c.relabel σ older)) := by
  rw [expression, expression]
  refine (conditional_relabeled c).andThen fun target c₁ h₁ h₁' => ?_
  rcases found : c₁.take? (· == .equal) with _ | ⟨equals, c₂, h₂⟩
  · rw [Cursor.take?_relabel_none found]
    exact .ok
  · obtain ⟨h₂', found'⟩ := Cursor.take?_relabel_some (ρ := σ) found
    rw [found']
    have hlt := Cursor.shorter_trans h₂ h₁
    refine ((expression_relabeled c₂).within hlt _).andThen fun value c₃ h₃ h₃' => ?_
    cases target with
    | var id name =>
      rw [Expr.relabel]
      exact .okOf (by rw [Expr.relabel]; rfl) (Cursor.advanceId_relabel σ c₃)
    | _ =>
      simp only [Expr.relabel]
      exact .okOf (by simp only [Expr.relabel]) rfl
termination_by (c.size, 6 + Tier.all.length)

/-- A conditional expression has three parts and two marks, of which only the kinds
count. -/
theorem conditional_relabeled (c : Cursor) :
    (conditional eof c).Relabeled σ older (Expr.relabel σ)
      (conditional (eof.relabel σ) (c.relabel σ older)) := by
  rw [conditional, conditional]
  refine (operators_relabeled Tier.all c).andThen fun condition c₁ h₁ h₁' => ?_
  rcases found : c₁.take? (· == .question) with _ | ⟨mark, c₂, h₂⟩
  · rw [Cursor.take?_relabel_none found]
    exact .ok
  · obtain ⟨h₂', found'⟩ := Cursor.take?_relabel_some (ρ := σ) found
    rw [found']
    have hlt := Cursor.shorter_trans h₂ h₁
    refine ((expression_relabeled c₂).within hlt _).andThen fun thenBranch c₃ h₃ h₃' => ?_
    refine ((c₃.expect_relabeled eof .conditionalColon).within _ _).andThen
      fun colon c₄ h₄ h₄' => ?_
    exact ((expression_relabeled c₄).within h₄ _).map fun elseBranch => by rw [Expr.relabel]
termination_by (c.size, 5 + Tier.all.length)

/-- Operators by tiers, the loosest first. -/
theorem operators_relabeled (tiers : List Tier) (c : Cursor) :
    (operators eof tiers c).Relabeled σ older (Expr.relabel σ)
      (operators (eof.relabel σ) tiers (c.relabel σ older)) := by
  rw [operators.eq_def, operators.eq_def]
  match tiers with
  | [] => exact unary_relabeled c
  | tier :: tighter =>
    exact (operators_relabeled tighter c).andThen fun left c₁ h₁ h₁' =>
      moreOperators_relabeled tier tighter c left c₁ h₁ h₁'
termination_by (c.size, 4 + tiers.length)

/-- A chain of operators of one tier is joined from the left on both sides. -/
theorem moreOperators_relabeled (tier : Tier) (tighter : List Tier) (start : Cursor)
    (left : Expr) (c : Cursor) (h : c.size < start.size)
    (h' : (c.relabel σ older).size < (start.relabel σ older).size) :
    (moreOperators eof tier tighter start left c h).Relabeled σ older (Expr.relabel σ)
      (moreOperators (eof.relabel σ) tier tighter (start.relabel σ older) (left.relabel σ)
        (c.relabel σ older) h') := by
  rw [moreOperators, moreOperators]
  rcases found : c.take? tier.accepts with _ | ⟨operator, c₁, h₁⟩
  · rw [Cursor.take?_relabel_none found]
    exact .ok
  · obtain ⟨h₁', found'⟩ := Cursor.take?_relabel_some (ρ := σ) found
    rw [found']
    refine ((operators_relabeled tighter c₁).within h₁ h₁').andThenFrom
      fun right c₂ h₂ h₂' => ?_
    rw [← Tier.relabel_join]
    exact moreOperators_relabeled tier tighter start _ c₂ _ _
termination_by (c.size, 0)

/-- An operator in front of an operand, any number of times. -/
theorem unary_relabeled (c : Cursor) :
    (unary eof c).Relabeled σ older (Expr.relabel σ)
      (unary (eof.relabel σ) (c.relabel σ older)) := by
  rw [unary, unary]
  rcases found : c.take? isUnaryOperator with _ | ⟨operator, c₁, h₁⟩
  · rw [Cursor.take?_relabel_none found]
    exact call_relabeled c
  · obtain ⟨h₁', found'⟩ := Cursor.take?_relabel_some (ρ := σ) found
    rw [found']
    exact ((unary_relabeled c₁).within h₁ _).map fun operand => by rw [Expr.relabel]
termination_by (c.size, 3)

/-- A call is what is called, with any number of argument lists behind it. -/
theorem call_relabeled (c : Cursor) :
    (call eof c).Relabeled σ older (Expr.relabel σ) (call (eof.relabel σ) (c.relabel σ older)) := by
  rw [call, call]
  exact (primary_relabeled c).andThen fun callee c₁ h₁ h₁' =>
    moreCalls_relabeled c callee c₁ h₁ h₁'
termination_by (c.size, 2)

/-- Argument lists behind what is called. The closing parenthesis is kept in the tree,
relabeled. -/
theorem moreCalls_relabeled (start : Cursor) (callee : Expr) (c : Cursor)
    (h : c.size < start.size) (h' : (c.relabel σ older).size < (start.relabel σ older).size) :
    (moreCalls eof start callee c h).Relabeled σ older (Expr.relabel σ)
      (moreCalls (eof.relabel σ) (start.relabel σ older) (callee.relabel σ) (c.relabel σ older)
        h') := by
  rw [moreCalls, moreCalls]
  rcases found : c.take? (· == .leftParen) with _ | ⟨opening, c₁, h₁⟩
  · rw [Cursor.take?_relabel_none found]
    exact .ok
  · obtain ⟨h₁', found'⟩ := Cursor.take?_relabel_some (ρ := σ) found
    rw [found']
    refine ((arguments_relabeled c₁).within h₁ h₁').andThenFrom
      fun (given, paren) c₂ h₂ h₂' => ?_
    have more := moreCalls_relabeled start (.call callee paren given) c₂
      (Cursor.shorter_trans h₂ h) (Cursor.shorter_trans h₂' h')
    rw [Expr.relabel] at more
    exact more
termination_by (c.size, 0)

/-- The arguments up to the closing parenthesis. -/
theorem arguments_relabeled (c : Cursor) :
    (arguments eof c).Relabeled σ older (Prod.map (relabelArguments σ) (Token.relabel σ))
      (arguments (eof.relabel σ) (c.relabel σ older)) := by
  rw [arguments, arguments]
  rcases found : c.take? (· == .rightParen) with _ | ⟨paren, c₁, h₁⟩
  · rw [Cursor.take?_relabel_none found]
    exact someArguments_relabeled 0 c
  · obtain ⟨h₁', found'⟩ := Cursor.take?_relabel_some (ρ := σ) found
    rw [found']
    exact .ok
termination_by (c.size, 8 + Tier.all.length)

/-- Arguments behind the first `count` ones. The count does not depend on the relabeling. -/
theorem someArguments_relabeled (count : Nat) (c : Cursor) :
    (someArguments eof count c).Relabeled σ older (Prod.map (relabelArguments σ) (Token.relabel σ))
      (someArguments (eof.relabel σ) count (c.relabel σ older)) := by
  rw [someArguments, someArguments]
  have hsize := Cursor.size_checkCount c eof count .tooManyArguments
  have read := expression_relabeled (c.checkCount eof count .tooManyArguments)
  rw [← Cursor.checkCount_relabel] at read
  refine (read.relocate hsize _).andThen fun first c₁ h₁ h₁' => ?_
  rcases found : c₁.take? (· == .comma) with _ | ⟨comma, c₂, h₂⟩
  · rw [Cursor.take?_relabel_none found]
    exact ((c₁.expect_relabeled eof .argumentsClose).within _ _).map fun paren => rfl
  · obtain ⟨h₂', found'⟩ := Cursor.take?_relabel_some (ρ := σ) found
    rw [found']
    have hlt := Cursor.shorter_trans h₂ h₁
    exact ((someArguments_relabeled (count + 1) c₂).within hlt _).map fun others => rfl
termination_by (c.size, 7 + Tier.all.length)

/-- Literals, names and groups. A name is given the next number, which is shifted. -/
theorem primary_relabeled (c : Cursor) :
    (primary eof c).Relabeled σ older (Expr.relabel σ)
      (primary (eof.relabel σ) (c.relabel σ older)) := by
  rw [primary, primary]
  rcases found : c.next? with _ | ⟨t, c₁, h₁⟩
  · rw [Cursor.next?_relabel_none found]
    exact .failed
  · obtain ⟨h₁', found'⟩ := Cursor.next?_relabel_some (ρ := σ) found
    rw [found']
    simp only [Token.kind_relabel]
    split
    case h_6 =>
      refine .okOf ?_ (Cursor.advanceId_relabel σ c₁)
      rw [Expr.relabel]
      rfl
    case h_7 =>
      refine ((expression_relabeled c₁).within h₁ _).andThen fun inner c₂ h₂ h₂' => ?_
      exact ((c₂.expect_relabeled eof .groupClose).within _ _).map fun _ => by rw [Expr.relabel]
    case h_8 => exact .failed
    all_goals exact .okOf (by simp [Expr.relabel]) rfl
termination_by (c.size, 1)

end

/-! ## Statements -/

/-- An expression that may be missing in front of a closing token. -/
theorem optional_relabeled (c : Cursor) (closing : Expectation) :
    (optional eof c closing).Relabeled σ older (Option.map (Expr.relabel σ))
      (optional (eof.relabel σ) (c.relabel σ older) closing) := by
  unfold optional
  rw [Cursor.sees_relabel]
  split
  · exact (c.expect_relabeled eof closing).map fun _ => rfl
  · refine (expression_relabeled σ older eof c).andThen fun value c₁ h₁ h₁' => ?_
    exact ((c₁.expect_relabeled eof closing).within _ _).map fun _ => rfl

/-- An expression and the token behind it. -/
theorem closedExpression_relabeled (c : Cursor) (closing : Expectation) :
    (closedExpression eof c closing).Relabeled σ older (Expr.relabel σ)
      (closedExpression (eof.relabel σ) (c.relabel σ older) closing) := by
  unfold closedExpression
  refine (expression_relabeled σ older eof c).andThen fun value c₁ h₁ h₁' => ?_
  exact ((c₁.expect_relabeled eof closing).within _ _).map fun _ => rfl

/-- A variable declaration, with its initializer or without. -/
theorem variableDeclaration_relabeled (c : Cursor) :
    (variableDeclaration eof c).Relabeled σ older (Stmt.relabel σ)
      (variableDeclaration (eof.relabel σ) (c.relabel σ older)) := by
  unfold variableDeclaration
  refine (c.expect_relabeled eof .variableName).andThen fun name c₁ h₁ h₁' => ?_
  rcases found : c₁.take? (· == .equal) with _ | ⟨equals, c₂, h₂⟩
  · rw [Cursor.take?_relabel_none found]
    refine ((c₁.expect_relabeled eof .variableEnd).within _ _).map fun _ => ?_
    rw [Stmt.relabel, Expr.relabel]
  · obtain ⟨h₂', found'⟩ := Cursor.take?_relabel_some (ρ := σ) found
    rw [found']
    refine ((closedExpression_relabeled σ older eof c₂ .variableEnd).within _ _).map fun _ => ?_
    rw [Stmt.relabel]

theorem expressionStatement_relabeled (c : Cursor) :
    (expressionStatement eof c).Relabeled σ older (Stmt.relabel σ)
      (expressionStatement (eof.relabel σ) (c.relabel σ older)) :=
  (closedExpression_relabeled σ older eof c .expressionEnd).map fun _ => by rw [Stmt.relabel]

/-- Parameters behind the first `count` ones. -/
theorem someParameters_relabeled (count : Nat) (c : Cursor) :
    (someParameters eof count c).Relabeled σ older (List.map (Token.relabel σ))
      (someParameters (eof.relabel σ) count (c.relabel σ older)) := by
  rw [someParameters, someParameters]
  have hsize := Cursor.size_checkCount c eof count .tooManyParameters
  have read : Step.Relabeled σ older (Token.relabel σ) _ _ :=
    (c.checkCount eof count .tooManyParameters).expect_relabeled eof .parameterName
  rw [← Cursor.checkCount_relabel] at read
  refine (read.relocate hsize _).andThen fun first c₁ h₁ h₁' => ?_
  rcases found : c₁.take? (· == .comma) with _ | ⟨comma, c₂, h₂⟩
  · rw [Cursor.take?_relabel_none found]
    exact ((c₁.expect_relabeled eof .parametersClose).within _ _).map fun _ => rfl
  · obtain ⟨h₂', found'⟩ := Cursor.take?_relabel_some (ρ := σ) found
    rw [found']
    have hlt := Cursor.shorter_trans h₂ h₁
    exact ((someParameters_relabeled (count + 1) c₂).within hlt _).map fun others => rfl
termination_by c.size

theorem parameters_relabeled (c : Cursor) :
    (parameters eof c).Relabeled σ older (List.map (Token.relabel σ))
      (parameters (eof.relabel σ) (c.relabel σ older)) := by
  unfold parameters
  rcases found : c.take? (· == .rightParen) with _ | ⟨paren, c₁, h₁⟩
  · rw [Cursor.take?_relabel_none found]
    exact someParameters_relabeled σ older eof 0 c
  · obtain ⟨h₁', found'⟩ := Cursor.take?_relabel_some (ρ := σ) found
    rw [found']
    exact .ok

/-- What stands first in a `for` loop: a declaration, an expression or nothing. -/
theorem forInitializer_relabeled (c : Cursor) :
    (forInitializer eof c).Relabeled σ older (Stmt.relabel σ)
      (forInitializer (eof.relabel σ) (c.relabel σ older)) := by
  unfold forInitializer
  rcases found : c.take? (· == .semicolon) with _ | ⟨closing, c₁, h₁⟩
  · rw [Cursor.take?_relabel_none found]
    rcases found₁ : c.take? (· == .varWord) with _ | ⟨word, c₁, h₁⟩
    · rw [Cursor.take?_relabel_none found₁]
      exact expressionStatement_relabeled σ older eof c
    · obtain ⟨h₁', found'⟩ := Cursor.take?_relabel_some (ρ := σ) found₁
      rw [found']
      exact (variableDeclaration_relabeled σ older eof c₁).within _ _
  · obtain ⟨h₁', found'⟩ := Cursor.take?_relabel_some (ρ := σ) found
    rw [found']
    exact .okOf (by rw [Stmt.relabel]) rfl

/-- A failed declaration is dropped and reading resumes behind it, at the same place on both
sides. -/
theorem orResume_relabeled {c : Cursor} (nonempty : c.rest ≠ [])
    (nonempty' : (c.relabel σ older).rest ≠ []) {x : Step c.size Stmt}
    {x' : Step (c.relabel σ older).size Stmt}
    (h : x.Relabeled σ older (Stmt.relabel σ) x') :
    ((c.relabel σ older).orResume nonempty' x' .absent).1
        = (c.orResume nonempty x .absent).1.relabel σ
      ∧ ((c.relabel σ older).orResume nonempty' x' .absent).2.1
        = (c.orResume nonempty x .absent).2.1.relabel σ older := by
  cases h with
  | ok => exact ⟨rfl, rfl⟩
  | @failed c₁ =>
    refine ⟨by simp [Cursor.orResume, Stmt.relabel], ?_⟩
    show ({ c₁.relabel σ older with rest := _ } : Cursor) = _
    rw [Cursor.rest_relabel, Cursor.resume_relabel]
    rfl

mutual

/-- A statement is told by the kind of its first token. -/
theorem statement_relabeled (c : Cursor) :
    (statement eof c).Relabeled σ older (Stmt.relabel σ)
      (statement (eof.relabel σ) (c.relabel σ older)) := by
  rw [statement, statement]
  rcases found : c.next? with _ | ⟨t, c₁, h₁⟩
  · rw [Cursor.next?_relabel_none found]
    exact expressionStatement_relabeled σ older eof c
  · obtain ⟨h₁', found'⟩ := Cursor.next?_relabel_some (ρ := σ) found
    rw [found']
    simp only [Token.kind_relabel]
    split
    · exact (forStatement_relabeled c₁).within _ _
    · exact (ifStatement_relabeled c₁).within _ _
    · refine ((closedExpression_relabeled σ older eof c₁ .printEnd).within _ _).map fun _ => ?_
      rw [Stmt.relabel]
    · refine ((optional_relabeled σ older eof c₁ .returnEnd).within _ _).map fun value => ?_
      rw [Stmt.relabel]
      cases value <;> simp [Expr.relabel]
    · exact (whileStatement_relabeled c₁).within _ _
    · refine ((block_relabeled c₁).within _ _).map fun _ => ?_
      rw [Stmt.relabel]
    · exact expressionStatement_relabeled σ older eof c
termination_by (c.size, 1)

/-- A `for` loop and its three clauses. -/
theorem forStatement_relabeled (c : Cursor) :
    (forStatement eof c).Relabeled σ older (Stmt.relabel σ)
      (forStatement (eof.relabel σ) (c.relabel σ older)) := by
  rw [forStatement, forStatement]
  refine (c.expect_relabeled eof .forOpen).andThen fun _ c₁ h₁ h₁' => ?_
  refine ((forInitializer_relabeled σ older eof c₁).within _ _).andThen fun init c₂ h₂ h₂' => ?_
  refine ((optional_relabeled σ older eof c₂ .forConditionEnd).within _ _).andThen
    fun condition c₃ h₃ h₃' => ?_
  refine ((optional_relabeled σ older eof c₃ .forClose).within _ _).andThen
    fun increment c₄ h₄ h₄' => ?_
  refine ((statement_relabeled c₄).within _ _).map fun body => ?_
  cases condition <;> cases increment <;>
    simp [Stmt.forLoop, Stmt.relabel, relabelBody, Expr.relabel]
termination_by (c.size, 0)

/-- An `if` statement. Whether there is an `else` is a matter of the next kind. -/
theorem ifStatement_relabeled (c : Cursor) :
    (ifStatement eof c).Relabeled σ older (Stmt.relabel σ)
      (ifStatement (eof.relabel σ) (c.relabel σ older)) := by
  rw [ifStatement, ifStatement]
  refine (c.expect_relabeled eof .ifOpen).andThen fun _ c₁ h₁ h₁' => ?_
  refine ((closedExpression_relabeled σ older eof c₁ .ifClose).within _ _).andThen
    fun condition c₂ h₂ h₂' => ?_
  refine ((statement_relabeled c₂).within _ _).andThen fun thenBranch c₃ h₃ h₃' => ?_
  rcases found : c₃.take? (· == .elseWord) with _ | ⟨other, c₄, h₄⟩
  · rw [Cursor.take?_relabel_none found]
    exact .okOf (by simp [Stmt.relabel]) rfl
  · obtain ⟨h₄', found'⟩ := Cursor.take?_relabel_some (ρ := σ) found
    rw [found']
    have hlt := Cursor.shorter_trans h₄ h₃
    exact ((statement_relabeled c₄).within hlt _).map fun elseBranch => by rw [Stmt.relabel]
termination_by (c.size, 0)

theorem whileStatement_relabeled (c : Cursor) :
    (whileStatement eof c).Relabeled σ older (Stmt.relabel σ)
      (whileStatement (eof.relabel σ) (c.relabel σ older)) := by
  rw [whileStatement, whileStatement]
  refine (c.expect_relabeled eof .whileOpen).andThen fun _ c₁ h₁ h₁' => ?_
  refine ((closedExpression_relabeled σ older eof c₁ .whileClose).within _ _).andThen
    fun condition c₂ h₂ h₂' => ?_
  exact ((statement_relabeled c₂).within _ _).map fun body => by rw [Stmt.relabel]
termination_by (c.size, 0)

/-- The declarations up to the brace that closes the block. -/
theorem block_relabeled (c : Cursor) :
    (block eof c).Relabeled σ older (relabelBody σ)
      (block (eof.relabel σ) (c.relabel σ older)) := by
  rw [block, block]
  by_cases empty : c.rest = []
  · rw [dif_pos empty, dif_pos (by simp [empty])]
    exact .failed
  · have nonempty : (c.relabel σ older).rest ≠ [] := by simpa using empty
    rw [dif_neg empty, dif_neg nonempty, Cursor.sees_relabel]
    split
    · exact (c.expect_relabeled eof .blockClose).map fun _ => rfl
    · obtain ⟨first, behind⟩ := declaration_relabeled c empty nonempty
      have hlt := (declaration eof c empty).2.2
      have others := block_relabeled (declaration eof c empty).2.1
      rw [← behind] at others
      refine (others.within hlt _).map fun ss => ?_
      rw [first]
      rfl
termination_by (c.size, 3)

theorem functionDeclaration_relabeled (c : Cursor) :
    (functionDeclaration eof c).Relabeled σ older (Stmt.relabel σ)
      (functionDeclaration (eof.relabel σ) (c.relabel σ older)) := by
  rw [functionDeclaration, functionDeclaration]
  refine (c.expect_relabeled eof .functionName).andThen fun name c₁ h₁ h₁' => ?_
  refine ((c₁.expect_relabeled eof .functionOpen).within _ _).andThen fun _ c₂ h₂ h₂' => ?_
  refine ((parameters_relabeled σ older eof c₂).within _ _).andThen fun params c₃ h₃ h₃' => ?_
  refine ((c₃.expect_relabeled eof .bodyOpen).within _ _).andThen fun _ c₄ h₄ h₄' => ?_
  exact ((block_relabeled c₄).within _ _).map fun body => by rw [Stmt.relabel]
termination_by (c.size, 0)

/-- **A declaration, relabeled**, whether it was read or dropped. -/
theorem declaration_relabeled (c : Cursor) (nonempty : c.rest ≠ [])
    (nonempty' : (c.relabel σ older).rest ≠ []) :
    (declaration (eof.relabel σ) (c.relabel σ older) nonempty').1
        = (declaration eof c nonempty).1.relabel σ
      ∧ (declaration (eof.relabel σ) (c.relabel σ older) nonempty').2.1
        = (declaration eof c nonempty).2.1.relabel σ older := by
  rw [declaration, declaration]
  refine orResume_relabeled σ older nonempty nonempty' ?_
  rcases found : c.take? (· == .funWord) with _ | ⟨word, c₁, h₁⟩
  · rw [Cursor.take?_relabel_none found]
    rcases found₁ : c.take? (· == .varWord) with _ | ⟨word, c₁, h₁⟩
    · rw [Cursor.take?_relabel_none found₁]
      exact statement_relabeled c
    · obtain ⟨h₁', found'⟩ := Cursor.take?_relabel_some (ρ := σ) found₁
      rw [found']
      exact (variableDeclaration_relabeled σ older eof c₁).within _ _
  · obtain ⟨h₁', found'⟩ := Cursor.take?_relabel_some (ρ := σ) found
    rw [found']
    exact (functionDeclaration_relabeled c₁).within _ _
termination_by (c.size, 2)

end

/-- **All declarations up to the end of the input, relabeled.** -/
theorem declarations_relabel (c : Cursor) :
    declarations (eof.relabel σ) (c.relabel σ older)
      = (relabelBody σ (declarations eof c).1, (declarations eof c).2.relabel σ older) := by
  by_cases empty : c.rest = []
  · have empty' : (c.relabel σ older).rest = [] := by simp [empty]
    rw [declarations_of_empty _ empty, declarations_of_empty _ empty']
    rfl
  · have nonempty : (c.relabel σ older).rest ≠ [] := by simpa using empty
    obtain ⟨first, behind⟩ := declaration_relabeled σ older eof c empty nonempty
    have hlt := (declaration eof c empty).2.2
    rw [declarations_of_nonempty _ empty, declarations_of_nonempty _ nonempty, first, behind,
      declarations_relabel (declaration eof c empty).2.1]
    rfl
termination_by c.size

end Grammar

/-! ## Programs -/

section Programs

variable (σ : Shift)

/-- The end of the input is at the same place among the relabeled tokens. -/
theorem takeWhile_relabel (ts : List Token) :
    (ts.map (Token.relabel σ)).takeWhile (·.kind != .eof)
      = (ts.takeWhile (·.kind != .eof)).map (Token.relabel σ) :=
  List.takeWhile_map ..

/-- The token that marks the end, where there is one, is relabeled with the others. -/
theorem endToken_relabel {ts : List Token} (closed : ∃ t ∈ ts, t.kind = .eof) :
    endToken (ts.map (Token.relabel σ)) = (endToken ts).relabel σ := by
  obtain ⟨last, found⟩ := exists_find?_eof closed
  unfold endToken
  rw [List.find?_map]
  show ((ts.find? (·.kind == .eof)).map (Token.relabel σ)).getD _ = _
  rw [found]
  rfl

/-- **Parsing relabeled tokens** gives the relabeled program, with the numbers and the
reports relabeled. -/
theorem parse_relabel {ts : List Token} (closed : ∃ t ∈ ts, t.kind = .eof) (firstId : Nat) :
    parse (ts.map (Token.relabel σ)) (firstId + σ.amount)
      = ⟨relabelBody σ (parse ts firstId).program, (parse ts firstId).nextId + σ.amount,
        (parse ts firstId).reports.map (Report.relabel σ)⟩ := by
  unfold parse
  rw [takeWhile_relabel, endToken_relabel σ closed]
  have start : (⟨(ts.takeWhile (·.kind != .eof)).map (Token.relabel σ), firstId + σ.amount, []⟩
      : Cursor) = Cursor.relabel σ [] ⟨ts.takeWhile (·.kind != .eof), firstId, []⟩ := rfl
  rw [start, Grammar.declarations_relabel]
  dsimp only [Cursor.relabel]
  rw [List.append_nil, List.map_reverse]
  rfl

end Programs

end Kix
