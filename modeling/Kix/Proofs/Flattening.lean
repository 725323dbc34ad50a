import Kix.Proofs.Acceptance
import Kix.Proofs.Scanning

/-!
# Reading back a flattened tree

Expression trees that respect the levels and the ways to write them down correspond
one to one: a graded tree, written down and parsed, gives the tree again but for the
numbers of its occurrences, and whatever is parsed without a report into one
expression is graded and was written as its pieces (`parse_flatten`).

The second half is `Reads.graded`. The first is an induction on the levels, each of
which has its reader (`Level.rank`). The readers build operators of a tier, and
calls, from the left, while their trees have the last operator at the root. So for
these levels the induction says what the reader does *so far*: having read the tree it
goes on behind it (`Rank.Reached`).
-/

namespace Kix

variable {eof : Token} {c : Cursor} {e : Expr} {w rest : List Token} {reports : List Report}

/-- **Reading a tree back**: the reader gives the tree but for numbers, in front of the
given tokens and with the given reports. -/
def Step.Returns {n : Nat} (x : Step n Expr) (e : Expr) (rest : List Token)
    (reports : List Report) : Prop :=
  x.Spec (fun e' c => e'.unnumbered = e.unnumbered ∧ c.At rest reports) fun _ => False

/-- The same for the arguments of a call and the parenthesis behind them. -/
def Step.ReturnsCall {n : Nat} (x : Step n (List Expr × Token)) (arguments : List Expr)
    (paren : Token) (rest : List Token) (reports : List Report) : Prop :=
  x.Spec (fun read c => read.1.map Expr.unnumbered = arguments.map Expr.unnumbered ∧
    read.2 = paren ∧ c.At rest reports) fun _ => False

/-- The token that is expected is the one that is returned. -/
theorem Cursor.At.expect_returns {t : Token} (eof : Token) (what : Expectation)
    (h : c.At (t :: rest) reports) (sign : t.kind = what.kind) :
    (c.expect eof what).Spec (fun t' c' => t' = t ∧ c'.At rest reports) fun _ => False := by
  obtain ⟨c', hlt, taken, behind⟩ := h.take (· == what.kind) (beq_iff_eq.2 sign)
  unfold Cursor.expect
  rw [taken]
  exact ⟨rfl, behind⟩

/-- **The ranks of the readers of expressions**. All operators between
two operands have one reader, which is given their tiers. -/
inductive Rank where
  | expression
  | conditional
  | operators (tiers : List Tier)
  | unary
  | call

/-- The rank of the reader of a level. -/
def Level.rank : Level → Rank
  | expression => .expression
  | conditional => .conditional
  | disjunction => .operators Tier.all
  | conjunction => .operators [.and, .equality, .comparison, .term, .factor]
  | equality => .operators [.equality, .comparison, .term, .factor]
  | comparison => .operators [.comparison, .term, .factor]
  | term => .operators [.term, .factor]
  | factor => .operators [.factor]
  | unary => .unary
  | call => .call

namespace Rank

/-- The reader of a rank. -/
def reader (eof : Token) (c : Cursor) : Rank → Step c.size Expr
  | .expression => Grammar.expression eof c
  | .conditional => Grammar.conditional eof c
  | .operators tiers => Grammar.operators eof tiers c
  | .unary => Grammar.unary eof c
  | .call => Grammar.call eof c

/-- The tokens that would continue a tree of a rank. -/
def continues : Rank → Kind → Bool
  | .expression | .conditional => continuesExpression
  | .operators tiers => continuesOperand tiers
  | .unary | .call => continuesOperand []

/-- **A tree is read back** at a rank, wherever it is written and nothing continues
it. -/
def ReadsBack (eof : Token) (s : Rank) (e : Expr) : Prop :=
  ∀ ⦃c : Cursor⦄ ⦃w rest : List Token⦄ ⦃reports : List Report⦄, c.At (w ++ rest) reports →
    Written e.flatten w → NotNext s.continues rest → (s.reader eof c).Returns e rest reports

/-- Operators of a tier, or calls, up to the end of a tree: if the rest of the reader
does well behind the tree, then so does the whole. -/
def Reached (eof : Token) (s : Rank) (e : Expr) : Prop :=
  match s with
  | .operators (tier :: tighter) =>
    ∀ ⦃c : Cursor⦄ ⦃w rest : List Token⦄ ⦃reports : List Report⦄ ⦃read : Expr → Cursor → Prop⦄,
      c.At (w ++ rest) reports → Written e.flatten w → NotNext (continuesOperand tighter) rest →
      (∀ e' c₁ h, e'.unnumbered = e.unnumbered → c₁.At rest reports →
        (Grammar.moreOperators eof tier tighter c e' c₁ h).Spec read fun _ => False) →
      (Grammar.operators eof (tier :: tighter) c).Spec read fun _ => False
  | .call =>
    ∀ ⦃c : Cursor⦄ ⦃w rest : List Token⦄ ⦃reports : List Report⦄ ⦃read : Expr → Cursor → Prop⦄,
      c.At (w ++ rest) reports → Written e.flatten w →
      (∀ e' c₁ h, e'.unnumbered = e.unnumbered → c₁.At rest reports →
        (Grammar.moreCalls eof c e' c₁ h).Spec read fun _ => False) →
      (Grammar.call eof c).Spec read fun _ => False
  | s => s.ReadsBack eof e

/-- Where nothing continues the tree, the readers end behind it. -/
theorem Reached.readsBack {s : Rank} (h : s.Reached eof e) : s.ReadsBack eof e := by
  match s with
  | .expression | .conditional | .operators [] | .unary => exact h
  | .operators (tier :: tighter) =>
    intro c w rest reports start written ends
    refine h start written ends.tighter fun e' c₁ h₁ same behind => ?_
    have noOperator : NotNext tier.accepts rest :=
      ends.mono fun kind accepted => by simp [continues, continuesOperand, accepted]
    rw [Grammar.moreOperators, behind.leave noOperator]
    exact ⟨same, behind⟩
  | .call =>
    intro c w rest reports start written ends
    refine h start written fun e' c₁ h₁ same behind => ?_
    have noCall : NotNext (· == .leftParen) rest :=
      ends.mono fun kind opening => by simpa [continues, continuesOperand] using opening
    rw [Grammar.moreCalls, behind.leave noCall]
    exact ⟨same, behind⟩

end Rank

/-- What a reader accepts is derivable, so it is known what it begins with. -/
theorem Step.Accepts.derives {n : Nat} {α : Type} {x : Step n α} {p : Phrase} {ts : List Token}
    (h : x.Accepts rest reports) (spec : x.Spec (fun _ c' => ∃ e, Reads eof p c e c') c.Fails)
    (tiered : p.Tiered) (start : c.At ts reports) : ∃ w, Derives p.ebnf w ∧ ts = w ++ rest := by
  cases x with
  | failed c' hle => exact h.elim
  | ok v c' hlt =>
    obtain ⟨e, reads⟩ := spec
    have quiet : c'.reports = c.reports := by rw [h.reports, start.reports]
    obtain ⟨w, derives, heq⟩ := reads.spans tiered quiet
    exact ⟨w, derives, by rw [← start.rest, heq, h.rest]⟩

/-! ## One rank at a time -/

namespace Rank

/-- An assignment. The name in front of the equals sign is read as a condition first. -/
theorem readsBack_assign {i : OccurrenceId} {name : Token} {value : Expr}
    (isName : name.kind = .identifier) (source : Rank.expression.ReadsBack eof value) :
    Rank.expression.ReadsBack eof (.assign i name value) := by
  intro c w rest reports start written ends
  rw [Expr.flatten] at written
  obtain ⟨_, behind, rfl⟩ := written.of_token
  obtain ⟨equals, v, sign, written₁, rfl⟩ := behind.of_mark
  have ends₁ : NotNext continuesCondition (equals :: (v ++ rest)) := .of_kind sign rfl
  show (Grammar.expression eof c).Returns _ _ _
  rw [Grammar.expression]
  refine (Grammar.conditional_name eof start isName ends₁).andThen fun target c₁ h₁ read => ?_
  obtain ⟨isVar, at₁⟩ := read
  obtain ⟨c₂, h₂, taken, at₂⟩ := at₁.take (· == .equal) (beq_iff_eq.2 sign)
  rw [taken]
  have hlt := Cursor.shorter_trans h₂ h₁
  refine (Step.Spec.within (source at₂ written₁ ends) hlt).andThen fun value' c₃ h₃ read => ?_
  obtain ⟨same, at₃⟩ := read
  subst isVar
  exact ⟨by simp [same], at₃.rest, at₃.reports⟩

theorem readsBack_noAssign (inner : Rank.conditional.ReadsBack eof e) :
    Rank.expression.ReadsBack eof e := by
  intro c w rest reports start written ends
  have noEqual : NotNext (· == .equal) rest :=
    ends.mono fun kind sign => by simp [continues, continuesExpression, sign]
  show (Grammar.expression eof c).Returns _ _ _
  rw [Grammar.expression]
  refine (inner start written ends).andThen fun e' c₁ h₁ read => ?_
  rw [read.2.leave noEqual]
  exact read

/-- A conditional expression. Its marks end the parts in front of them. -/
theorem readsBack_conditional {condition thenBranch elseBranch : Expr}
    (first : (Rank.operators Tier.all).ReadsBack eof condition)
    (second : Rank.expression.ReadsBack eof thenBranch)
    (third : Rank.expression.ReadsBack eof elseBranch) :
    Rank.conditional.ReadsBack eof (.conditional condition thenBranch elseBranch) := by
  intro c w rest reports start written ends
  rw [Expr.flatten] at written
  obtain ⟨u, _, written₁, behind, rfl⟩ := written.of_append
  obtain ⟨mark, _, sign, branches, rfl⟩ := behind.of_mark
  obtain ⟨v, _, written₂, behind', rfl⟩ := branches.of_append
  obtain ⟨colon, v', sign', written₃, rfl⟩ := behind'.of_mark
  simp only [List.append_assoc, List.cons_append] at start
  have ends₁ : NotNext (continuesOperand Tier.all) (mark :: (v ++ colon :: (v' ++ rest))) :=
    .of_kind sign rfl
  have ends₂ : NotNext continuesExpression (colon :: (v' ++ rest)) := .of_kind sign' rfl
  show (Grammar.conditional eof c).Returns _ _ _
  rw [Grammar.conditional]
  refine (first start written₁ ends₁).andThen fun condition' c₁ h₁ read₁ => ?_
  obtain ⟨c₂, h₂, taken, at₂⟩ := read₁.2.take (· == .question) (beq_iff_eq.2 sign)
  rw [taken]
  have hlt := Cursor.shorter_trans h₂ h₁
  refine (Step.Spec.within (second at₂ written₂ ends₂) hlt).andThen
    fun thenBranch' c₃ h₃ read₃ => ?_
  have colon := read₃.2.expect_returns eof .conditionalColon sign'
  refine (colon.within h₃).andThen fun _ c₄ h₄ read₄ => ?_
  refine .map (.within (.mono (third read₄.2 written₃ ends) ?_ fun _ => id) h₄)
  intro elseBranch' c₅ read₅
  exact ⟨by simp [read₁.1, read₃.1, read₅.1], read₅.2⟩

theorem readsBack_noConditional (inner : (Rank.operators Tier.all).ReadsBack eof e) :
    Rank.conditional.ReadsBack eof e := by
  intro c w rest reports start written ends
  have ends₁ : NotNext continuesCondition rest := NotNext.condition ends
  have noQuestion : NotNext (· == .question) rest :=
    ends₁.mono fun kind mark => by simp [continuesCondition, mark]
  show (Grammar.conditional eof c).Returns _ _ _
  rw [Grammar.conditional]
  refine (inner start written ends₁.operand).andThen fun e' c₁ h₁ read => ?_
  rw [read.2.leave noQuestion]
  exact read

/-- **An operator with its operands** is reached behind its left operand, since no tighter
operator follows that. -/
theorem reached_operator {tier : Tier} {tighter : List Tier} {left right : Expr}
    {operator : Token} (suffix : tier :: tighter <:+ Tier.all)
    (sign : tier.accepts operator.kind = true)
    (first : (Rank.operators (tier :: tighter)).Reached eof left)
    (second : (Rank.operators tighter).ReadsBack eof right) :
    (Rank.operators (tier :: tighter)).Reached eof (tier.join left operator right) := by
  intro c w rest reports read start written ends more
  rw [Tier.flatten_join] at written
  obtain ⟨u, _, written₁, behind, rfl⟩ := written.of_append
  obtain ⟨v, written₂, rfl⟩ := behind.of_token
  rw [List.append_assoc, List.cons_append] at start
  have ends₁ : NotNext (continuesOperand tighter) (operator :: (v ++ rest)) :=
    notNext_cons.2 (Tier.continuesOperand_eq_false suffix sign)
  refine first start written₁ ends₁ fun left' c₁ h₁ same at₁ => ?_
  obtain ⟨c₂, h₂, taken, at₂⟩ := at₁.take tier.accepts sign
  rw [Grammar.moreOperators, taken]
  refine (Step.Spec.within (second at₂ written₂ ends) h₂).andThenFrom
    fun right' c₃ h₃ read₃ => ?_
  exact more _ c₃ _ (by simp [same, read₃.1]) read₃.2

theorem reached_noOperator {tier : Tier} {tighter : List Tier}
    (inner : (Rank.operators tighter).ReadsBack eof e) :
    (Rank.operators (tier :: tighter)).Reached eof e := by
  intro c w rest reports read start written ends more
  rw [Grammar.operators]
  exact (inner start written ends).andThen fun e' c₁ h₁ read₁ => more e' c₁ h₁ read₁.1 read₁.2

theorem readsBack_operand (inner : Rank.unary.ReadsBack eof e) :
    (Rank.operators []).ReadsBack eof e := by
  intro c w rest reports start written ends
  show (Grammar.operators eof [] c).Returns _ _ _
  rw [Grammar.operators]
  exact inner start written ends

/-- An operator in front of an operand. -/
theorem readsBack_unary {operator : Token} {operand : Expr}
    (sign : Grammar.isUnaryOperator operator.kind = true)
    (inner : Rank.unary.ReadsBack eof operand) :
    Rank.unary.ReadsBack eof (.unary operator operand) := by
  intro c w rest reports start written ends
  rw [Expr.flatten] at written
  obtain ⟨v, written₁, rfl⟩ := written.of_token
  obtain ⟨c₁, h₁, taken, at₁⟩ := start.take Grammar.isUnaryOperator sign
  show (Grammar.unary eof c).Returns _ _ _
  rw [Grammar.unary, taken]
  refine .map (.within (.mono (inner at₁ written₁ ends) ?_ fun _ => id) h₁)
  intro operand' c₂ read
  exact ⟨by simp [read.1], read.2⟩

/-- A call is no operand with an operator in front, which is seen by its first token. -/
theorem readsBack_noUnary (inner : Rank.call.ReadsBack eof e) : Rank.unary.ReadsBack eof e := by
  intro c w rest reports start written ends
  have read := inner start written ends
  have accepted : (Grammar.call eof c).Accepts rest reports :=
    read.mono (fun _ _ => And.right) fun _ => id
  obtain ⟨v, derives, heq⟩ := accepted.derives (p := .call)
    ((Grammar.call_spec eof c).mono (fun e _ reads => ⟨e, reads⟩) fun _ => id) trivial start
  obtain ⟨t, v, rfl, begun⟩ := call_beginsWith v derives
  have noUnary : NotNext Grammar.isUnaryOperator (w ++ rest) := by
    rw [heq, List.cons_append, notNext_cons]
    exact Kind.isUnaryOperator_of_beginsPrimary begun
  show (Grammar.unary eof c).Returns _ _ _
  rw [Grammar.unary, start.leave noUnary]
  exact read

/-! ### Calls -/

/-- An argument is counted and read back up to the token that ends it. -/
theorem argument_returns {first : Expr} {count : Nat} {t : Token} (few : count < longestList)
    (reads : Rank.expression.ReadsBack eof first) (start : c.At (w ++ t :: rest) reports)
    (written : Written first.flatten w) (ends : continuesExpression t.kind = false) :
    ((Grammar.expression eof (c.checkCount eof count .tooManyArguments)).relocate
      (Cursor.size_checkCount c eof count .tooManyArguments)).Returns first (t :: rest) reports :=
  have start := start.checkCount eof .tooManyArguments few
  Step.Spec.relocate (reads start written (notNext_cons.2 ends)) _

/-- One or more arguments behind `count` others. -/
theorem someArguments_returns {paren : Token} (sign : paren.kind = .rightParen)
    (others : List Expr) {first : Expr} {count : Nat} (room : count + others.length < longestList)
    (each : ∀ e ∈ first :: others, Rank.expression.ReadsBack eof e)
    (start : c.At (w ++ rest) reports)
    (written : Written (first.flatten ++ (flattenEach others ++ [.token paren])) w) :
    (Grammar.someArguments eof count c).ReturnsCall (first :: others) paren rest reports := by
  have few : count < longestList := by omega
  induction others generalizing first count c w with
  | nil =>
    obtain ⟨u, _, written₁, behind, rfl⟩ := written.of_append
    obtain ⟨_, closed, rfl⟩ := behind.of_token
    cases closed
    rw [List.append_assoc, List.cons_append, List.nil_append] at start
    have noComma : NotNext (· == .comma) (paren :: rest) := .of_kind sign rfl
    rw [Grammar.someArguments]
    refine (argument_returns few (each first List.mem_cons_self) start written₁
      (by rw [sign]; rfl)).andThen fun first' c₁ h₁ read₁ => ?_
    rw [read₁.2.leave noComma]
    refine .map (.within (.mono (read₁.2.expect_returns eof .argumentsClose sign) ?_
      fun _ => id) h₁)
    intro paren' c₂ read₂
    exact ⟨by simp [read₁.1], read₂⟩
  | cons second others ih =>
    rw [flattenEach, List.cons_append, List.append_assoc second.flatten] at written
    obtain ⟨u, _, written₁, behind, rfl⟩ := written.of_append
    obtain ⟨comma, v, sign', listed, rfl⟩ := behind.of_mark
    rw [List.append_assoc, List.cons_append] at start
    rw [Grammar.someArguments]
    refine (argument_returns few (each first List.mem_cons_self) start written₁
      (by rw [sign']; rfl)).andThen fun first' c₁ h₁ read₁ => ?_
    obtain ⟨c₂, h₂, taken, at₂⟩ := read₁.2.take (· == .comma) (beq_iff_eq.2 sign')
    rw [taken]
    have hlt := Cursor.shorter_trans h₂ h₁
    rw [List.length_cons] at room
    have behind := ih (by omega) (fun e mem => each e (List.mem_cons_of_mem _ mem)) at₂ listed
      (show count + 1 < longestList by omega)
    refine .map (.within (behind.mono ?_ fun _ => id) hlt)
    intro read c₃ read₃
    exact ⟨by simpa [read₁.1] using read₃.1, read₃.2⟩

/-- The arguments of a call, if there are any, up to the parenthesis. -/
theorem arguments_returns {paren : Token} (sign : paren.kind = .rightParen)
    {arguments : List Expr} (few : arguments.length ≤ longestList)
    (each : ∀ e ∈ arguments, Rank.expression.ReadsBack eof e)
    (start : c.At (w ++ rest) reports)
    (written : Written ((flattenEach arguments).tail ++ [.token paren]) w) :
    (Grammar.arguments eof c).ReturnsCall arguments paren rest reports := by
  rw [Grammar.arguments]
  cases arguments with
  | nil =>
    obtain ⟨_, closed, rfl⟩ := written.of_token
    cases closed
    obtain ⟨c₁, h₁, taken, at₁⟩ := start.take (· == .rightParen) (beq_iff_eq.2 sign)
    rw [taken]
    exact ⟨rfl, rfl, at₁⟩
  | cons first others =>
    rw [flattenEach, List.tail_cons, List.append_assoc] at written
    have room : 0 + others.length < longestList := by
      rw [Nat.zero_add]
      exact few
    have read := someArguments_returns sign others room each start written
    have accepted : (Grammar.someArguments eof 0 c).Accepts rest reports :=
      read.mono (fun _ _ returned => returned.2.2) fun _ => id
    obtain ⟨v, derives, heq⟩ := accepted.derives (p := .someArguments .absent [])
      ((Grammar.someArguments_spec eof .absent [] c).mono (fun _ _ reads => ⟨_, reads⟩)
        fun _ => id) trivial start
    have noParen : NotNext (· == .rightParen) (w ++ rest) := by
      rw [heq]
      exact expression_beginsWith.closedList.notNext derives .rightParen rfl
    rw [start.leave noParen]
    exact read

/-- **A call** is reached behind what is called. -/
theorem reached_call {callee : Expr} {paren : Token} {arguments : List Expr}
    (first : Rank.call.Reached eof callee) (sign : paren.kind = .rightParen)
    (few : arguments.length ≤ longestList)
    (each : ∀ e ∈ arguments, Rank.expression.ReadsBack eof e) :
    Rank.call.Reached eof (.call callee paren arguments) := by
  intro c w rest reports read start written more
  rw [Expr.flatten] at written
  obtain ⟨u, _, written₁, behind, rfl⟩ := written.of_append
  obtain ⟨opening, v, sign₁, written₂, rfl⟩ := behind.of_mark
  rw [List.append_assoc, List.cons_append] at start
  refine first start written₁ fun callee' c₁ h₁ same at₁ => ?_
  obtain ⟨c₂, h₂, taken, at₂⟩ := at₁.take (· == .leftParen) (beq_iff_eq.2 sign₁)
  rw [Grammar.moreCalls, taken]
  have given := arguments_returns sign few each at₂ written₂
  refine (Step.Spec.within given h₂).andThenFrom fun result c₃ h₃ read₃ => ?_
  obtain ⟨sameArguments, rfl, at₃⟩ := read₃
  exact more _ c₃ _ (by simpa [same] using sameArguments) at₃

/-- A primary expression stands alone, in front of the calls. -/
theorem reached_primary
    (inner : ∀ ⦃c : Cursor⦄ ⦃w rest : List Token⦄ ⦃reports : List Report⦄,
      c.At (w ++ rest) reports → Written e.flatten w →
      (Grammar.primary eof c).Returns e rest reports) :
    Rank.call.Reached eof e := by
  intro c w rest reports read start written more
  rw [Grammar.call]
  exact (inner start written).andThen fun e' c₁ h₁ read₁ => more e' c₁ h₁ read₁.1 read₁.2

theorem reached_literal (value : Literal) : Rank.call.Reached eof (.literal value) := by
  refine reached_primary fun c w rest reports start written => ?_
  rw [Expr.flatten] at written
  obtain ⟨t, _, ⟨-, denoted⟩, closed, rfl⟩ := written.of_cons
  cases closed
  obtain ⟨c₁, h₁, found, at₁⟩ := start.next
  rw [Grammar.primary, found]
  unfold Token.denotes? at denoted
  split at denoted
  case h_6 => cases denoted
  all_goals
    next sign =>
      cases denoted
      simp only [sign]
      exact ⟨rfl, at₁⟩

theorem reached_var {i : OccurrenceId} {name : Token} (isName : name.kind = .identifier) :
    Rank.call.Reached eof (.var i name) := by
  refine reached_primary fun c w rest reports start written => ?_
  rw [Expr.flatten] at written
  obtain ⟨_, closed, rfl⟩ := written.of_token
  cases closed
  refine (Grammar.primary_name eof start isName).mono ?_ fun _ => id
  rintro _ c' ⟨rfl, at'⟩
  exact ⟨by simp, at'⟩

/-- An expression in parentheses. -/
theorem reached_group (inner : Rank.expression.ReadsBack eof e) :
    Rank.call.Reached eof (.group e) := by
  refine reached_primary fun c w rest reports start written => ?_
  rw [Expr.flatten] at written
  obtain ⟨opening, _, sign, behind, rfl⟩ := written.of_mark
  obtain ⟨u, _, written₁, behind', rfl⟩ := behind.of_append
  obtain ⟨closing, _, sign', closed, rfl⟩ := behind'.of_mark
  cases closed
  simp only [List.append_assoc, List.cons_append, List.nil_append] at start
  obtain ⟨c₁, h₁, found, at₁⟩ := start.next
  have ends : NotNext continuesExpression (closing :: rest) := .of_kind sign' rfl
  rw [Grammar.primary, found]
  simp only [sign]
  refine (Step.Spec.within (inner at₁ written₁ ends) h₁).andThen fun e' c₂ h₂ read₂ => ?_
  refine .map (.within (.mono (read₂.2.expect_returns eof .groupClose sign') ?_ fun _ => id) h₂)
  intro _ c₃ read₃
  exact ⟨by simp [read₂.1], read₃.2⟩

end Rank

/-- An operator of a level with its operands is read at the rank of the level. -/
theorem Tier.reached_join {tier : Tier} {left right : Expr} {operator : Token}
    (sign : tier.accepts operator.kind = true) (first : tier.level.rank.Reached eof left)
    (second : tier.level.tighter.rank.ReadsBack eof right) :
    tier.level.rank.Reached eof (tier.join left operator right) := by
  cases tier with
  | or | and | equality | comparison | term =>
    exact Rank.reached_operator (by decide) sign first second
  | factor => exact Rank.reached_operator (by decide) sign first (Rank.readsBack_operand second)

/-- A tree of the next tighter level is read at the rank of a level, where nothing more
of the level is found. -/
theorem Level.reached_loosen {l : Level} (inner : l.tighter.rank.Reached eof e) :
    l.rank.Reached eof e := by
  cases l with
  | expression => exact Rank.readsBack_noAssign inner.readsBack
  | conditional => exact Rank.readsBack_noConditional inner.readsBack
  | disjunction | conjunction | equality | comparison | term =>
    exact Rank.reached_noOperator inner.readsBack
  | factor => exact Rank.reached_noOperator (Rank.readsBack_operand inner.readsBack)
  | unary => exact Rank.readsBack_noUnary inner.readsBack
  | call => exact inner

/-- **A graded tree is read back** at the rank of its level. -/
theorem Graded.reached {l : Level} (h : Graded l e) : l.rank.Reached eof e := by
  induction h with
  | assign isName _ ih => exact Rank.readsBack_assign isName ih.readsBack
  | conditional _ _ _ ih ih' ih'' =>
    exact Rank.readsBack_conditional ih.readsBack ih'.readsBack ih''.readsBack
  | logical sign _ _ ih ih' =>
    obtain ⟨tier, rfl, accepted, joins⟩ := Level.exists_tier_of_mem_shortCircuits sign
    rw [← joins]
    exact Tier.reached_join accepted ih ih'.readsBack
  | binary sign _ _ ih ih' =>
    obtain ⟨tier, rfl, accepted, joins⟩ := Level.exists_tier_of_mem_operators sign
    rw [← joins]
    exact Tier.reached_join accepted ih ih'.readsBack
  | unary sign _ ih =>
    exact Rank.readsBack_unary (Grammar.isUnaryOperator_iff.2 sign) ih.readsBack
  | call _ sign few _ ih ih' =>
    exact Rank.reached_call ih sign few fun e mem => (ih' e mem).readsBack
  | literal value => exact Rank.reached_literal value
  | var isName => exact Rank.reached_var isName
  | group _ ih => exact Rank.reached_group ih.readsBack
  | loosen _ ih => exact Level.reached_loosen ih

/-! ## Expressions as programs -/

namespace Grammar

/-- A declaration that begins as an expression does is an expression statement. -/
theorem declaration_of_beginsExpression {t : Token} (start : c.At (t :: rest) reports)
    (begun : t.kind.beginsExpression = true) (nonempty : c.rest ≠ []) :
    declaration eof c nonempty = c.orResume nonempty (expressionStatement eof c) .absent := by
  have noFunction : NotNext (· == .funWord) (t :: rest) := by
    rw [notNext_cons, beq_eq_false_iff_ne]
    exact Kind.ne_of_beginsExpression begun rfl
  have noVariable : NotNext (· == .varWord) (t :: rest) := by
    rw [notNext_cons, beq_eq_false_iff_ne]
    exact Kind.ne_of_beginsExpression begun rfl
  obtain ⟨c₁, h₁, found, -⟩ := start.next
  rw [declaration, start.leave noFunction, start.leave noVariable]
  dsimp only
  rw [statement, found]
  dsimp only
  split
  case h_7 => rfl
  all_goals
    next kind => exact absurd kind (Kind.ne_of_beginsExpression begun rfl)

/-- **An expression with a semicolon** is read back as a statement. -/
theorem declaration_returns {semicolon : Token} (reads : Rank.expression.ReadsBack eof e)
    (start : c.At (w ++ semicolon :: rest) reports) (written : Written e.flatten w)
    (sign : semicolon.kind = .semicolon) (nonempty : c.rest ≠ []) :
    (∃ e', (declaration eof c nonempty).1 = .expression e' ∧ e'.unnumbered = e.unnumbered)
      ∧ (declaration eof c nonempty).2.1.At rest reports := by
  have ends : NotNext continuesExpression (semicolon :: rest) := .of_kind sign rfl
  have read : (expression eof c).Returns e (semicolon :: rest) reports := reads start written ends
  have accepted : (expression eof c).Accepts (semicolon :: rest) reports :=
    read.mono (fun _ _ => And.right) fun _ => id
  obtain ⟨v, derives, heq⟩ := accepted.derives (p := .expression)
    ((expression_spec eof c).mono (fun e _ reads => ⟨e, reads⟩) fun _ => id) trivial start
  obtain ⟨t, v, rfl, begun⟩ := expression_beginsWith v derives
  rw [heq] at start
  rw [declaration_of_beginsExpression start begun]
  have whole : (expressionStatement eof c).Spec
      (fun s c' => (∃ e', s = .expression e' ∧ e'.unnumbered = e.unnumbered) ∧ c'.At rest reports)
      fun _ => False := by
    refine .map (.andThen read fun e' c₁ h₁ read₁ => ?_)
    refine .map (.within (.mono (read₁.2.expect_returns eof .expressionEnd sign) ?_
      fun _ => id) h₁)
    intro _ c₂ read₂
    exact ⟨⟨e', rfl, read₁.1⟩, read₂.2⟩
  generalize expressionStatement eof c = x at whole
  cases x with
  | ok s c' hlt => exact whole
  | failed c' hle => exact whole.elim

end Grammar

/-- The kind of the tokens that fit a piece. -/
def Piece.kind : Piece → Kind
  | .token t => t.kind
  | .mark kind => kind
  | .value literal => literal.kind

theorem Piece.Fits.kind_eq {p : Piece} {t : Token} (h : p.Fits t) : t.kind = p.kind := by
  cases p with
  | token t' => exact congrArg Token.kind h
  | mark kind => exact h
  | value literal => exact h.1

/-- What holds of commas and of the pieces of each argument holds of all arguments. -/
theorem forall_mem_flattenEach {P : Piece → Prop} {arguments : List Expr}
    (comma : P (.mark .comma)) (each : ∀ e ∈ arguments, ∀ p ∈ e.flatten, P p) :
    ∀ p ∈ flattenEach arguments, P p := by
  induction arguments with
  | nil => exact fun p mem => absurd mem List.not_mem_nil
  | cons e rest ih =>
    obtain ⟨first, others⟩ := List.forall_mem_cons.1 each
    rw [flattenEach]
    exact List.forall_mem_cons.2 ⟨comma, List.forall_mem_append.2 ⟨first, ih others⟩⟩

/-- No operator of a level marks the end of the input. -/
theorem Level.ne_eof_of_mem {l : Level} {kind : Kind}
    (h : kind ∈ l.shortCircuits ∨ kind ∈ l.operators) : kind ≠ .eof := by
  rintro rfl
  cases l <;> simp [shortCircuits, operators] at h

/-- No piece of a graded tree marks the end of the input. -/
theorem Graded.kind_ne_eof {l : Level} (h : Graded l e) : ∀ p ∈ e.flatten, p.kind ≠ .eof := by
  induction h with
  | loosen _ ih => exact ih
  | assign isName _ ih =>
    simpa [Expr.flatten, Piece.kind, isName] using ih
  | conditional _ _ _ ih ih' ih'' =>
    simp only [Expr.flatten, List.forall_mem_append, List.forall_mem_cons]
    exact ⟨ih, by decide, ih', by decide, ih''⟩
  | @logical _ _ operator _ sign _ _ ih ih' =>
    have notEof : operator.kind ≠ .eof := Level.ne_eof_of_mem (.inl sign)
    rw [Expr.flatten]
    exact List.forall_mem_append.2 ⟨ih, List.forall_mem_cons.2 ⟨notEof, ih'⟩⟩
  | @binary _ _ operator _ sign _ _ ih ih' =>
    have notEof : operator.kind ≠ .eof := Level.ne_eof_of_mem (.inr sign)
    rw [Expr.flatten]
    exact List.forall_mem_append.2 ⟨ih, List.forall_mem_cons.2 ⟨notEof, ih'⟩⟩
  | @unary operator _ sign _ ih =>
    have notEof : operator.kind ≠ .eof := by
      intro isEof
      simp [isEof] at sign
    rw [Expr.flatten]
    exact List.forall_mem_cons.2 ⟨notEof, ih⟩
  | @call _ paren _ _ sign _ _ ih ih' =>
    have given := forall_mem_flattenEach (P := fun p => p.kind ≠ .eof) (by decide) ih'
    have closing : paren.kind ≠ .eof := by simp [sign]
    simp only [Expr.flatten, List.forall_mem_append, List.forall_mem_cons]
    exact ⟨ih, by decide, fun p mem => given p (List.mem_of_mem_tail mem), closing, by simp⟩
  | literal value =>
    rw [Expr.flatten, List.forall_mem_singleton]
    rcases value with _ | _ | (_ | _) | _ <;> simp [Piece.kind, Literal.kind]
  | var isName => simp [Expr.flatten, Piece.kind, isName]
  | group _ ih =>
    simp only [Expr.flatten, List.forall_mem_append, List.forall_mem_cons]
    exact ⟨by decide, ih, by decide, by simp⟩

/-- No token that is written for a piece marks the end. -/
theorem Written.noEof {pieces : List Piece} (written : Written pieces w)
    (noEof : ∀ p ∈ pieces, p.kind ≠ .eof) : ∀ t ∈ w, t.kind ≠ .eof := by
  induction written with
  | nil => exact fun t mem => absurd mem List.not_mem_nil
  | cons fits _ ih =>
    obtain ⟨first, others⟩ := List.forall_mem_cons.1 noEof
    refine List.forall_mem_cons.2 ⟨?_, ih others⟩
    rw [fits.kind_eq]
    exact first

/-- The tokens in front of the end of the input, with the semicolon. -/
theorem takeWhile_append_semicolon {semicolon eof : Token} (noEof : ∀ t ∈ w, t.kind ≠ .eof)
    (isSemicolon : semicolon.kind = .semicolon) (isEof : eof.kind = .eof) :
    (w ++ [semicolon, eof]).takeWhile (·.kind != .eof) = w ++ [semicolon] := by
  rw [show w ++ [semicolon, eof] = (w ++ [semicolon]) ++ [eof] by simp]
  refine takeWhile_append_eof (fun t mem => ?_) isEof
  rcases List.mem_append.1 mem with mem | mem
  · exact noEof t mem
  · rw [List.mem_singleton.1 mem, isSemicolon]
    nofun

/-- A graded tree that is written down is parsed back. -/
theorem Graded.parse_returns (h : Graded .expression e) (written : Written e.flatten w)
    {semicolon eof : Token} (isSemicolon : semicolon.kind = .semicolon) (isEof : eof.kind = .eof)
    (firstId : OccurrenceId) :
    (parse (w ++ [semicolon, eof]) firstId).reports = [] ∧
      ∃ e', (parse (w ++ [semicolon, eof]) firstId).program = [.expression e'] ∧
        e'.unnumbered = e.unnumbered := by
  unfold parse
  rw [takeWhile_append_semicolon (written.noEof h.kind_ne_eof) isSemicolon isEof]
  generalize endToken (w ++ [semicolon, eof]) = last
  have nonempty : w ++ [semicolon] ≠ [] := by simp
  have start : Cursor.At ⟨w ++ [semicolon], firstId, []⟩ (w ++ semicolon :: []) [] := ⟨rfl, rfl⟩
  have reads : Rank.expression.ReadsBack last e := h.reached.readsBack
  obtain ⟨⟨e', isExpression, same⟩, behind⟩ :=
    Grammar.declaration_returns reads start written isSemicolon nonempty
  rw [Grammar.declarations_of_nonempty _ nonempty,
    Grammar.declarations_of_empty _ behind.rest]
  refine ⟨?_, e', by rw [isExpression], same⟩
  show List.reverse _ = []
  rw [behind.reports, List.reverse_nil]

/-- A program of one expression is read as an expression with a semicolon. -/
theorem ReadsStatements.of_expression {c' : Cursor}
    (h : ReadsStatements eof .declarations c [.expression e] c') :
    c'.rest = [] ∧ ∃ closing, Reads eof .expression c e (c'.push closing) := by
  cases h with
  | next first others =>
    cases others with
    | done empty =>
      refine ⟨empty, ?_⟩
      cases first with
      | variableDeclaration _ inner => cases inner
      | statement inner =>
        cases inner with
        | expression value _ => exact ⟨_, value⟩

/-- **Trees that respect the levels and their tokens correspond one to one.** A
graded tree, written down with a semicolon behind it, is parsed without a report into
this one expression, but for numbers. And scanned tokens that are parsed without a
report into one expression were written as the pieces of a graded tree. -/
theorem parse_flatten (semicolon eof : Token) (isSemicolon : semicolon.kind = .semicolon)
    (isEof : eof.kind = .eof) (firstId : OccurrenceId) (word : List Token) :
    (∀ e : Expr, Graded .expression e → Written e.flatten word →
      (parse (word ++ [semicolon, eof]) firstId).reports = [] ∧
        ∃ e', (parse (word ++ [semicolon, eof]) firstId).program = [.expression e'] ∧
          e'.unnumbered = e.unnumbered) ∧
    ((∀ t ∈ word, t.kind ≠ .eof ∧ ∃ source, t ∈ tokens source) →
      ∀ e : Expr, (parse (word ++ [semicolon, eof]) firstId).reports = [] →
        (parse (word ++ [semicolon, eof]) firstId).program = [.expression e] →
        Graded .expression e ∧ Written e.flatten word) := by
  refine ⟨fun e graded written => graded.parse_returns written isSemicolon isEof firstId, ?_⟩
  intro scanned e quiet single
  obtain ⟨c', reads, -, reported⟩ := parse_reads (word ++ [semicolon, eof]) firstId
  rw [takeWhile_append_semicolon (fun t mem => (scanned t mem).1) isSemicolon isEof, single]
    at reads
  obtain ⟨empty, closing, reads⟩ := reads.of_expression
  have clean : Cursor.Clean ⟨word ++ [semicolon], firstId, []⟩ (c'.push closing) := by
    refine ⟨List.reverse_eq_nil_iff.1 (reported.symm.trans quiet), fun t mem => ?_⟩
    rcases List.mem_append.1 mem with mem | mem
    · obtain ⟨-, source, mem⟩ := scanned t mem
      exact lawful_of_mem_tokens mem
    · rw [List.mem_singleton.1 mem]
      exact Token.lawful_of_isPlain (by rw [isSemicolon]; rfl)
  obtain ⟨graded, w, written, heq⟩ := reads.graded trivial clean
  refine ⟨graded, ?_⟩
  rw [Cursor.rest_push, empty] at heq
  obtain ⟨rfl, -⟩ := List.append_inj' heq rfl
  exact written

/-- The text `x = a or b - c - d * e ? f(-y, nil) : !z`, with an operator of every shape,
three levels of them, and a chain at one level. -/
def everyShape : List Token :=
  [.onLine 1 .identifier "x", .onLine 1 .equal "=", .onLine 1 .identifier "a",
    .onLine 1 .orWord "or", .onLine 1 .identifier "b", .onLine 1 .minus "-",
    .onLine 1 .identifier "c", .onLine 1 .minus "-", .onLine 1 .identifier "d",
    .onLine 1 .star "*", .onLine 1 .identifier "e", .onLine 1 .question "?",
    .onLine 1 .identifier "f", .onLine 1 .leftParen "(", .onLine 1 .minus "-",
    .onLine 1 .identifier "y", .onLine 1 .comma ",", .onLine 1 .nilWord "nil",
    .onLine 1 .rightParen ")", .onLine 1 .colon ":", .onLine 1 .bang "!",
    .onLine 1 .identifier "z"]

/-- Its tree. The chain leans to the left, and the product is its last operand. -/
def everyShapeTree : Expr :=
  let name (lexeme : String) : Token := .onLine 1 .identifier lexeme
  .assign 9 (name "x") (.conditional
    (.logical (.var 1 (name "a")) (.onLine 1 .orWord "or")
      (.binary
        (.binary (.var 2 (name "b")) (.onLine 1 .minus "-") (.var 3 (name "c")))
        (.onLine 1 .minus "-")
        (.binary (.var 4 (name "d")) (.onLine 1 .star "*") (.var 5 (name "e")))))
    (.call (.var 6 (name "f")) (.onLine 1 .rightParen ")")
      [.unary (.onLine 1 .minus "-") (.var 7 (name "y")), .literal .nil])
    (.unary (.onLine 1 .bang "!") (.var 8 (name "z"))))

/-- Parsed from its tokens, the tree is graded, and written down it is read back. -/
theorem parse_flatten_every_shape :
    Graded .expression everyShapeTree ∧ Written everyShapeTree.flatten everyShape ∧
      ∃ e', (parse (everyShape ++ [.onLine 1 .semicolon ";", .endOfInput 1]) 40).program
          = [.expression e'] ∧ e'.unnumbered = everyShapeTree.unnumbered := by
  have scanned : tokens "x = a or b - c - d * e ? f(-y, nil) : !z"
      = everyShape ++ [.endOfInput 1] := by
    decide +kernel
  have parsed : parse (everyShape ++ [.onLine 1 .semicolon ";", .endOfInput 1]) 0
      = ⟨[.expression everyShapeTree], 10, []⟩ := by
    cbv
  have noEof : ∀ t ∈ everyShape, t.kind ≠ .eof := by decide
  obtain ⟨graded, written⟩ := (parse_flatten _ _ rfl rfl 0 everyShape).2
    (fun t mem => ⟨noEof t mem, _, by rw [scanned]; exact List.mem_append_left _ mem⟩)
    everyShapeTree (by rw [parsed]) (by rw [parsed])
  exact ⟨graded, written, ((parse_flatten _ _ rfl rfl 40 everyShape).1 _ graded written).2⟩

end Kix
