import Kix.Proofs.Spans

/-!
# Derivable expressions are read without a report

The converse of `Reads.spans`. A reader **accepts** when it succeeds, adds no
report and stops in front of the given tokens (`Step.Accepts`). If the tokens in
front of a cursor begin with ones that are derived from a production, its reader
accepts and leaves the others, provided that the next of them cannot continue the
construct: an operator behind an operand, or a parenthesis behind a callee.

What can continue a construct is a set of kinds for each level of the grammar,
and the sets grow from operands (`continuesOperand`) to whole expressions
(`continuesExpression`), where they hold no token that closes an expression.
-/

namespace Kix

/-! ## Accepting -/

/-- The cursor stands in front of the given tokens, and has the given reports. -/
structure Cursor.At (c : Cursor) (rest : List Token) (reports : List Report) : Prop where
  rest : c.rest = rest
  reports : c.reports = reports

/-- **Accepting**: the reader succeeds in front of the given tokens, with the given
reports. -/
def Step.Accepts {n : Nat} {α : Type} (x : Step n α) (rest : List Token)
    (reports : List Report) : Prop :=
  x.Spec (fun _ c => c.At rest reports) fun _ => False

/-- The next token, if there is one, is of none of certain kinds. -/
def NotNext (accept : Kind → Bool) (rest : List Token) : Prop :=
  ∀ t ∈ rest.head?, accept t.kind = false

section Accepting

variable {accept accept' : Kind → Bool} {c : Cursor} {t : Token} {rest : List Token}
  {reports : List Report}

@[simp] theorem notNext_nil : NotNext accept [] := by
  simp [NotNext]

@[simp] theorem notNext_cons : NotNext accept (t :: rest) ↔ accept t.kind = false := by
  simp [NotNext]

/-- Whether a token may be next is a matter of its kind. -/
theorem NotNext.of_kind {kind : Kind} (sign : t.kind = kind) (h : accept kind = false) :
    NotNext accept (t :: rest) := by
  rw [notNext_cons, sign]
  exact h

/-- What is derived does not begin with a token of another kind. -/
theorem Ebnf.BeginsWith.notNext {e : Ebnf} (h : e.BeginsWith accept) {w : List Token}
    (derives : Derives e w) (kind : Kind) (other : accept kind = false) :
    NotNext (· == kind) (w ++ rest) := by
  obtain ⟨t, v, rfl, begun⟩ := h w derives
  rw [List.cons_append, notNext_cons, beq_eq_false_iff_ne]
  rintro rfl
  exact Bool.noConfusion (begun.symm.trans other)

/-- Where more is ruled out, less is ruled out, too. -/
theorem NotNext.mono (h : NotNext accept' rest)
    (fewer : ∀ kind, accept kind = true → accept' kind = true) : NotNext accept rest := by
  intro t mem
  cases accepted : accept t.kind with
  | false => rfl
  | true => exact (fewer _ accepted).symm.trans (h t mem)

namespace Cursor.At

/-- A token in front of the cursor is read, and nothing is reported. -/
theorem next (h : c.At (t :: rest) reports) :
    ∃ c', ∃ hlt : c'.size < c.size, c.next? = some (t, ⟨c', hlt⟩) ∧ c'.At rest reports := by
  obtain ⟨_, nextId, _⟩ := c
  obtain ⟨hrest, hreports⟩ := h
  cases hrest
  exact ⟨⟨rest, nextId, _⟩, Nat.lt_succ_self _, rfl, rfl, hreports⟩

/-- A token that is accepted is taken. -/
theorem take (accept : Kind → Bool) (h : c.At (t :: rest) reports)
    (accepted : accept t.kind = true) :
    ∃ c', ∃ hlt : c'.size < c.size, c.take? accept = some (t, ⟨c', hlt⟩) ∧ c'.At rest reports := by
  obtain ⟨c', hlt, found, behind⟩ := h.next
  refine ⟨c', hlt, ?_, behind⟩
  rw [Cursor.take?, found]
  simp [Option.filter, accepted]

/-- Other tokens are left. -/
theorem leave (h : c.At rest reports) (stop : NotNext accept rest) : c.take? accept = none := by
  obtain taken | ⟨t, c', hlt, -, rfl, accepted⟩ := Grammar.take?_cases c accept
  · exact taken
  · rw [← h.rest] at stop
    exact Bool.noConfusion (accepted.symm.trans (notNext_cons.1 stop))

/-- The expected token is accepted. -/
theorem expect (eof : Token) (what : Expectation) (h : c.At (t :: rest) reports)
    (sign : t.kind = what.kind) : (c.expect eof what).Accepts rest reports := by
  obtain ⟨c', hlt, taken, behind⟩ := h.take (· == what.kind) (beq_iff_eq.2 sign)
  unfold Cursor.expect
  rw [taken]
  exact behind

/-- Counting does not report while there is room. -/
theorem checkCount (eof : Token) {count : Nat} (p : Problem) (h : c.At rest reports)
    (few : count < longestList) : (c.checkCount eof count p).At rest reports := by
  unfold Cursor.checkCount
  rw [if_neg (show ¬maxArity ≤ count from Nat.not_le.2 few)]
  exact h

end Cursor.At

namespace Step.Accepts

variable {m n : Nat} {α β : Type} {rest' : List Token}

theorem within {x : Step m α} (h : x.Accepts rest reports) (hlt : m < n) :
    (x.within hlt).Accepts rest reports :=
  Step.Spec.within h hlt

theorem relocate {x : Step m α} (h : x.Accepts rest reports) (heq : m = n) :
    (x.relocate heq).Accepts rest reports :=
  Step.Spec.relocate h heq

theorem map {x : Step n α} {f : α → β} (h : x.Accepts rest reports) :
    (x.map f).Accepts rest reports :=
  Step.Spec.map h

/-- **One step after the other**, with what is left by the first for the second. -/
theorem andThen {x : Step n α} {f : α → (c : Cursor) → c.size < n → Step n β}
    (h : x.Accepts rest reports)
    (hf : ∀ v c hlt, c.At rest reports → (f v c hlt).Accepts rest' reports) :
    (x.andThen f).Accepts rest' reports :=
  Step.Spec.andThen h hf

/-- The same for a second step that is bound to an earlier cursor. -/
theorem andThenFrom {x : Step m α} {hmn : m < n}
    {f : α → (c : Cursor) → c.size < m → Step n β} (h : x.Accepts rest reports)
    (hf : ∀ v c hlt, c.At rest reports → (f v c hlt).Accepts rest' reports) :
    (x.andThenFrom hmn f).Accepts rest' reports :=
  Step.Spec.andThenFrom h hf

end Step.Accepts

end Accepting

/-! ## What continues a construct -/

/-- The tokens that continue an operand, or operators of the given tiers. -/
def continuesOperand (tiers : List Tier) (kind : Kind) : Bool :=
  kind == .leftParen || tiers.any (·.accepts kind)

/-- The tokens that continue a condition. -/
def continuesCondition (kind : Kind) : Bool :=
  continuesOperand Tier.all kind || kind == .question

/-- The tokens that continue an expression. -/
def continuesExpression (kind : Kind) : Bool :=
  continuesCondition kind || kind == .equal

/-- What continues a condition continues an expression. -/
theorem NotNext.condition {rest : List Token} (h : NotNext continuesExpression rest) :
    NotNext continuesCondition rest :=
  h.mono fun kind continued => by simp [continuesExpression, continued]

/-- What continues an operator's operand continues a condition. -/
theorem NotNext.operand {rest : List Token} (h : NotNext continuesCondition rest) :
    NotNext (continuesOperand Tier.all) rest :=
  h.mono fun kind continued => by simp [continuesCondition, continued]

/-- What continues the tighter tiers continues all of them. -/
theorem NotNext.tighter {tier : Tier} {tighter : List Tier} {rest : List Token}
    (h : NotNext (continuesOperand (tier :: tighter)) rest) :
    NotNext (continuesOperand tighter) rest := by
  refine h.mono fun kind continued => ?_
  unfold continuesOperand at continued ⊢
  rw [List.any_cons]
  grind

/-- An operator of a tier does not continue operators of the tighter ones. -/
theorem Tier.continuesOperand_eq_false {tier : Tier} {tighter : List Tier} {kind : Kind}
    (suffix : tier :: tighter <:+ Tier.all) (accepted : tier.accepts kind = true) :
    continuesOperand tighter kind = false := by
  have distinct : (tier :: tighter).Nodup := suffix.sublist.nodup (by decide)
  rw [continuesOperand, Bool.or_eq_false_iff]
  constructor
  · rw [beq_eq_false_iff_ne]
    intro opening
    rw [opening] at accepted
    cases tier <;> cases accepted
  · rw [List.any_eq_false]
    intro tier' mem accepted'
    cases Tier.eq_of_accepts accepted accepted'
    exact (List.nodup_cons.1 distinct).1 mem

/-- Behind an operand of a tier stand further operators of the tier, which do not
belong to the tighter ones, and then what follows them all. -/
theorem NotNext.append_operators {tier : Tier} {tighter : List Tier} {v rest : List Token}
    (suffix : tier :: tighter <:+ Tier.all)
    (derives : Derives (.many (.seq [tier.operator, operands tighter])) v)
    (h : NotNext (continuesOperand (tier :: tighter)) rest) :
    NotNext (continuesOperand tighter) (v ++ rest) := by
  obtain rfl | ⟨_, v', first, -, rfl⟩ := derives_many.1 derives
  · exact h.tighter
  · obtain ⟨_, u, operator, -, rfl⟩ := derives_seq_cons.1 first
    obtain ⟨t, accepted, rfl⟩ := Tier.derives_operator.1 operator
    rw [List.append_assoc, List.append_assoc, List.cons_append, notNext_cons]
    exact Tier.continuesOperand_eq_false suffix accepted

namespace Grammar

variable (eof : Token)

/-! ## A name on its own -/

section Name

variable {c : Cursor} {name : Token} {rest : List Token} {reports : List Report}

/-- A name in front of the cursor is read as a variable. -/
theorem primary_name (start : c.At (name :: rest) reports) (sign : name.kind = .identifier) :
    (primary eof c).Spec (fun e c' => e = .var c.nextId name ∧ c'.At rest reports)
      fun _ => False := by
  obtain ⟨c₁, h₁, found, behind⟩ := start.next
  rw [primary, found]
  simp only [sign]
  exact ⟨rfl, behind.rest, behind.reports⟩

/-- Operators of any tiers leave a name alone that none of them follows. -/
theorem operators_name (tiers : List Tier) (start : c.At (name :: rest) reports)
    (sign : name.kind = .identifier) (ends : NotNext (continuesOperand tiers) rest) :
    (operators eof tiers c).Spec (fun e c' => e = .var c.nextId name ∧ c'.At rest reports)
      fun _ => False := by
  induction tiers with
  | nil =>
    have noUnary : NotNext isUnaryOperator (name :: rest) :=
      .of_kind sign rfl
    rw [operators, unary, start.leave noUnary]
    show (call eof c).Spec _ _
    rw [call]
    refine (primary_name eof start sign).andThen fun e c₁ h₁ read => ?_
    obtain ⟨isName, behind⟩ := read
    have noCall : NotNext (· == .leftParen) rest :=
      ends.mono fun kind opening => by simpa [continuesOperand] using opening
    rw [moreCalls, behind.leave noCall]
    exact ⟨isName, behind⟩
  | cons tier tighter ih =>
    rw [operators]
    refine (ih ends.tighter).andThen fun e c₁ h₁ read => ?_
    obtain ⟨isName, behind⟩ := read
    have noOperator : NotNext tier.accepts rest :=
      ends.mono fun kind accepted => by simp [continuesOperand, accepted]
    rw [moreOperators, behind.leave noOperator]
    exact ⟨isName, behind⟩

/-- A name is a whole condition where nothing continues it. -/
theorem conditional_name (start : c.At (name :: rest) reports) (sign : name.kind = .identifier)
    (ends : NotNext continuesCondition rest) :
    (conditional eof c).Spec (fun e c' => e = .var c.nextId name ∧ c'.At rest reports)
      fun _ => False := by
  rw [conditional]
  refine (operators_name eof Tier.all start sign ends.operand).andThen fun e c₁ h₁ read => ?_
  obtain ⟨isName, behind⟩ := read
  have noQuestion : NotNext (· == .question) rest :=
    ends.mono fun kind mark => by simp [continuesCondition, mark]
  rw [behind.leave noQuestion]
  exact ⟨isName, behind⟩

end Name

/-! ## Expressions -/

mutual

/-- **An expression.** A derived assignment begins with a name that is read as a condition
first, and the equals sign behind it ends the condition. -/
theorem expression_accepts (c : Cursor) {w rest : List Token} {reports : List Report}
    (start : c.At (w ++ rest) reports) (derives : Derives (.rule .expression) w)
    (ends : NotNext continuesExpression rest) : (expression eof c).Accepts rest reports := by
  have noEqual : NotNext (· == .equal) rest :=
    ends.mono fun kind sign => by simp [continuesExpression, sign]
  obtain ⟨e, mem, chosen⟩ := derives_oneOf.1 (derives_rule.1 (derives_rule.1 derives))
  simp only [List.mem_cons, List.not_mem_nil, or_false] at mem
  rw [expression]
  obtain rfl | rfl := mem
  · -- The target is read as a condition, which ends in front of the equals sign.
    obtain ⟨name, _, sign, behind, rfl⟩ := derives_seq_token.1 chosen
    obtain ⟨equals, v, sign₁, source, rfl⟩ := derives_seq_token.1 behind
    have ends₁ : NotNext continuesCondition (equals :: (v ++ rest)) :=
      .of_kind sign₁ rfl
    refine (conditional_name eof start sign ends₁).andThen fun target c₁ h₁ read => ?_
    obtain ⟨isName, at₁⟩ := read
    obtain ⟨c₂, h₂, taken, at₂⟩ := at₁.take (· == .equal) (beq_iff_eq.2 sign₁)
    rw [taken]
    have hlt := Cursor.shorter_trans h₂ h₁
    have source := expression_accepts c₂ at₂ (derives_rule.2 (derives_seq_single.1 source)) ends
    refine (source.within hlt).andThen fun value c₃ h₃ at₃ => ?_
    subst isName
    exact ⟨at₃.rest, at₃.reports⟩
  · refine (conditional_accepts c start chosen ends).andThen fun e c₁ h₁ at₁ => ?_
    rw [at₁.leave noEqual]
    exact at₁
termination_by (c.size, 6 + Tier.all.length)

/-- A conditional expression, or its condition alone if no question mark is next. -/
theorem conditional_accepts (c : Cursor) {w rest : List Token} {reports : List Report}
    (start : c.At (w ++ rest) reports) (derives : Derives (.rule .ternary) w)
    (ends : NotNext continuesExpression rest) : (conditional eof c).Accepts rest reports := by
  obtain ⟨u, v, condition, branches, rfl⟩ := derives_seq_cons.1 (derives_rule.1 derives)
  rw [List.append_assoc] at start
  rw [conditional]
  obtain rfl | both := derives_optional.1 (derives_seq_single.1 branches)
  · have noQuestion : NotNext (· == .question) rest :=
      ends.condition.mono fun kind mark => by simp [continuesCondition, mark]
    refine (operators_accepts Tier.all c (List.suffix_refl _) start condition
      ends.condition.operand).andThen fun e c₁ h₁ at₁ => ?_
    rw [List.nil_append] at at₁
    rw [at₁.leave noQuestion]
    exact at₁
  · obtain ⟨mark, _, sign, behind, rfl⟩ := derives_seq_token.1 both
    obtain ⟨v, _, second, behind', rfl⟩ := derives_seq_cons.1 behind
    obtain ⟨colon, v', sign', third, rfl⟩ := derives_seq_token.1 behind'
    simp only [List.append_assoc, List.cons_append] at start
    have ends₁ : NotNext (continuesOperand Tier.all) (mark :: (v ++ colon :: (v' ++ rest))) :=
      .of_kind sign rfl
    refine (operators_accepts Tier.all c (List.suffix_refl _) start condition ends₁).andThen
      fun e c₁ h₁ at₁ => ?_
    obtain ⟨c₂, h₂, taken, at₂⟩ := at₁.take (· == .question) (beq_iff_eq.2 sign)
    rw [taken]
    have hlt := Cursor.shorter_trans h₂ h₁
    have ends₂ : NotNext continuesExpression (colon :: (v' ++ rest)) :=
      .of_kind sign' rfl
    refine ((expression_accepts c₂ at₂ second ends₂).within hlt).andThen
      fun thenBranch c₃ h₃ at₃ => ?_
    refine ((at₃.expect eof .conditionalColon sign').within h₃).andThen fun colon c₄ h₄ at₄ => ?_
    exact ((expression_accepts c₄ at₄ (derives_seq_single.1 third) ends).within h₄).map
termination_by (c.size, 5 + Tier.all.length)

/-- Operators by tiers. What follows the operand of a tier does not continue the tighter
ones. -/
theorem operators_accepts (tiers : List Tier) (c : Cursor) {w rest : List Token}
    {reports : List Report} (suffix : tiers <:+ Tier.all) (start : c.At (w ++ rest) reports)
    (derives : Derives (operands tiers) w) (ends : NotNext (continuesOperand tiers) rest) :
    (operators eof tiers c).Accepts rest reports := by
  rw [operators.eq_def]
  match tiers with
  | [] => exact unary_accepts c start derives ends
  | tier :: tighter =>
    have body : Derives (production tier.name) w := derives_rule.1 derives
    rw [production_tier suffix] at body
    obtain ⟨u, v, left, others, rfl⟩ := derives_seq_cons.1 body
    have others := derives_seq_single.1 others
    rw [List.append_assoc] at start
    -- Behind the left operand comes an operator of this tier, or what ends the whole.
    have ends₁ := NotNext.append_operators suffix others ends
    refine (operators_accepts tighter c ((List.suffix_cons _ _).trans suffix) start left
      ends₁).andThen fun left c₁ h₁ at₁ => ?_
    exact moreOperators_accepts tier tighter c left c₁ h₁ suffix at₁ others ends
termination_by (c.size, 4 + tiers.length)

/-- A chain of operators of one tier, by recursion on what is left of the chain. -/
theorem moreOperators_accepts (tier : Tier) (tighter : List Tier) (first : Cursor) (left : Expr)
    (c : Cursor) (h : c.size < first.size) {w rest : List Token} {reports : List Report}
    (suffix : tier :: tighter <:+ Tier.all) (start : c.At (w ++ rest) reports)
    (derives : Derives (.many (.seq [tier.operator, operands tighter])) w)
    (ends : NotNext (continuesOperand (tier :: tighter)) rest) :
    (moreOperators eof tier tighter first left c h).Accepts rest reports := by
  rw [moreOperators]
  obtain rfl | ⟨_, v, next, others, rfl⟩ := derives_many.1 derives
  · have noOperator : NotNext tier.accepts rest :=
      ends.mono fun kind accepted => by simp [continuesOperand, accepted]
    rw [List.nil_append] at start
    rw [start.leave noOperator]
    exact start
  · obtain ⟨_, u, operator, right, rfl⟩ := derives_seq_cons.1 next
    obtain ⟨operator, sign, rfl⟩ := Tier.derives_operator.1 operator
    simp only [List.append_assoc, List.cons_append, List.nil_append] at start
    obtain ⟨c₁, h₁, taken, at₁⟩ := start.take tier.accepts sign
    rw [taken]
    have ends₁ := NotNext.append_operators suffix others ends
    refine ((operators_accepts tighter c₁ ((List.suffix_cons _ _).trans suffix) at₁
      (derives_seq_single.1 right) ends₁).within h₁).andThenFrom fun right c₂ h₂ at₂ => ?_
    exact moreOperators_accepts tier tighter first _ c₂ _ suffix at₂ others ends
termination_by (c.size, 0)

/-- An operand. No call begins with an operator, so the two alternatives exclude each
other. -/
theorem unary_accepts (c : Cursor) {w rest : List Token} {reports : List Report}
    (start : c.At (w ++ rest) reports) (derives : Derives (.rule .unary) w)
    (ends : NotNext (continuesOperand []) rest) : (unary eof c).Accepts rest reports := by
  obtain ⟨e, mem, chosen⟩ := derives_oneOf.1 (derives_rule.1 derives)
  simp only [List.mem_cons, List.not_mem_nil, or_false] at mem
  rw [unary]
  obtain rfl | rfl := mem
  · obtain ⟨_, v, operator, operand, rfl⟩ := derives_seq_cons.1 chosen
    obtain ⟨operator, sign, rfl⟩ := derives_unaryOperator.1 operator
    simp only [List.cons_append, List.nil_append] at start
    obtain ⟨c₁, h₁, taken, at₁⟩ := start.take isUnaryOperator sign
    rw [taken]
    exact ((unary_accepts c₁ at₁ (derives_seq_single.1 operand) ends).within h₁).map
  · obtain ⟨t, v, rfl, begun⟩ := call_beginsWith w chosen
    have noUnary : NotNext isUnaryOperator (t :: v ++ rest) := by
      rw [List.cons_append, notNext_cons]
      exact Kind.isUnaryOperator_of_beginsPrimary begun
    rw [start.leave noUnary]
    exact call_accepts c start chosen ends
termination_by (c.size, 3)

/-- What is called, with argument lists behind it. -/
theorem call_accepts (c : Cursor) {w rest : List Token} {reports : List Report}
    (start : c.At (w ++ rest) reports) (derives : Derives (.rule .call) w)
    (ends : NotNext (continuesOperand []) rest) : (call eof c).Accepts rest reports := by
  obtain ⟨u, v, callee, others, rfl⟩ := derives_seq_cons.1 (derives_rule.1 derives)
  rw [List.append_assoc] at start
  rw [call]
  refine (primary_accepts c start callee).andThen fun callee c₁ h₁ at₁ => ?_
  exact moreCalls_accepts c callee c₁ h₁ at₁ (derives_seq_single.1 others) ends
termination_by (c.size, 2)

/-- Argument lists, as long as a parenthesis opens. -/
theorem moreCalls_accepts (first : Cursor) (callee : Expr) (c : Cursor)
    (h : c.size < first.size) {w rest : List Token} {reports : List Report}
    (start : c.At (w ++ rest) reports)
    (derives : Derives (.many (.seq [.token .leftParen, .optional (.rule .arguments),
      .token .rightParen])) w)
    (ends : NotNext (continuesOperand []) rest) :
    (moreCalls eof first callee c h).Accepts rest reports := by
  rw [moreCalls]
  obtain rfl | ⟨_, v, next, others, rfl⟩ := derives_many.1 derives
  · have noCall : NotNext (· == .leftParen) rest :=
      ends.mono fun kind opening => by simpa [continuesOperand] using opening
    rw [List.nil_append] at start
    rw [start.leave noCall]
    exact start
  · obtain ⟨opening, u, sign, given, rfl⟩ := derives_seq_token.1 next
    simp only [List.append_assoc, List.cons_append] at start
    obtain ⟨c₁, h₁, taken, at₁⟩ := start.take (· == .leftParen) (beq_iff_eq.2 sign)
    rw [taken]
    refine ((arguments_accepts c₁ at₁ given).within h₁).andThenFrom
      fun (given, paren) c₂ h₂ at₂ => ?_
    exact moreCalls_accepts first _ c₂ _ at₂ others ends
termination_by (c.size, 0)

/-- Arguments up to the closing parenthesis, at most as many as are allowed. -/
theorem arguments_accepts (c : Cursor) {w rest : List Token} {reports : List Report}
    (start : c.At (w ++ rest) reports)
    (derives : Derives (.seq [.optional (.rule .arguments), .token .rightParen]) w) :
    (arguments eof c).Accepts rest reports := by
  rw [arguments]
  obtain ⟨paren, sign, rfl⟩ | list := (derives_optional_list rfl).1 derives
  · obtain ⟨c₁, h₁, taken, at₁⟩ := start.take (· == .rightParen) (beq_iff_eq.2 sign)
    rw [taken]
    exact at₁
  · rw [start.leave (expression_beginsWith.closedList.notNext list .rightParen rfl)]
    exact someArguments_accepts 0 c (Nat.lt_succ_self _) start list
termination_by (c.size, 8 + Tier.all.length)

/-- Arguments behind `count` others are accepted as long as there is room. -/
theorem someArguments_accepts (count : Nat) (c : Cursor) {limit : Nat} {w rest : List Token}
    {reports : List Report} (room : count + limit < longestList)
    (start : c.At (w ++ rest) reports)
    (derives : Derives (.closedList (.rule .expression) limit) w) :
    (someArguments eof count c).Accepts rest reports := by
  obtain ⟨u, _, first, behind, rfl⟩ := derives_seq_cons.1 derives
  obtain ⟨v, _, others, closing, rfl⟩ := derives_seq_cons.1 behind
  obtain ⟨paren, sign, rfl⟩ := derives_token.1 (derives_seq_single.1 closing)
  have hsize := Cursor.size_checkCount c eof count .tooManyArguments
  have start := start.checkCount eof .tooManyArguments (show count < longestList by omega)
  rw [someArguments]
  simp only [List.append_assoc] at start
  -- The parenthesis ends the last argument, a comma any other.
  obtain rfl | ⟨less, _, v, rfl, next, further, rfl⟩ := derives_atMost.1 others
  · simp only [List.nil_append, List.cons_append] at start
    have ends : NotNext continuesExpression (paren :: rest) :=
      .of_kind sign rfl
    refine ((expression_accepts _ start first ends).relocate hsize).andThen
      fun first c₁ h₁ at₁ => ?_
    have noComma : NotNext (· == .comma) (paren :: rest) :=
      .of_kind sign rfl
    rw [at₁.leave noComma]
    exact ((at₁.expect eof .argumentsClose sign).within h₁).map
  · obtain ⟨comma, u', sign', second, rfl⟩ := derives_seq_token.1 next
    simp only [List.append_assoc, List.cons_append, List.nil_append] at start
    have ends : NotNext continuesExpression (comma :: (u' ++ (v ++ paren :: rest))) :=
      .of_kind sign' rfl
    refine ((expression_accepts _ start first ends).relocate hsize).andThen
      fun first c₁ h₁ at₁ => ?_
    obtain ⟨c₂, h₂, taken, at₂⟩ := at₁.take (· == .comma) (beq_iff_eq.2 sign')
    rw [taken]
    have hlt := Cursor.shorter_trans h₂ h₁
    have list : Derives (.closedList (.rule .expression) less) (u' ++ (v ++ [paren])) :=
      .cons (derives_seq_single.1 second) (.cons further closing)
    have at₂ : c₂.At (u' ++ (v ++ [paren]) ++ rest) reports := by
      simpa only [List.append_assoc, List.cons_append, List.nil_append] using at₂
    exact ((someArguments_accepts (count + 1) c₂ (by omega) at₂ list).within hlt).map
termination_by (c.size, 7 + Tier.all.length)

/-- **Literals, names and groups**, by the kind of the first token. -/
theorem primary_accepts (c : Cursor) {w rest : List Token} {reports : List Report}
    (start : c.At (w ++ rest) reports) (derives : Derives (.rule .primary) w) :
    (primary eof c).Accepts rest reports := by
  obtain ⟨e, mem, chosen⟩ := derives_oneOf.1 (derives_rule.1 derives)
  simp only [List.mem_cons, List.not_mem_nil, or_false] at mem
  rw [primary]
  -- All primary expressions but the last are single tokens.
  obtain rfl | rfl | rfl | rfl | rfl | rfl | rfl := mem
  case inr.inr.inr.inr.inr.inr =>
    obtain ⟨opening, _, sign, behind, rfl⟩ := derives_seq_token.1 chosen
    obtain ⟨u, _, inner, closing, rfl⟩ := derives_seq_cons.1 behind
    obtain ⟨paren, sign', rfl⟩ := derives_token.1 (derives_seq_single.1 closing)
    simp only [List.append_assoc, List.cons_append, List.nil_append] at start
    obtain ⟨c₁, h₁, found, at₁⟩ := start.next
    have ends : NotNext continuesExpression (paren :: rest) :=
      .of_kind sign' rfl
    rw [found]
    simp only [sign]
    refine ((expression_accepts c₁ at₁ inner ends).within h₁).andThen fun e c₂ h₂ at₂ => ?_
    exact ((at₂.expect eof .groupClose sign').within h₂).map
  all_goals
    obtain ⟨t, sign, rfl⟩ := derives_token.1 chosen
    obtain ⟨c₁, h₁, found, at₁⟩ := start.next
    rw [found]
    simp only [sign]
    exact ⟨at₁.rest, at₁.reports⟩
termination_by (c.size, 1)

end

end Grammar

end Kix
