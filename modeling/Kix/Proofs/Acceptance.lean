import Kix.Proofs.ExpressionAcceptance

/-!
# The parser accepts exactly its grammar

Derivable statements are read without a report, in the manner of
`Kix.Proofs.ExpressionAcceptance`. A statement that ends in an `if` without `else`
must not be followed by an `else`, which the reader would take to belong to it. So
the induction is on derivations in which every `else` belongs to the nearest `if`,
and those exist by `exists_nesting`.

Together with `ReadsStatements.spans` this gives `reports_eq_nil_iff`: a sequence of
tokens is parsed without a report exactly if it is derivable.
-/

namespace Kix

namespace Grammar

variable (eof : Token)

/-! ## Parts of statements -/

section Parts

variable {c : Cursor} {w rest : List Token} {reports : List Report}

/-- An expression and the token that closes it, which does not continue the expression. -/
theorem closedExpression_accepts (closing : Expectation) {t : Token}
    (start : c.At (w ++ t :: rest) reports) (derives : Derives (.rule .expression) w)
    (sign : t.kind = closing.kind) (ends : continuesExpression closing.kind = false) :
    (closedExpression eof c closing).Accepts rest reports := by
  unfold closedExpression
  refine (expression_accepts eof c start derives (.of_kind sign ends)).andThen
    fun e c₁ h₁ at₁ => ?_
  exact ((at₁.expect eof closing sign).within h₁).map

/-- An expression that may be missing: the token that closes it begins none. -/
theorem optional_accepts (closing : Expectation) (start : c.At (w ++ rest) reports)
    (derives : Derives (.seq [.optional (.rule .expression), .token closing.kind]) w)
    (ends : continuesExpression closing.kind = false)
    (other : closing.kind.beginsExpression = false) :
    (optional eof c closing).Accepts rest reports := by
  obtain ⟨u, _, value, closed, rfl⟩ := derives_seq_cons.1 derives
  obtain ⟨t, sign, rfl⟩ := derives_token.1 (derives_seq_single.1 closed)
  simp only [List.append_assoc, List.cons_append, List.nil_append] at start
  unfold optional
  rw [Cursor.sees_eq_isSome_take?]
  obtain rfl | value := derives_optional.1 value
  · obtain ⟨c₁, h₁, taken, -⟩ := start.take (· == closing.kind) (beq_iff_eq.2 sign)
    rw [taken]
    exact (start.expect eof closing sign).map
  · rw [start.leave (expression_beginsWith.notNext value closing.kind other)]
    refine (expression_accepts eof c start value (.of_kind sign ends)).andThen
      fun e c₁ h₁ at₁ => ?_
    exact ((at₁.expect eof closing sign).within h₁).map

/-- A variable declaration behind its first word. -/
theorem variableDeclaration_accepts (start : c.At (w ++ rest) reports)
    (derives : Derives (.seq [.token .identifier,
      .optional (.seq [.token .equal, .rule .expression]), .token .semicolon]) w) :
    (variableDeclaration eof c).Accepts rest reports := by
  obtain ⟨name, _, sign, behind, rfl⟩ := derives_seq_token.1 derives
  obtain ⟨u, _, value, closed, rfl⟩ := derives_seq_cons.1 behind
  obtain ⟨closing, sign', rfl⟩ := derives_token.1 (derives_seq_single.1 closed)
  simp only [List.append_assoc, List.cons_append, List.nil_append] at start
  unfold variableDeclaration
  refine (start.expect eof .variableName sign).andThen fun name c₁ h₁ at₁ => ?_
  obtain rfl | value := derives_optional.1 value
  · have noValue : NotNext (· == .equal) (closing :: rest) := .of_kind sign' rfl
    rw [List.nil_append] at at₁
    rw [at₁.leave noValue]
    exact ((at₁.expect eof .variableEnd sign').within h₁).map
  · obtain ⟨equals, v, sign₁, source, rfl⟩ := derives_seq_token.1 value
    rw [List.cons_append] at at₁
    obtain ⟨c₂, h₂, taken, at₂⟩ := at₁.take (· == .equal) (beq_iff_eq.2 sign₁)
    rw [taken]
    exact ((closedExpression_accepts eof .variableEnd at₂ (derives_seq_single.1 source) sign'
      rfl).within _).map

theorem expressionStatement_accepts (start : c.At (w ++ rest) reports)
    (derives : Derives (.rule .exprStmt) w) :
    (expressionStatement eof c).Accepts rest reports := by
  obtain ⟨u, _, value, closed, rfl⟩ := derives_seq_cons.1 (derives_rule.1 derives)
  obtain ⟨closing, sign, rfl⟩ := derives_token.1 (derives_seq_single.1 closed)
  rw [List.append_assoc, List.cons_append, List.nil_append] at start
  exact (closedExpression_accepts eof .expressionEnd start value sign rfl).map

/-- What stands first in a `for` loop. The three alternatives begin differently. -/
theorem forInitializer_accepts (start : c.At (w ++ rest) reports)
    (derives : Derives (.oneOf [.rule .varDecl, .rule .exprStmt, .token .semicolon]) w) :
    (forInitializer eof c).Accepts rest reports := by
  obtain ⟨e, mem, chosen⟩ := derives_oneOf.1 derives
  simp only [List.mem_cons, List.not_mem_nil, or_false] at mem
  unfold forInitializer
  obtain rfl | rfl | rfl := mem
  · obtain ⟨word, v, kind, tail, rfl⟩ := derives_seq_token.1 (derives_rule.1 chosen)
    have noSemicolon : NotNext (· == .semicolon) (word :: v ++ rest) := .of_kind kind rfl
    rw [start.leave noSemicolon]
    obtain ⟨c₁, h₁, taken, at₁⟩ := start.take (· == .varWord) (beq_iff_eq.2 kind)
    dsimp only
    rw [taken]
    exact (variableDeclaration_accepts eof at₁ tail).within h₁
  · rw [start.leave (exprStmt_beginsWith.notNext chosen .semicolon rfl)]
    dsimp only
    rw [start.leave (exprStmt_beginsWith.notNext chosen .varWord rfl)]
    exact expressionStatement_accepts eof start chosen
  · obtain ⟨closing, sign, rfl⟩ := derives_token.1 chosen
    obtain ⟨c₁, h₁, taken, at₁⟩ := start.take (· == .semicolon) (beq_iff_eq.2 sign)
    rw [taken]
    exact at₁

end Parts

/-- Parameters behind `count` others are accepted as long as there is room. -/
theorem someParameters_accepts (count : Nat) (c : Cursor) {limit : Nat} {w rest : List Token}
    {reports : List Report} (room : count + limit < longestList)
    (start : c.At (w ++ rest) reports)
    (derives : Derives (.closedList (.token .identifier) limit) w) :
    (someParameters eof count c).Accepts rest reports := by
  obtain ⟨name, _, sign, behind, rfl⟩ := derives_seq_token.1 derives
  obtain ⟨v, _, others, closing, rfl⟩ := derives_seq_cons.1 behind
  obtain ⟨paren, sign', rfl⟩ := derives_token.1 (derives_seq_single.1 closing)
  have hsize := Cursor.size_checkCount c eof count .tooManyParameters
  -- There is room, so counting leaves the reports as they are.
  have start := start.checkCount eof .tooManyParameters (show count < longestList by omega)
  simp only [List.append_assoc, List.cons_append, List.nil_append] at start
  rw [someParameters]
  refine ((start.expect eof .parameterName sign).relocate hsize).andThen fun name c₁ h₁ at₁ => ?_
  obtain rfl | ⟨less, _, v, rfl, next, further, rfl⟩ := derives_atMost.1 others
  · have noComma : NotNext (· == .comma) (paren :: rest) := .of_kind sign' rfl
    rw [List.nil_append] at at₁
    rw [at₁.leave noComma]
    exact ((at₁.expect eof .parametersClose sign').within h₁).map
  · obtain ⟨comma, u, sign₁, second, rfl⟩ := derives_seq_token.1 next
    simp only [List.append_assoc, List.cons_append] at at₁
    obtain ⟨c₂, h₂, taken, at₂⟩ := at₁.take (· == .comma) (beq_iff_eq.2 sign₁)
    rw [taken]
    have hlt := Cursor.shorter_trans h₂ h₁
    have list : Derives (.closedList (.token .identifier) less) (u ++ (v ++ [paren])) :=
      .cons (derives_seq_single.1 second) (.cons further closing)
    have at₂ : c₂.At (u ++ (v ++ [paren]) ++ rest) reports := by
      simpa only [List.append_assoc, List.cons_append, List.nil_append] using at₂
    exact ((someParameters_accepts (count + 1) c₂ (by omega) at₂ list).within hlt).map
termination_by c.size

/-- Parameters up to the closing parenthesis, or none. -/
theorem parameters_accepts {c : Cursor} {w rest : List Token} {reports : List Report}
    (start : c.At (w ++ rest) reports)
    (derives : Derives (.seq [.optional (.rule .parameters), .token .rightParen]) w) :
    (parameters eof c).Accepts rest reports := by
  unfold parameters
  obtain ⟨paren, sign, rfl⟩ | list := (derives_optional_list rfl).1 derives
  · obtain ⟨c₁, h₁, taken, at₁⟩ := start.take (· == .rightParen) (beq_iff_eq.2 sign)
    rw [taken]
    exact at₁
  · have begins : (Ebnf.token .identifier).BeginsWith Kind.beginsPrimary := .token rfl
    rw [start.leave (begins.closedList.notNext list .rightParen rfl)]
    exact someParameters_accepts eof 0 c (Nat.lt_succ_self _) start list

/-! ## Statements and declarations -/

/-- Behind a declaration stand further ones, which do not begin with `else`. -/
theorem noElse_of_declarations {v rest : List Token}
    (derives : Derives (.many (.rule .declaration)) v) (h : NotNext (· == .elseWord) rest) :
    NotNext (· == .elseWord) (v ++ rest) := by
  obtain rfl | ⟨u, v, first, -, rfl⟩ := derives_many.1 derives
  · exact h
  · rw [List.append_assoc]
    exact declaration_beginsWith.notNext first .elseWord rfl

/-- What is accepted is not resumed. -/
theorem orResume_accepts {c : Cursor} {rest : List Token} {reports : List Report}
    (nonempty : c.rest ≠ []) {x : Step c.size Stmt} (h : x.Accepts rest reports) :
    (c.orResume nonempty x .absent).2.1.At rest reports := by
  cases x with
  | ok s c' hlt => exact h
  | failed c' hle => exact h.elim

/-- The statements that hold no other statement at all. -/
theorem simpleStatement_accepts {c : Cursor} {e : Ebnf} {w rest : List Token}
    {reports : List Report} (start : c.At (w ++ rest) reports)
    (mem : e ∈ Ebnf.simpleStatements) (derives : Derives e w) :
    (statement eof c).Accepts rest reports := by
  simp only [Ebnf.simpleStatements, List.mem_cons, List.not_mem_nil, or_false] at mem
  rw [statement]
  obtain rfl | rfl | rfl := mem
  · obtain ⟨t, v, rfl, begun⟩ := exprStmt_beginsWith w derives
    obtain ⟨c₁, h₁, found, -⟩ := start.next
    rw [found]
    dsimp only
    -- No other statement begins as an expression does.
    split
    case h_7 => exact expressionStatement_accepts eof start derives
    all_goals
      next kind => exact absurd kind (Kind.ne_of_beginsExpression begun rfl)
  · obtain ⟨word, _, kind, behind, rfl⟩ := derives_seq_token.1 (derives_rule.1 derives)
    obtain ⟨u, _, value, closed, rfl⟩ := derives_seq_cons.1 behind
    obtain ⟨closing, sign, rfl⟩ := derives_token.1 (derives_seq_single.1 closed)
    simp only [List.append_assoc, List.cons_append, List.nil_append] at start
    obtain ⟨c₁, h₁, found, at₁⟩ := start.next
    rw [found]
    simp only [kind]
    exact ((closedExpression_accepts eof .printEnd at₁ value sign rfl).within h₁).map
  · obtain ⟨word, v, kind, value, rfl⟩ := derives_seq_token.1 (derives_rule.1 derives)
    obtain ⟨c₁, h₁, found, at₁⟩ := start.next
    rw [found]
    simp only [kind]
    exact ((optional_accepts eof .returnEnd at₁ value rfl rfl).within h₁).map

mutual

/-- **A statement**, by its nesting. An `else` behind an open one would belong to it, so
none may follow. -/
theorem statement_accepts (c : Cursor) {isOpen : Bool} {w rest : List Token}
    {reports : List Report} (start : c.At (w ++ rest) reports) (nesting : Nesting isOpen w)
    (ends : isOpen = true → NotNext (· == .elseWord) rest) :
    (statement eof c).Accepts rest reports := by
  cases nesting with
  | simple mem derives => exact simpleStatement_accepts eof start mem derives
  | block derives =>
    obtain ⟨brace, v, kind, inner, rfl⟩ := derives_seq_token.1 (derives_rule.1 derives)
    obtain ⟨c₁, h₁, found, at₁⟩ := start.next
    rw [statement, found]
    simp only [kind]
    exact ((block_accepts c₁ at₁ inner).within h₁).map
  | @loop head _ u v mem first body =>
    simp only [List.mem_cons, List.not_mem_nil, or_false] at mem
    obtain rfl | rfl := mem
    all_goals
      obtain ⟨word, u, kind, header, rfl⟩ := derives_seq_token.1 first
      rw [List.append_assoc, List.cons_append] at start
      obtain ⟨c₁, h₁, found, at₁⟩ := start.next
      rw [statement, found]
      simp only [kind]
    · exact (forStatement_accepts c₁ at₁ header body ends).within h₁
    · exact (whileStatement_accepts c₁ at₁ header body ends).within h₁
  | branch first body =>
    obtain ⟨word, u, kind, header, rfl⟩ := derives_seq_token.1 first
    rw [List.append_assoc, List.cons_append] at start
    obtain ⟨c₁, h₁, found, at₁⟩ := start.next
    rw [statement, found]
    simp only [kind]
    have at₁ : c₁.At (u ++ (_ ++ ([] ++ rest))) reports := at₁
    have noElse := ends rfl
    exact (ifStatement_accepts c₁ at₁ header body (fun _ => noElse) (.inl ⟨rfl, noElse⟩)).within h₁
  | @branchElse _ u v w other first thenBranch sign elseBranch =>
    obtain ⟨word, u, kind, header, rfl⟩ := derives_seq_token.1 first
    simp only [List.append_assoc, List.cons_append] at start
    obtain ⟨c₁, h₁, found, at₁⟩ := start.next
    rw [statement, found]
    simp only [kind]
    have at₁ : c₁.At (u ++ (v ++ (other :: w ++ rest))) reports := at₁
    exact (ifStatement_accepts c₁ at₁ header thenBranch (fun isTrue => nomatch isTrue)
      (.inr ⟨other, w, isOpen, rfl, sign, elseBranch, ends⟩)).within h₁
termination_by (c.size, 1)

/-- An `if` statement with or without its `else` part `x`. -/
theorem ifStatement_accepts (c : Cursor) {isOpen : Bool} {u v x rest : List Token}
    {reports : List Report} (start : c.At (u ++ (v ++ (x ++ rest))) reports)
    (header : Derives (.seq Ebnf.ifHead.tail) u) (thenBranch : Nesting isOpen v)
    (ends : isOpen = true → NotNext (· == .elseWord) (x ++ rest))
    (elsePart : (x = [] ∧ NotNext (· == .elseWord) rest) ∨
      ∃ other w isOpen', x = other :: w ∧ other.kind = .elseWord ∧ Nesting isOpen' w ∧
        (isOpen' = true → NotNext (· == .elseWord) rest)) :
    (ifStatement eof c).Accepts rest reports := by
  obtain ⟨opening, _, sign, behind, rfl⟩ := derives_seq_token.1 header
  obtain ⟨u, _, condition, closed, rfl⟩ := derives_seq_cons.1 behind
  obtain ⟨closing, sign', rfl⟩ := derives_token.1 (derives_seq_single.1 closed)
  simp only [List.append_assoc, List.cons_append, List.nil_append] at start
  rw [ifStatement]
  refine (start.expect eof .ifOpen sign).andThen fun opening c₁ h₁ at₁ => ?_
  refine ((closedExpression_accepts eof .ifClose at₁ condition sign' rfl).within h₁).andThen
    fun condition c₂ h₂ at₂ => ?_
  refine ((statement_accepts c₂ at₂ thenBranch ends).within h₂).andThen
    fun thenBranch c₃ h₃ at₃ => ?_
  obtain ⟨rfl, noElse⟩ | ⟨other, w, isOpen', rfl, kind, elseBranch, ends'⟩ := elsePart
  · rw [List.nil_append] at at₃
    rw [at₃.leave noElse]
    exact at₃
  · obtain ⟨c₄, h₄, taken, at₄⟩ := at₃.take (· == .elseWord) (beq_iff_eq.2 kind)
    rw [taken]
    have hlt := Cursor.shorter_trans h₄ h₃
    exact ((statement_accepts c₄ at₄ elseBranch ends').within hlt).map
termination_by (c.size, 0)

/-- A `for` loop is open if its body is. -/
theorem forStatement_accepts (c : Cursor) {isOpen : Bool} {u v rest : List Token}
    {reports : List Report} (start : c.At (u ++ (v ++ rest)) reports)
    (header : Derives (.seq Ebnf.forHead.tail) u) (body : Nesting isOpen v)
    (ends : isOpen = true → NotNext (· == .elseWord) rest) :
    (forStatement eof c).Accepts rest reports := by
  obtain ⟨opening, _, sign, behind, rfl⟩ := derives_seq_token.1 header
  obtain ⟨u, _, first, behind', rfl⟩ := derives_seq_cons.1 behind
  obtain ⟨u', u'', second, third, rfl⟩ := (derives_seq_append [_, _] [_, _]).1 behind'
  simp only [List.append_assoc, List.cons_append] at start
  rw [forStatement]
  refine (start.expect eof .forOpen sign).andThen fun opening c₁ h₁ at₁ => ?_
  refine ((forInitializer_accepts eof at₁ first).within h₁).andThen fun init c₂ h₂ at₂ => ?_
  refine ((optional_accepts eof .forConditionEnd at₂ second rfl rfl).within h₂).andThen
    fun condition c₃ h₃ at₃ => ?_
  refine ((optional_accepts eof .forClose at₃ third rfl rfl).within h₃).andThen
    fun increment c₄ h₄ at₄ => ?_
  exact ((statement_accepts c₄ at₄ body ends).within h₄).map
termination_by (c.size, 0)

/-- A `while` loop is open if its body is. -/
theorem whileStatement_accepts (c : Cursor) {isOpen : Bool} {u v rest : List Token}
    {reports : List Report} (start : c.At (u ++ (v ++ rest)) reports)
    (header : Derives (.seq Ebnf.whileHead.tail) u) (body : Nesting isOpen v)
    (ends : isOpen = true → NotNext (· == .elseWord) rest) :
    (whileStatement eof c).Accepts rest reports := by
  obtain ⟨opening, _, sign, behind, rfl⟩ := derives_seq_token.1 header
  obtain ⟨u, _, condition, closed, rfl⟩ := derives_seq_cons.1 behind
  obtain ⟨closing, sign', rfl⟩ := derives_token.1 (derives_seq_single.1 closed)
  simp only [List.append_assoc, List.cons_append, List.nil_append] at start
  rw [whileStatement]
  refine (start.expect eof .whileOpen sign).andThen fun opening c₁ h₁ at₁ => ?_
  refine ((closedExpression_accepts eof .whileClose at₁ condition sign' rfl).within h₁).andThen
    fun condition c₂ h₂ at₂ => ?_
  exact ((statement_accepts c₂ at₂ body ends).within h₂).map
termination_by (c.size, 0)

/-- The declarations up to the brace that closes a block, none of which begins with that
brace. -/
theorem block_accepts (c : Cursor) {w rest : List Token} {reports : List Report}
    (start : c.At (w ++ rest) reports)
    (derives : Derives (.seq [.many (.rule .declaration), .token .rightBrace]) w) :
    (block eof c).Accepts rest reports := by
  obtain ⟨u, _, inner, closed, rfl⟩ := derives_seq_cons.1 derives
  obtain ⟨brace, sign, rfl⟩ := derives_token.1 (derives_seq_single.1 closed)
  simp only [List.append_assoc, List.cons_append, List.nil_append] at start
  have nonempty : c.rest ≠ [] := by
    rw [start.rest]
    simp
  rw [block, dif_neg nonempty, Cursor.sees_eq_isSome_take?]
  obtain rfl | ⟨u, v, first, others, rfl⟩ := derives_many.1 inner
  · obtain ⟨c₁, h₁, taken, -⟩ := start.take (· == .rightBrace) (beq_iff_eq.2 sign)
    rw [taken]
    exact (start.expect eof .blockClose sign).map
  · rw [List.append_assoc] at start
    rw [start.leave (declaration_beginsWith.notNext first .rightBrace rfl)]
    -- Behind a declaration stands another one or the brace, in no case an `else`.
    have noElse : NotNext (· == .elseWord) (v ++ brace :: rest) :=
      noElse_of_declarations others (.of_kind sign rfl)
    have at₁ := declaration_accepts c nonempty start first noElse
    have hlt := (declaration eof c nonempty).2.2
    have at₁ : (declaration eof c nonempty).2.1.At (v ++ [brace] ++ rest) reports := by
      simpa only [List.append_assoc, List.cons_append, List.nil_append] using at₁
    exact ((block_accepts _ at₁ (.cons others closed)).within hlt).map
termination_by (c.size, 3)

/-- A function declaration behind its first word. -/
theorem functionDeclaration_accepts (c : Cursor) {w rest : List Token} {reports : List Report}
    (start : c.At (w ++ rest) reports)
    (derives : Derives (.seq [.token .identifier, .token .leftParen,
      .optional (.rule .parameters), .token .rightParen, .rule .block]) w) :
    (functionDeclaration eof c).Accepts rest reports := by
  obtain ⟨name, _, sign, behind, rfl⟩ := derives_seq_token.1 derives
  obtain ⟨opening, _, sign₁, behind', rfl⟩ := derives_seq_token.1 behind
  obtain ⟨u, v, list, body, rfl⟩ := (derives_seq_append [_, _] [_]).1 behind'
  obtain ⟨brace, v, sign₂, inner, rfl⟩ :=
    derives_seq_token.1 (derives_rule.1 (derives_seq_single.1 body))
  simp only [List.append_assoc, List.cons_append] at start
  rw [functionDeclaration]
  refine (start.expect eof .functionName sign).andThen fun name c₁ h₁ at₁ => ?_
  refine ((at₁.expect eof .functionOpen sign₁).within h₁).andThen fun opening c₂ h₂ at₂ => ?_
  refine ((parameters_accepts eof at₂ list).within h₂).andThen fun params c₃ h₃ at₃ => ?_
  refine ((at₃.expect eof .bodyOpen sign₂).within h₃).andThen fun brace c₄ h₄ at₄ => ?_
  exact ((block_accepts c₄ at₄ inner).within h₄).map
termination_by (c.size, 0)

/-- **A declaration**, behind which stands no `else`. -/
theorem declaration_accepts (c : Cursor) (nonempty : c.rest ≠ []) {w rest : List Token}
    {reports : List Report} (start : c.At (w ++ rest) reports)
    (derives : Derives (.rule .declaration) w) (ends : NotNext (· == .elseWord) rest) :
    (declaration eof c nonempty).2.1.At rest reports := by
  obtain ⟨e, mem, chosen⟩ := derives_oneOf.1 (derives_rule.1 derives)
  simp only [List.mem_cons, List.not_mem_nil, or_false] at mem
  rw [declaration]
  refine orResume_accepts nonempty ?_
  obtain rfl | rfl | rfl := mem
  · obtain ⟨word, v, kind, tail, rfl⟩ := derives_seq_token.1 (derives_rule.1 chosen)
    obtain ⟨c₁, h₁, taken, at₁⟩ := start.take (· == .funWord) (beq_iff_eq.2 kind)
    rw [taken]
    exact (functionDeclaration_accepts c₁ at₁ tail).within h₁
  · obtain ⟨word, v, kind, tail, rfl⟩ := derives_seq_token.1 (derives_rule.1 chosen)
    have noFunction : NotNext (· == .funWord) (word :: v ++ rest) := .of_kind kind rfl
    obtain ⟨c₁, h₁, taken, at₁⟩ := start.take (· == .varWord) (beq_iff_eq.2 kind)
    rw [start.leave noFunction]
    dsimp only
    rw [taken]
    exact (variableDeclaration_accepts eof at₁ tail).within h₁
  · -- The one place where it matters which derivation of the statement is taken.
    obtain ⟨isOpen, nesting⟩ := exists_nesting chosen
    rw [start.leave (statement_beginsWith.notNext chosen .funWord rfl)]
    dsimp only
    rw [start.leave (statement_beginsWith.notNext chosen .varWord rfl)]
    exact statement_accepts c start nesting fun _ => ends
termination_by (c.size, 2)

end

/-- **All declarations**, by recursion on the tokens that are left. -/
theorem declarations_accepts (c : Cursor) {w : List Token} {reports : List Report}
    (start : c.At w reports) (derives : Derives (.many (.rule .declaration)) w) :
    (declarations eof c).2.At [] reports := by
  rw [declarations]
  obtain rfl | ⟨u, v, first, others, rfl⟩ := derives_many.1 derives
  · rw [dif_pos start.rest]
    exact start
  · obtain ⟨t, u, rfl, -⟩ := declaration_beginsWith u first
    have nonempty : c.rest ≠ [] := by
      rw [start.rest]
      simp
    rw [dif_neg nonempty]
    have noElse : NotNext (· == .elseWord) v := by
      simpa using noElse_of_declarations others notNext_nil
    have hlt := (declaration eof c nonempty).2.2
    exact declarations_accepts _ (declaration_accepts eof c nonempty start first noElse) others
termination_by c.size

/-- Declarations are read up to the end of the input. -/
theorem rest_declarations (c : Cursor) : (declarations eof c).2.rest = [] := by
  rw [declarations]
  split
  · assumption
  · next nonempty =>
    have hlt := (declaration eof c nonempty).2.2
    exact rest_declarations (declaration eof c nonempty).2.1
termination_by c.size

end Grammar

/-! ## Programs -/

/-- The tokens that are read are those in front of the end of the input. -/
theorem takeWhile_append_eof {word : List Token} {eof : Token}
    (noEof : ∀ t ∈ word, t.kind ≠ .eof) (isEof : eof.kind = .eof) :
    (word ++ [eof]).takeWhile (·.kind != .eof) = word := by
  have all : ∀ t ∈ word, (t.kind != .eof) = true := fun t mem => bne_iff_ne.2 (noEof t mem)
  rw [List.takeWhile_append_of_pos all, List.takeWhile_cons_of_neg (by simp [isEof]),
    List.append_nil]

/-- A program is derivable if its declarations are. -/
theorem derives_program_iff {word : List Token} {eof : Token} (isEof : eof.kind = .eof) :
    Derives (.rule .program) (word ++ [eof]) ↔ Derives (.many (.rule .declaration)) word := by
  rw [derives_rule, production, derives_seq_cons]
  constructor
  · rintro ⟨u, v, declarations, closing, heq⟩
    obtain ⟨t, -, rfl⟩ := derives_token.1 (derives_seq_single.1 closing)
    obtain ⟨rfl, -⟩ := List.append_inj' heq rfl
    exact declarations
  · intro declarations
    exact ⟨word, [eof], declarations, derives_seq_single.2 (.token isEof), rfl⟩

/-- **The parser accepts exactly the grammar**: a sequence of tokens with the end of
the input behind it is parsed without a report if and only if it is derivable. -/
theorem reports_parse_eq_nil_iff_derives (word : List Token) (eof : Token) (firstId : Nat)
    (noEof : ∀ t ∈ word, t.kind ≠ .eof) (isEof : eof.kind = .eof) :
    (parse (word ++ [eof]) firstId).reports = [] ↔
      Derives (.rule .program) (word ++ [eof]) := by
  rw [derives_program_iff isEof]
  simp only [parse, takeWhile_append_eof noEof isEof, List.reverse_eq_nil_iff]
  constructor
  · intro quiet
    -- Nothing was reported, so nothing was skipped, and all that was read is derivable.
    have read := Grammar.declarations_spec (endToken (word ++ [eof])) ⟨word, firstId, []⟩
    obtain ⟨w, derives, heq⟩ := read.spans quiet
    rw [Grammar.rest_declarations, List.append_nil] at heq
    obtain rfl : word = w := heq
    exact derives
  · intro derives
    exact (Grammar.declarations_accepts (endToken (word ++ [eof])) ⟨word, firstId, []⟩ ⟨rfl, rfl⟩
      derives).reports

/-- The tokens of `if (a) if (b) f(1, c ? x = 2 : -d); else print nil;`, whose `else`
could be derived with either `if`. -/
def nestedElse : List Token :=
  [.onLine 1 .ifWord "if", .onLine 1 .leftParen "(", .onLine 1 .identifier "a",
    .onLine 1 .rightParen ")", .onLine 1 .ifWord "if", .onLine 1 .leftParen "(",
    .onLine 1 .identifier "b", .onLine 1 .rightParen ")", .onLine 1 .identifier "f",
    .onLine 1 .leftParen "(", .onLine 1 .number "1", .onLine 1 .comma ",",
    .onLine 1 .identifier "c", .onLine 1 .question "?", .onLine 1 .identifier "x",
    .onLine 1 .equal "=", .onLine 1 .number "2", .onLine 1 .colon ":", .onLine 1 .minus "-",
    .onLine 1 .identifier "d", .onLine 1 .rightParen ")", .onLine 1 .semicolon ";",
    .onLine 1 .elseWord "else", .onLine 1 .printWord "print", .onLine 1 .nilWord "nil",
    .onLine 1 .semicolon ";"]

theorem reports_parse_eq_nil_iff_derives_nested_else :
    (∀ t ∈ nestedElse, t.kind ≠ .eof) ∧ (Token.endOfInput 1).kind = .eof ∧
      Derives (.rule .program) (nestedElse ++ [.endOfInput 1]) := by
  have noEof : ∀ t ∈ nestedElse, t.kind ≠ .eof := by decide
  have accepted : (parse (nestedElse ++ [.endOfInput 1]) 0).reports = [] := by cbv
  exact ⟨noEof, rfl, (reports_parse_eq_nil_iff_derives nestedElse (.endOfInput 1) 0 noEof rfl).1
    accepted⟩

end Kix
