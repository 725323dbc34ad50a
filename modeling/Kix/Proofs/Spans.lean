import Kix.Proofs.Derivations
import Kix.Proofs.StatementReading

/-!
# What is read without a report is derivable

`Spans e c c'` says that the tokens between two cursors are derived from `e`. By
induction on the rules of reading, a phrase or a passage that was read without a
report spans its part of the grammar (`Reads.spans`, `ReadsStatements.spans`).

The rules that read something underivable all make a report: an assignment to
something other than a name, an entry too many in a list, a declaration that was
skipped.
-/

namespace Kix

/-- **The tokens between two cursors are derived** from a right side. -/
def Spans (e : Ebnf) (c c' : Cursor) : Prop :=
  ∃ w, Derives e w ∧ c.rest = w ++ c'.rest

namespace Spans

variable {c c₁ c' : Cursor} {e : Ebnf} {parts choices : List Ebnf} {kind : Kind} {t : Token}

/-- A token of the kind. -/
theorem token (sign : t.kind = kind) : Spans (.token kind) (c.push t) c :=
  ⟨[t], .token sign, rfl⟩

theorem rule (name : Nonterminal) (h : Spans (production name) c c') :
    Spans (.rule name) c c' := by
  obtain ⟨w, derives, heq⟩ := h
  exact ⟨w, .rule derives, heq⟩

theorem nil : Spans (.seq []) c c := ⟨[], .nil, rfl⟩

/-- Parts one after the other. -/
theorem cons (h : Spans e c c₁) (h' : Spans (.seq parts) c₁ c') :
    Spans (.seq (e :: parts)) c c' := by
  obtain ⟨u, first, hu⟩ := h
  obtain ⟨v, others, hv⟩ := h'
  exact ⟨u ++ v, .cons first others, by rw [hu, hv, List.append_assoc]⟩

/-- A sequence behind another one. -/
theorem append {others : List Ebnf} (h : Spans (.seq parts) c c₁)
    (h' : Spans (.seq others) c₁ c') : Spans (.seq (parts ++ others)) c c' := by
  obtain ⟨u, before, hu⟩ := h
  obtain ⟨v, behind, hv⟩ := h'
  exact ⟨u ++ v, (derives_seq_append parts others).2 ⟨u, v, before, behind, rfl⟩,
    by rw [hu, hv, List.append_assoc]⟩

/-- One of the alternatives. -/
theorem choice (mem : e ∈ choices) (h : Spans e c c') : Spans (.oneOf choices) c c' := by
  obtain ⟨w, derives, heq⟩ := h
  exact ⟨w, .choice mem derives, heq⟩

theorem absent : Spans (.optional e) c c := ⟨[], .absent, rfl⟩

theorem present (h : Spans e c c') : Spans (.optional e) c c' := by
  obtain ⟨w, derives, heq⟩ := h
  exact ⟨w, .present derives, heq⟩

theorem none : Spans (.many e) c c := ⟨[], .none, rfl⟩

/-- Once, and then any number of times. -/
theorem more (h : Spans e c c₁) (h' : Spans (.many e) c₁ c') : Spans (.many e) c c' := by
  obtain ⟨u, first, hu⟩ := h
  obtain ⟨v, others, hv⟩ := h'
  exact ⟨u ++ v, .more first others, by rw [hu, hv, List.append_assoc]⟩

theorem stop {limit : Nat} : Spans (.atMost limit e) c c := ⟨[], .stop, rfl⟩

/-- Only the tokens count. -/
theorem congr {d d' : Cursor} (h : Spans e c c') (heq : d.rest = c.rest)
    (heq' : d'.rest = c'.rest) : Spans e d d' := by
  obtain ⟨w, derives, hw⟩ := h
  exact ⟨w, derives, by rw [heq, heq', hw]⟩

end Spans

/-! ## Lists of parameters and arguments -/

namespace Ebnf

/-- A list of entries with commas between them, up to the closing parenthesis. -/
def closedList (entry : Ebnf) (limit : Nat) : Ebnf :=
  seq [entry, atMost limit (seq [token .comma, entry]), token .rightParen]

/-- A list begins as its entries do. -/
theorem BeginsWith.closedList {entry : Ebnf} {limit : Nat} {begins : Kind → Bool}
    (h : entry.BeginsWith begins) : (closedList entry limit).BeginsWith begins :=
  h.seq

end Ebnf

/-- A list that may be missing, with the parenthesis that closes it. -/
theorem derives_optional_list {name : Nonterminal} {entry : Ebnf} {limit : Nat} {w : List Token}
    (list : production name = .seq [entry, .atMost limit (.seq [.token .comma, entry])]) :
    Derives (.seq [.optional (.rule name), .token .rightParen]) w ↔
      (∃ paren, paren.kind = .rightParen ∧ w = [paren]) ∨ Derives (.closedList entry limit) w := by
  have regroup : Derives (.closedList entry limit) w ↔
      ∃ u v, Derives (.rule name) u ∧ Derives (.seq [.token .rightParen]) v ∧ w = u ++ v := by
    simp only [derives_rule, list]
    exact derives_seq_append [_, _] [_]
  rw [regroup, derives_seq_cons]
  constructor
  · rintro ⟨u, v, first, closing, rfl⟩
    obtain rfl | first := derives_optional.1 first
    · exact .inl (derives_token.1 (derives_seq_single.1 closing))
    · exact .inr ⟨u, v, first, closing, rfl⟩
  · rintro (⟨paren, sign, rfl⟩ | ⟨u, v, first, closing, rfl⟩)
    · exact ⟨[], [paren], .absent, derives_seq_single.2 (.token sign), rfl⟩
    · exact ⟨u, v, .present first, closing, rfl⟩

namespace Spans

variable {c c₁ c' : Cursor} {e : Ebnf} {limit : Nat} {t : Token}

/-- An entry with the parenthesis behind it closes the list. -/
theorem lastEntry (h : Spans e c (c'.push t)) (sign : t.kind = .rightParen) :
    Spans (.closedList e limit) c c' :=
  .cons h (.cons .stop (.cons (.token sign) .nil))

/-- One more entry in front of a list. -/
theorem entry (h : Spans e c (c₁.push t)) (sign : t.kind = .comma)
    (h' : Spans (.closedList e limit) c₁ c') : Spans (.closedList e (limit + 1)) c c' := by
  obtain ⟨w, first, hw⟩ := h
  obtain ⟨_, list, hlist⟩ := h'
  obtain ⟨u, _, second, behind, rfl⟩ := derives_seq_cons.1 list
  obtain ⟨v, closing, others, closed, rfl⟩ := derives_seq_cons.1 behind
  have separated : Derives (.seq [.token .comma, e]) (t :: u) :=
    derives_seq_token.2 ⟨t, u, sign, derives_seq_single.2 second, rfl⟩
  refine ⟨w ++ ((t :: u ++ v) ++ closing), .cons first (.cons (.again separated others) closed), ?_⟩
  simp [hw, hlist]

end Spans

/-! ## Expressions -/

/-- What a phrase that gives a name consists of: the name alone, or nothing behind
a name that was read before. -/
def Phrase.OnlyName (i : Nat) (name : Token) (c c' : Cursor) : Phrase → Prop
  | .moreOperators _ _ left | .moreCalls left => left = .var i name ∧ c'.rest = c.rest
  | .arguments _ | .someArguments _ _ => False
  | _ => Spans (.token .identifier) c c'

/-- An assignment's target is a name only if nothing else was read. -/
theorem Reads.onlyName {eof : Token} {p : Phrase} {c c' : Cursor} {e : Expr} {i : Nat}
    {name : Token} (h : Reads eof p c e c') (isName : e = .var i name) :
    p.OnlyName i name c c' := by
  induction h with
  | value _ _ ih | condition _ _ ih | operand _ ih | noUnary _ _ ih => exact ih isName
  | assign | conditional | unary | noArguments | lastArgument | literal | group => cases isName
  | badTarget _ _ _ bad => exact absurd isName (bad i name)
  | operators _ _ ih ih' | call _ _ ih ih' =>
    obtain ⟨isLeft, same⟩ := ih' isName
    exact (show Spans _ _ _ from ih isLeft).congr rfl same
  | noOperator | noCall => exact ⟨isName, rfl⟩
  | @operator tier _ _ _ _ _ _ _ _ _ _ _ _ ih =>
    obtain ⟨joined, -⟩ := ih isName
    cases tier <;> cases joined
  | moreCalls _ _ _ ih ih' => exact (ih (ih' isName).1).elim
  | arguments _ _ ih => exact ih isName
  | argument _ _ _ _ ih => exact ih isName
  | name sign => exact .token sign

open Ebnf in
/-- The part of the grammar that a phrase is an instance of. -/
def Phrase.ebnf : Phrase → Ebnf
  | .expression => rule .expression
  | .conditional => rule .ternary
  | .operators tiers => operands tiers
  | .moreOperators tier tighter _ => many (seq [tier.operator, operands tighter])
  | .unary => rule .unary
  | .call => rule .call
  | .moreCalls _ => many (seq [token .leftParen, optional (rule .arguments), token .rightParen])
  | .arguments _ => seq [optional (rule .arguments), token .rightParen]
  | .someArguments _ given =>
    closedList (rule .expression) (longestList - 1 - given.length)
  | .primary => rule .primary

/-- The tiers that occur in a phrase are the tightest ones. -/
def Phrase.Tiered : Phrase → Prop
  | .operators tiers => tiers <:+ Tier.all
  | .moreOperators tier tighter _ => tier :: tighter <:+ Tier.all
  | _ => True

/-- A count that is not reported is within the bound. -/
theorem Cursor.lt_of_checkCount {c : Cursor} {eof : Token} {count : Nat} {p : Problem}
    (h : (c.checkCount eof count p).reports = c.reports) : count < longestList := by
  unfold Cursor.checkCount at h
  split at h
  · exact absurd h (List.cons_ne_self _ _)
  · next few => exact Nat.lt_of_not_le few

/-- Behind an entry that leaves room for the next one, the bound is one less. -/
theorem longestList_sub_length {α : Type} {given : List α} {x : α}
    (room : (given ++ [x]).length < longestList) :
    longestList - 1 - given.length = longestList - 1 - (given ++ [x]).length + 1 := by
  rw [List.length_append, List.length_singleton] at room ⊢
  omega

/-- Arguments that are read without a report are few enough. -/
theorem Reads.lt_longestList {eof : Token} {callee e : Expr} {given : List Expr}
    {c c' : Cursor} (h : Reads eof (.someArguments callee given) c e c')
    (quiet : c'.reports = c.reports) : given.length < longestList := by
  have counted := Cursor.Advances.checkCount c eof given.length .tooManyArguments
  cases h with
  | lastArgument first _ =>
    exact Cursor.lt_of_checkCount (counted.reports_eq first.advances.past quiet).1
  | argument first _ more =>
    exact Cursor.lt_of_checkCount
      (counted.reports_eq (first.advances.past.trans more.advances) quiet).1

/-- **A phrase that was read without a report is derivable.** -/
theorem Reads.spans {eof : Token} {p : Phrase} {c c' : Cursor} {e : Expr}
    (h : Reads eof p c e c') (tiered : p.Tiered) (quiet : c'.reports = c.reports) :
    Spans p.ebnf c c' := by
  induction h with
  | value _ _ ih =>
    exact .rule .expression (.rule .assignment (.choice (by simp [Phrase.ebnf]) (ih trivial quiet)))
  | assign target sign source _ ih =>
    obtain ⟨-, quiet'⟩ := target.advances.past.reports_eq source.advances quiet
    -- What was read as a condition and gave a name is one token.
    have name : Spans (.token .identifier) _ _ := target.onlyName rfl
    obtain ⟨w, value, heq⟩ := ih trivial quiet'
    have value : Spans (.rule .assignment) _ _ := ⟨w, derives_rule.1 value, heq⟩
    exact .rule .expression (.rule .assignment (.choice List.mem_cons_self
      (.cons name (.cons (.token sign) (.cons value .nil)))))
  | badTarget first _ source =>
    have moved := first.advances.past.trans source.advances
    exact absurd quiet (Cursor.Fails.after moved (.complain _ _ _)).reported
  | condition _ _ ih =>
    exact .rule .ternary (.cons (ih (List.suffix_refl _) quiet) (.cons .absent .nil))
  | conditional first sign second sign' third ih ih' ih'' =>
    obtain ⟨quiet₁, quiet⟩ := first.advances.past.reports_eq
      (second.advances.past.trans third.advances) quiet
    obtain ⟨quiet₂, quiet₃⟩ := second.advances.past.reports_eq third.advances quiet
    have branches := Spans.present (.cons (.token sign) (.cons (ih' trivial quiet₂)
      (.cons (.token sign') (.cons (ih'' trivial quiet₃) .nil))))
    exact .rule .ternary (.cons (ih (List.suffix_refl _) quiet₁) (.cons branches .nil))
  | operand _ ih => exact ih trivial quiet
  | operators first more ih ih' =>
    obtain ⟨quiet₁, quiet₂⟩ := first.advances.reports_eq more.advances quiet
    have left := ih ((List.suffix_cons _ _).trans tiered) quiet₁
    refine .rule _ ?_
    rw [production_tier tiered]
    exact .cons left (.cons (ih' tiered quiet₂) .nil)
  | noOperator | noCall => exact .none
  | @operator tier _ _ operator _ c _ _ _ sign first more ih ih' =>
    obtain ⟨quiet₁, quiet₂⟩ := first.advances.reports_eq more.advances quiet
    have right := ih ((List.suffix_cons _ _).trans tiered) quiet₁
    have operator : Spans tier.operator (c.push operator) c :=
      ⟨[operator], Tier.derives_operator.2 ⟨operator, sign, rfl⟩, rfl⟩
    exact .more (.cons operator (.cons right .nil)) (ih' tiered quiet₂)
  | @unary operator _ c _ sign _ ih =>
    have operator : Spans (.oneOf [.token .bang, .token .minus]) (c.push operator) c :=
      ⟨[operator], derives_unaryOperator.2 ⟨operator, sign, rfl⟩, rfl⟩
    exact .rule .unary (.choice List.mem_cons_self
      (.cons operator (.cons (ih trivial quiet) .nil)))
  | noUnary _ _ ih => exact .rule .unary (.choice (by simp [Phrase.ebnf]) (ih trivial quiet))
  | call first more ih ih' =>
    obtain ⟨quiet₁, quiet₂⟩ := first.advances.reports_eq more.advances quiet
    exact .rule .call (.cons (ih trivial quiet₁) (.cons (ih' trivial quiet₂) .nil))
  | moreCalls sign first more ih ih' =>
    obtain ⟨quiet₁, quiet₂⟩ := first.advances.reports_eq more.advances quiet
    exact .more (.cons (.token sign) (ih trivial quiet₁)) (ih' trivial quiet₂)
  | noArguments sign => exact .cons .absent (.cons (.token sign) .nil)
  | arguments _ _ ih =>
    obtain ⟨w, list, heq⟩ := ih trivial quiet
    exact ⟨w, (derives_optional_list rfl).2 (.inr list), heq⟩
  | @lastArgument _ given c _ _ _ first sign ih =>
    have counted := Cursor.Advances.checkCount c eof given.length .tooManyArguments
    obtain ⟨-, quiet⟩ := counted.reports_eq first.advances.past quiet
    have last := (ih trivial quiet).congr (Cursor.rest_checkCount c eof _ _).symm rfl
    exact last.lastEntry sign
  | @argument _ given c _ _ e _ _ first sign more ih ih' =>
    have counted := Cursor.Advances.checkCount c eof given.length .tooManyArguments
    obtain ⟨-, quiet⟩ := counted.reports_eq (first.advances.past.trans more.advances) quiet
    obtain ⟨quiet₁, quiet₂⟩ := first.advances.past.reports_eq more.advances quiet
    have next := (ih trivial quiet₁).congr (Cursor.rest_checkCount c eof _ _).symm rfl
    -- The entry behind this one was within the bound, so this one leaves room for it.
    have room := more.lt_longestList quiet₂
    show Spans (.closedList _ (longestList - 1 - given.length)) _ _
    rw [longestList_sub_length room]
    exact next.entry sign (ih' trivial quiet₂)
  | literal denoted =>
    unfold Token.denotes? at denoted
    split at denoted
    case h_6 => cases denoted
    all_goals
      next sign => exact .rule .primary (.choice (by simp) (.token sign))
  | name sign => exact .rule .primary (.choice (by simp) (.token sign))
  | group sign _ sign' ih =>
    exact .rule .primary (.choice (by simp [Phrase.ebnf])
      (.cons (.token sign) (.cons (ih trivial quiet) (.cons (.token sign') .nil))))

/-! ## Statements -/

/-- An expression that may be missing, and the token behind it. -/
theorem ReadsOptional.spans {eof : Token} {closing : Kind} {c c' : Cursor}
    {value : Option Expr} (h : ReadsOptional eof closing c value c')
    (quiet : c'.reports = c.reports) :
    Spans (.seq [.optional (.rule .expression), .token closing]) c c' := by
  match value, h with
  | none, ⟨t, sign, heq⟩ =>
    subst heq
    exact .cons .absent (.cons (.token sign) .nil)
  | some e, ⟨t, sign, read⟩ =>
    exact .cons (.present (read.spans trivial quiet)) (.cons (.token sign) .nil)

section Parameters

variable {eof name : Token} {count : Nat} {c c' : Cursor}

/-- A parameter was counted and read without a report. -/
theorem lt_longestList_of_parameter
    (first : c.checkCount eof count .tooManyParameters = c'.push name)
    (quiet : c'.reports = c.reports) : count < longestList := by
  have counted : (c.checkCount eof count .tooManyParameters).reports = c.reports := by
    rw [first]
    exact quiet
  exact Cursor.lt_of_checkCount counted

/-- A parameter that is counted and not reported is a name. -/
theorem spans_parameter (first : c.checkCount eof count .tooManyParameters = c'.push name)
    (sign : name.kind = .identifier) : Spans (.token .identifier) c c' := by
  have same : c.rest = (c'.push name).rest := by
    rw [← first, Cursor.rest_checkCount]
  exact (Spans.token sign).congr same rfl

end Parameters

/-- Parameters that are read without a report are few enough, and derivable if
there are any. -/
theorem ReadsParameters.spans {eof : Token} {given all : List Token} {c c' : Cursor}
    (h : ReadsParameters eof given c all c') (quiet : c'.reports = c.reports) :
    (given = [] ∧ Spans (.token .rightParen) c c') ∨
      (given.length < longestList ∧
        Spans (.closedList (.token .identifier) (longestList - 1 - given.length)) c c') := by
  induction h with
  | none sign => exact .inl ⟨rfl, .token sign⟩
  | last first sign sign' =>
    have entry := spans_parameter first sign
    exact .inr ⟨lt_longestList_of_parameter first quiet, entry.lastEntry sign'⟩
  | @more given all c c₂ c' name comma first sign sign' others ih =>
    have moved := Cursor.Advances.checkCount c eof given.length .tooManyParameters
    rw [first] at moved
    obtain ⟨quiet₁, quiet₂⟩ := moved.past.past.reports_eq others.advances quiet
    obtain ⟨empty, -⟩ | ⟨room, list⟩ := ih quiet₂
    · exact absurd empty (by simp)
    · refine .inr ⟨lt_longestList_of_parameter first quiet₁, ?_⟩
      rw [longestList_sub_length room]
      exact (spans_parameter first sign).entry sign' list

open Ebnf in
/-- The part of the grammar that a passage is an instance of. -/
def Passage.ebnf : Passage → Ebnf
  | .declarations => many (rule .declaration)
  | .declaration => rule .declaration
  | .statement => rule .statement
  | .block => seq [many (rule .declaration), token .rightBrace]
  | .variableTail =>
    seq [token .identifier, optional (seq [token .equal, rule .expression]), token .semicolon]
  | .initializer => oneOf [rule .varDecl, rule .exprStmt, token .semicolon]

/-- **A passage that was read without a report is derivable.** -/
theorem ReadsStatements.spans {eof : Token} {p : Passage} {c c' : Cursor} {ss : List Stmt}
    (h : ReadsStatements eof p c ss c') (quiet : c'.reports = c.reports) :
    Spans p.ebnf c c' := by
  induction h with
  | done => exact .none
  | next first others ih ih' =>
    obtain ⟨quiet₁, quiet₂⟩ := first.advances.reports_eq others.advances quiet
    exact .more (ih quiet₁) (ih' quiet₂)
  | @function c c₁ _ _ _ _ brace _ _ kind sign sign₁ list sign₂ inner ih =>
    obtain ⟨quiet₁, quiet₂⟩ := list.advances.past.reports_eq inner.advances quiet
    have params : Spans (.seq [.optional (.rule .parameters), .token .rightParen]) c
        (c₁.push brace) := by
      obtain ⟨-, w, paren, heq⟩ | ⟨-, w, params, heq⟩ := list.spans quiet₁
      · exact ⟨w, (derives_optional_list rfl).2 (.inl (derives_token.1 paren)), heq⟩
      · exact ⟨w, (derives_optional_list rfl).2 (.inr params), heq⟩
    have body := Spans.rule .block (.cons (.token sign₂) (ih quiet₂))
    have function := Spans.rule .funDecl (.cons (.token kind) (.cons (.token sign)
      (.cons (.token sign₁) (params.append (.cons body .nil)))))
    exact .rule .declaration (.choice (by simp) function)
  | variableDeclaration kind _ ih =>
    exact .rule .declaration (.choice (by simp) (.rule .varDecl (.cons (.token kind) (ih quiet))))
  | statement _ ih => exact .rule .declaration (.choice (by simp [Passage.ebnf]) (ih quiet))
  | skipped failed => exact absurd quiet failed.reported
  | uninitialized sign sign' =>
    exact .cons (.token sign) (.cons .absent (.cons (.token sign') .nil))
  | initialized sign sign₁ value sign₂ =>
    have value := Spans.present (.cons (.token sign₁) (.cons (value.spans trivial quiet) .nil))
    exact .cons (.token sign) (.cons value (.cons (.token sign₂) .nil))
  | noInitializer sign => exact .choice (by simp) (.token sign)
  | variableInitializer kind _ ih =>
    exact .choice (by simp) (.rule .varDecl (.cons (.token kind) (ih quiet)))
  | expressionInitializer value sign =>
    have value := value.spans trivial quiet
    exact .choice (by simp) (.rule .exprStmt (.cons value (.cons (.token sign) .nil)))
  | expression value sign =>
    have value := value.spans trivial quiet
    exact .rule .statement (.choice (by simp)
      (.rule .exprStmt (.cons value (.cons (.token sign) .nil))))
  | print kind value sign =>
    have value := value.spans trivial quiet
    exact .rule .statement (.choice (by simp)
      (.rule .printStmt (.cons (.token kind) (.cons value (.cons (.token sign) .nil)))))
  | ret kind result =>
    exact .rule .statement (.choice (by simp)
      (.rule .returnStmt (.cons (.token kind) (result.spans quiet))))
  | loop kind sign condition sign' body ih =>
    obtain ⟨quiet₁, quiet₂⟩ := condition.advances.past.reports_eq body.advances quiet
    have condition := condition.spans trivial quiet₁
    have loop := Spans.rule .whileStmt (.cons (.token kind) (.cons (.token sign)
      (.cons condition (.cons (.token sign') (.cons (ih quiet₂) .nil)))))
    exact .rule .statement (.choice (by simp) loop)
  | branch kind sign condition sign' thenBranch _ ih =>
    obtain ⟨quiet₁, quiet₂⟩ := condition.advances.past.reports_eq thenBranch.advances quiet
    have condition := condition.spans trivial quiet₁
    have branch := Spans.rule .ifStmt (.cons (.token kind) (.cons (.token sign)
      (.cons condition (.cons (.token sign') (.cons (ih quiet₂) (.cons .absent .nil))))))
    exact .rule .statement (.choice (by simp) branch)
  | branchElse kind sign condition sign' thenBranch kind' elseBranch ih ih' =>
    obtain ⟨quiet₁, quiet⟩ := condition.advances.past.reports_eq
      (thenBranch.advances.past.trans elseBranch.advances) quiet
    obtain ⟨quiet₂, quiet₃⟩ := thenBranch.advances.past.reports_eq elseBranch.advances quiet
    have condition := condition.spans trivial quiet₁
    have elseBranch := Spans.present (.cons (.token kind') (.cons (ih' quiet₃) .nil))
    have branch := Spans.rule .ifStmt (.cons (.token kind) (.cons (.token sign)
      (.cons condition (.cons (.token sign') (.cons (ih quiet₂) (.cons elseBranch .nil))))))
    exact .rule .statement (.choice (by simp) branch)
  | forLoop kind sign first second third inner ih ih' =>
    obtain ⟨quiet₁, quiet⟩ := first.advances.reports_eq
      (second.advances.trans (third.advances.trans inner.advances)) quiet
    obtain ⟨quiet₂, quiet⟩ := second.advances.reports_eq
      (third.advances.trans inner.advances) quiet
    obtain ⟨quiet₃, quiet₄⟩ := third.advances.reports_eq inner.advances quiet
    have clauses := (second.spans quiet₂).append
      ((third.spans quiet₃).append (.cons (ih' quiet₄) .nil))
    have loop := Spans.rule .forStmt
      (.cons (.token kind) (.cons (.token sign) (.cons (ih quiet₁) clauses)))
    exact .rule .statement (.choice (by simp) loop)
  | block kind _ ih =>
    exact .rule .statement (.choice (by simp) (.rule .block (.cons (.token kind) (ih quiet))))
  | blockEnd kind => exact .cons .none (.cons (.token kind) .nil)
  | blockNext _ first others ih ih' =>
    obtain ⟨quiet₁, quiet₂⟩ := first.advances.reports_eq others.advances quiet
    -- The first declaration joins the others in front of the brace.
    obtain ⟨w, inner, heq⟩ := ih' quiet₂
    obtain ⟨u, v, rest, brace, rfl⟩ := derives_seq_cons.1 inner
    obtain ⟨w', first, heq'⟩ := ih quiet₁
    exact ⟨w' ++ u ++ v, .cons (.more first rest) brace, by simp [heq, heq']⟩

end Kix
