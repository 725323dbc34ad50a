import Kix.Syntax.ExpressionGrammar

/-!
# The grammar as a set of productions

The grammar of the language, written as productions over token kinds, and what
it means for a sequence of tokens to be derivable from them. Nothing here knows
of readers: `production` is the grammar as a reference manual prints it, and
`Derives` is the usual meaning of its notation.

Two lists are bounded in length, the parameters of a function and the arguments
of a call: `atMost` is a repetition that says how often it may be used.

The grammar is ambiguous in one place, the `else` behind nested `if` statements.
`Nesting` sorts the derivations of a statement by whether an `else` behind it
would belong to it, and `exists_nesting` says that one in which every `else`
belongs to the nearest `if` always exists.
-/

namespace Kix

/-- The names of the productions. -/
inductive Nonterminal where
  | program | declaration | funDecl | varDecl
  | statement | exprStmt | forStmt | ifStmt | printStmt | returnStmt | whileStmt | block
  | parameters
  | expression | assignment | ternary | logicOr | logicAnd | equality | comparison | term
  | factor | unary | call | arguments | primary
  deriving DecidableEq, Repr

/-- **The right side of a production**: a token, another production, parts one
after the other, alternatives, `e?`, `e*`, and `e*` used at most so many times. -/
inductive Ebnf where
  | token (kind : Kind)
  | rule (name : Nonterminal)
  | seq (parts : List Ebnf)
  | oneOf (choices : List Ebnf)
  | optional (e : Ebnf)
  | many (e : Ebnf)
  | atMost (limit : Nat) (e : Ebnf)

/-- The longest list of parameters or arguments that can be derived. -/
def longestList : Nat := 255

open Ebnf in
/-- **The grammar.** A list of parameters or arguments has a first entry and at
most 254 further ones. -/
def production : Nonterminal → Ebnf
  | .program => seq [many (rule .declaration), token .eof]
  | .declaration => oneOf [rule .funDecl, rule .varDecl, rule .statement]
  | .funDecl =>
    seq [token .funWord, token .identifier, token .leftParen, optional (rule .parameters),
      token .rightParen, rule .block]
  | .varDecl =>
    seq [token .varWord, token .identifier, optional (seq [token .equal, rule .expression]),
      token .semicolon]
  | .statement =>
    oneOf [rule .exprStmt, rule .forStmt, rule .ifStmt, rule .printStmt, rule .returnStmt,
      rule .whileStmt, rule .block]
  | .exprStmt => seq [rule .expression, token .semicolon]
  | .forStmt =>
    seq [token .forWord, token .leftParen,
      oneOf [rule .varDecl, rule .exprStmt, token .semicolon],
      optional (rule .expression), token .semicolon,
      optional (rule .expression), token .rightParen, rule .statement]
  | .ifStmt =>
    seq [token .ifWord, token .leftParen, rule .expression, token .rightParen, rule .statement,
      optional (seq [token .elseWord, rule .statement])]
  | .printStmt => seq [token .printWord, rule .expression, token .semicolon]
  | .returnStmt => seq [token .returnWord, optional (rule .expression), token .semicolon]
  | .whileStmt =>
    seq [token .whileWord, token .leftParen, rule .expression, token .rightParen, rule .statement]
  | .block => seq [token .leftBrace, many (rule .declaration), token .rightBrace]
  | .parameters =>
    seq [token .identifier, atMost (longestList - 1) (seq [token .comma, token .identifier])]
  | .expression => rule .assignment
  | .assignment =>
    oneOf [seq [token .identifier, token .equal, rule .assignment], rule .ternary]
  | .ternary =>
    seq [rule .logicOr,
      optional (seq [token .question, rule .expression, token .colon, rule .expression])]
  | .logicOr => seq [rule .logicAnd, many (seq [token .orWord, rule .logicAnd])]
  | .logicAnd => seq [rule .equality, many (seq [token .andWord, rule .equality])]
  | .equality =>
    seq [rule .comparison,
      many (seq [oneOf [token .bangEqual, token .equalEqual], rule .comparison])]
  | .comparison =>
    seq [rule .term,
      many (seq [oneOf [token .greater, token .greaterEqual, token .less, token .lessEqual],
        rule .term])]
  | .term => seq [rule .factor, many (seq [oneOf [token .minus, token .plus], rule .factor])]
  | .factor => seq [rule .unary, many (seq [oneOf [token .slash, token .star], rule .unary])]
  | .unary => oneOf [seq [oneOf [token .bang, token .minus], rule .unary], rule .call]
  | .call =>
    seq [rule .primary,
      many (seq [token .leftParen, optional (rule .arguments), token .rightParen])]
  | .arguments =>
    seq [rule .expression, atMost (longestList - 1) (seq [token .comma, rule .expression])]
  | .primary =>
    oneOf [token .number, token .string, token .trueWord, token .falseWord, token .nilWord,
      token .identifier, seq [token .leftParen, rule .expression, token .rightParen]]

/-- **Derivability**: the sequences of tokens that a right side stands for. -/
inductive Derives : Ebnf → List Token → Prop where
  | token {kind : Kind} {t : Token} (sign : t.kind = kind) : Derives (.token kind) [t]
  | rule {name : Nonterminal} {w : List Token} (body : Derives (production name) w) :
      Derives (.rule name) w
  | nil : Derives (.seq []) []
  | cons {e : Ebnf} {parts : List Ebnf} {u v : List Token} (first : Derives e u)
      (others : Derives (.seq parts) v) : Derives (.seq (e :: parts)) (u ++ v)
  | choice {e : Ebnf} {choices : List Ebnf} {w : List Token} (mem : e ∈ choices)
      (chosen : Derives e w) : Derives (.oneOf choices) w
  | absent {e : Ebnf} : Derives (.optional e) []
  | present {e : Ebnf} {w : List Token} (inner : Derives e w) : Derives (.optional e) w
  | none {e : Ebnf} : Derives (.many e) []
  | more {e : Ebnf} {u v : List Token} (first : Derives e u) (others : Derives (.many e) v) :
      Derives (.many e) (u ++ v)
  | stop {limit : Nat} {e : Ebnf} : Derives (.atMost limit e) []
  | again {limit : Nat} {e : Ebnf} {u v : List Token} (first : Derives e u)
      (others : Derives (.atMost limit e) v) : Derives (.atMost (limit + 1) e) (u ++ v)

/-! ## Taking derivations apart -/

section Inversion

variable {name : Nonterminal} {e : Ebnf} {parts choices : List Ebnf} {kind : Kind}
  {limit : Nat} {w : List Token}

theorem derives_rule : Derives (.rule name) w ↔ Derives (production name) w := by
  constructor
  · intro h
    cases h with
    | rule body => exact body
  · exact .rule

@[simp] theorem derives_token : Derives (.token kind) w ↔ ∃ t, t.kind = kind ∧ w = [t] := by
  constructor
  · intro h
    cases h with
    | token sign => exact ⟨_, sign, rfl⟩
  · rintro ⟨t, sign, rfl⟩
    exact .token sign

@[simp] theorem derives_seq_nil : Derives (.seq []) w ↔ w = [] := by
  constructor
  · intro h
    cases h with
    | nil => rfl
  · rintro rfl
    exact .nil

/-- A sequence is derived part by part. -/
theorem derives_seq_cons :
    Derives (.seq (e :: parts)) w ↔
      ∃ u v, Derives e u ∧ Derives (.seq parts) v ∧ w = u ++ v := by
  constructor
  · intro h
    cases h with
    | cons first others => exact ⟨_, _, first, others, rfl⟩
  · rintro ⟨u, v, first, others, rfl⟩
    exact .cons first others

/-- A sequence that begins with a token. -/
theorem derives_seq_token :
    Derives (.seq (.token kind :: parts)) w ↔
      ∃ t v, t.kind = kind ∧ Derives (.seq parts) v ∧ w = t :: v := by
  rw [derives_seq_cons]
  constructor
  · rintro ⟨u, v, first, others, rfl⟩
    obtain ⟨t, sign, rfl⟩ := derives_token.1 first
    exact ⟨t, v, sign, others, rfl⟩
  · rintro ⟨t, v, sign, others, rfl⟩
    exact ⟨[t], v, .token sign, others, rfl⟩

/-- A sequence of one part. -/
@[simp] theorem derives_seq_single : Derives (.seq [e]) w ↔ Derives e w := by
  rw [derives_seq_cons]
  constructor
  · rintro ⟨u, v, first, others, rfl⟩
    rw [derives_seq_nil.1 others, List.append_nil]
    exact first
  · intro h
    exact ⟨w, [], h, .nil, (List.append_nil w).symm⟩

@[simp] theorem derives_oneOf : Derives (.oneOf choices) w ↔ ∃ e ∈ choices, Derives e w := by
  constructor
  · intro h
    cases h with
    | choice mem chosen => exact ⟨_, mem, chosen⟩
  · rintro ⟨e, mem, chosen⟩
    exact .choice mem chosen

@[simp] theorem derives_optional : Derives (.optional e) w ↔ w = [] ∨ Derives e w := by
  constructor
  · intro h
    cases h with
    | absent => exact .inl rfl
    | present inner => exact .inr inner
  · rintro (rfl | inner)
    · exact .absent
    · exact .present inner

/-- A repetition is empty, or something and then a repetition. -/
theorem derives_many :
    Derives (.many e) w ↔
      w = [] ∨ ∃ u v, Derives e u ∧ Derives (.many e) v ∧ w = u ++ v := by
  constructor
  · intro h
    cases h with
    | none => exact .inl rfl
    | more first others => exact .inr ⟨_, _, first, others, rfl⟩
  · rintro (rfl | ⟨u, v, first, others, rfl⟩)
    · exact .none
    · exact .more first others

/-- A bounded repetition is empty, or something and then one with a smaller bound. -/
theorem derives_atMost :
    Derives (.atMost limit e) w ↔
      w = [] ∨ ∃ less u v, limit = less + 1 ∧ Derives e u ∧ Derives (.atMost less e) v ∧
        w = u ++ v := by
  constructor
  · intro h
    cases h with
    | stop => exact .inl rfl
    | again first others => exact .inr ⟨_, _, _, rfl, first, others, rfl⟩
  · rintro (rfl | ⟨less, u, v, rfl, first, others, rfl⟩)
    · exact .stop
    · exact .again first others

end Inversion

/-! ## The tiers of operators -/

namespace Tier

/-- The production of a tier. -/
def name : Tier → Nonterminal
  | or => .logicOr
  | and => .logicAnd
  | equality => .equality
  | comparison => .comparison
  | term => .term
  | factor => .factor

open Ebnf in
/-- The operators of a tier, as its production lists them. -/
def operator : Tier → Ebnf
  | or => token .orWord
  | and => token .andWord
  | equality => oneOf [token .bangEqual, token .equalEqual]
  | comparison => oneOf [token .greater, token .greaterEqual, token .less, token .lessEqual]
  | term => oneOf [token .minus, token .plus]
  | factor => oneOf [token .slash, token .star]

/-- A production lists the operators that its tier accepts. -/
theorem derives_operator {tier : Tier} {w : List Token} :
    Derives tier.operator w ↔ ∃ t, tier.accepts t.kind = true ∧ w = [t] := by
  cases tier <;> simp only [operator, derives_oneOf, derives_token, List.mem_cons,
    List.not_mem_nil, or_false, exists_eq_or_imp, exists_eq_left] <;> grind [accepts]

/-- An operator belongs to one tier. -/
theorem eq_of_accepts {tier tier' : Tier} {kind : Kind} (h : tier.accepts kind = true)
    (h' : tier'.accepts kind = true) : tier = tier' := by
  unfold accepts at h
  split at h <;> cases tier' <;> simp_all [accepts]

end Tier

/-- The production of operands lists the operators in front of them. -/
theorem derives_unaryOperator {w : List Token} :
    Derives (.oneOf [.token .bang, .token .minus]) w ↔
      ∃ t, Grammar.isUnaryOperator t.kind = true ∧ w = [t] := by
  simp only [derives_oneOf, derives_token, List.mem_cons, List.not_mem_nil, or_false,
    exists_eq_or_imp, exists_eq_left, Grammar.isUnaryOperator, Bool.or_eq_true, beq_iff_eq]
  grind

/-- What the operators of the given tiers join: the production of the first tier,
or an operand if there is none. -/
def operands : List Tier → Ebnf
  | [] => .rule .unary
  | tier :: _ => .rule tier.name

/-- The six productions from `logicOr` to `factor` have one shape. -/
theorem production_tier {tier : Tier} {tighter : List Tier} (h : tier :: tighter <:+ Tier.all) :
    production tier.name =
      .seq [operands tighter, .many (.seq [tier.operator, operands tighter])] := by
  simp only [Tier.all, List.suffix_cons_iff, List.cons.injEq, List.suffix_nil, reduceCtorEq,
    or_false] at h
  obtain ⟨rfl, rfl⟩ | ⟨rfl, rfl⟩ | ⟨rfl, rfl⟩ | ⟨rfl, rfl⟩ | ⟨rfl, rfl⟩ | ⟨rfl, rfl⟩ := h <;> rfl

/-! ## How derivations begin -/

/-- Everything that is derived begins with a token of certain kinds. -/
def Ebnf.BeginsWith (e : Ebnf) (begins : Kind → Bool) : Prop :=
  ∀ w, Derives e w → ∃ t v, w = t :: v ∧ begins t.kind = true

namespace Ebnf.BeginsWith

variable {begins begins' : Kind → Bool}

/-- What begins with certain tokens begins with more of them. -/
theorem mono {e : Ebnf} (h : e.BeginsWith begins)
    (more : ∀ kind, begins kind = true → begins' kind = true) : e.BeginsWith begins' := by
  intro w derives
  obtain ⟨t, v, rfl, begun⟩ := h w derives
  exact ⟨t, v, rfl, more _ begun⟩

theorem token {kind : Kind} (h : begins kind = true) : (Ebnf.token kind).BeginsWith begins := by
  intro w derives
  obtain ⟨t, rfl, rfl⟩ := derives_token.1 derives
  exact ⟨t, [], rfl, h⟩

theorem rule {name : Nonterminal} (h : (production name).BeginsWith begins) :
    (Ebnf.rule name).BeginsWith begins := by
  intro w derives
  exact h w (derives_rule.1 derives)

/-- A sequence begins as its first part does, which is not empty. -/
theorem seq {e : Ebnf} {parts : List Ebnf} (h : e.BeginsWith begins) :
    (Ebnf.seq (e :: parts)).BeginsWith begins := by
  intro w derives
  obtain ⟨u, v, first, -, rfl⟩ := derives_seq_cons.1 derives
  obtain ⟨t, u', rfl, begun⟩ := h u first
  exact ⟨t, u' ++ v, rfl, begun⟩

/-- Alternatives begin as any of them does. -/
theorem oneOf {choices : List Ebnf} (h : ∀ e ∈ choices, e.BeginsWith begins) :
    (Ebnf.oneOf choices).BeginsWith begins := by
  intro w derives
  obtain ⟨e, mem, chosen⟩ := derives_oneOf.1 derives
  exact h e mem w chosen

end Ebnf.BeginsWith

/-- The tokens a primary expression begins with. -/
def Kind.beginsPrimary : Kind → Bool
  | number | string | trueWord | falseWord | nilWord | identifier | leftParen => true
  | _ => false

/-- No primary expression begins with an operator. -/
theorem Kind.isUnaryOperator_of_beginsPrimary {kind : Kind} (h : kind.beginsPrimary = true) :
    Grammar.isUnaryOperator kind = false := by
  unfold beginsPrimary at h
  split at h <;> simp_all [Grammar.isUnaryOperator]

/-- The tokens an expression begins with. -/
def Kind.beginsExpression (kind : Kind) : Bool :=
  kind.beginsPrimary || Grammar.isUnaryOperator kind

/-- A token that begins no expression is not one that does. -/
theorem Kind.ne_of_beginsExpression {kind other : Kind} (h : kind.beginsExpression = true)
    (h' : other.beginsExpression = false) : kind ≠ other := by
  rintro rfl
  exact Bool.noConfusion (h.symm.trans h')

open Ebnf in
/-- A call begins as what is called. -/
theorem call_beginsWith : (rule .call).BeginsWith Kind.beginsPrimary := by
  have primary : (rule .primary).BeginsWith Kind.beginsPrimary := by
    refine .rule (.oneOf ?_)
    simp only [List.forall_mem_cons, List.not_mem_nil, false_implies, implies_true, and_true]
    exact ⟨.token rfl, .token rfl, .token rfl, .token rfl, .token rfl, .token rfl,
      .seq (.token rfl)⟩
  exact .rule (.seq primary)

open Ebnf in
/-- An expression begins with a primary expression, or with an operator in front of one. -/
theorem expression_beginsWith : (rule .expression).BeginsWith Kind.beginsExpression := by
  have unary : (rule .unary).BeginsWith Kind.beginsExpression := by
    refine .rule (.oneOf ?_)
    simp only [List.forall_mem_cons, List.not_mem_nil, false_implies, implies_true, and_true]
    refine ⟨.seq (.oneOf ?_), call_beginsWith.mono ?_⟩
    · simp only [List.forall_mem_cons, List.not_mem_nil, false_implies, implies_true, and_true]
      exact ⟨.token rfl, .token rfl⟩
    · intro kind begun
      simp only [Kind.beginsExpression, begun, Bool.true_or]
  -- From the loosest tier down each production begins with the next one.
  have ternary : (rule .ternary).BeginsWith Kind.beginsExpression :=
    .rule (.seq (.rule (.seq (.rule (.seq (.rule (.seq (.rule (.seq (.rule (.seq (.rule
      (.seq unary)))))))))))))
  refine .rule (.rule (.oneOf ?_))
  simp only [List.forall_mem_cons, List.not_mem_nil, false_implies, implies_true, and_true]
  exact ⟨.seq (.token rfl), ternary⟩

theorem exprStmt_beginsWith : (Ebnf.rule .exprStmt).BeginsWith Kind.beginsExpression :=
  .rule (.seq expression_beginsWith)

/-- The tokens a statement begins with. -/
def Kind.beginsStatement : Kind → Bool
  | forWord | ifWord | printWord | returnWord | whileWord | leftBrace => true
  | kind => kind.beginsExpression

/-- The tokens a declaration begins with. -/
def Kind.beginsDeclaration : Kind → Bool
  | funWord | varWord => true
  | kind => kind.beginsStatement

open Ebnf in
/-- A statement begins with its word, its brace, or as an expression does. -/
theorem statement_beginsWith : (rule .statement).BeginsWith Kind.beginsStatement := by
  have expression : (rule .exprStmt).BeginsWith Kind.beginsStatement := by
    refine exprStmt_beginsWith.mono fun kind begun => ?_
    unfold Kind.beginsStatement
    split
    case h_7 => exact begun
    all_goals rfl
  refine .rule (.oneOf ?_)
  simp only [List.forall_mem_cons, List.not_mem_nil, false_implies, implies_true, and_true]
  exact ⟨expression, .rule (.seq (.token rfl)), .rule (.seq (.token rfl)),
    .rule (.seq (.token rfl)), .rule (.seq (.token rfl)), .rule (.seq (.token rfl)),
    .rule (.seq (.token rfl))⟩

open Ebnf in
/-- A declaration begins with its word or as a statement does. -/
theorem declaration_beginsWith : (rule .declaration).BeginsWith Kind.beginsDeclaration := by
  refine .rule (.oneOf ?_)
  simp only [List.forall_mem_cons, List.not_mem_nil, false_implies, implies_true, and_true]
  refine ⟨.rule (.seq (.token rfl)), .rule (.seq (.token rfl)), ?_⟩
  refine statement_beginsWith.mono fun kind begun => ?_
  unfold Kind.beginsDeclaration
  split
  case h_3 => exact begun
  all_goals rfl

/-! ## Which `if` an `else` belongs to -/

/-- A sequence in two pieces. -/
theorem derives_seq_append (parts others : List Ebnf) {w : List Token} :
    Derives (.seq (parts ++ others)) w ↔
      ∃ u v, Derives (.seq parts) u ∧ Derives (.seq others) v ∧ w = u ++ v := by
  induction parts generalizing w with
  | nil => simp
  | cons e parts ih =>
    simp only [List.cons_append, derives_seq_cons, ih]
    constructor
    · rintro ⟨u, _, first, ⟨v, v', before, behind, rfl⟩, rfl⟩
      exact ⟨u ++ v, v', ⟨u, v, first, before, rfl⟩, behind, (List.append_assoc u v v').symm⟩
    · rintro ⟨_, v', ⟨u, v, first, before, rfl⟩, behind, rfl⟩
      exact ⟨u, v ++ v', first, ⟨v, v', before, behind, rfl⟩, List.append_assoc u v v'⟩

namespace Ebnf

/-- The production of an `if` statement up to the statement it is about. -/
def ifHead : List Ebnf :=
  [token .ifWord, token .leftParen, rule .expression, token .rightParen]

/-- The production of a `while` loop up to its body. -/
def whileHead : List Ebnf :=
  [token .whileWord, token .leftParen, rule .expression, token .rightParen]

/-- The production of a `for` loop up to its body. -/
def forHead : List Ebnf :=
  [token .forWord, token .leftParen, oneOf [rule .varDecl, rule .exprStmt, token .semicolon],
    optional (rule .expression), token .semicolon, optional (rule .expression),
    token .rightParen]

/-- The statements that hold no other statement. -/
def simpleStatements : List Ebnf := [rule .exprStmt, rule .printStmt, rule .returnStmt]

end Ebnf

/-- **How a statement ends.** The derivations of statements in which every `else`
belongs to the nearest `if` that has none; the flag says whether one more `else`
behind the statement would belong to it. -/
inductive Nesting : Bool → List Token → Prop where
  | simple {e : Ebnf} {w : List Token} (mem : e ∈ Ebnf.simpleStatements)
      (derives : Derives e w) : Nesting false w
  | block {w : List Token} (derives : Derives (.rule .block) w) : Nesting false w
  | loop {head : List Ebnf} {isOpen : Bool} {u v : List Token}
      (mem : head ∈ [Ebnf.forHead, Ebnf.whileHead]) (first : Derives (.seq head) u)
      (body : Nesting isOpen v) : Nesting isOpen (u ++ v)
  | branch {isOpen : Bool} {u v : List Token} (first : Derives (.seq Ebnf.ifHead) u)
      (body : Nesting isOpen v) : Nesting true (u ++ v)
  | branchElse {isOpen : Bool} {u v w : List Token} {other : Token}
      (first : Derives (.seq Ebnf.ifHead) u) (thenBranch : Nesting false v)
      (sign : other.kind = .elseWord) (elseBranch : Nesting isOpen w) :
      Nesting isOpen (u ++ (v ++ other :: w))

/-- An `else` behind a statement that is open goes to its last open `if`. -/
theorem Nesting.attach {isOpen isOpen' : Bool} {v w : List Token} {other : Token}
    (sign : other.kind = .elseWord) (h : Nesting isOpen v) (isTrue : isOpen = true)
    (h' : Nesting isOpen' w) : ∃ b, Nesting b (v ++ other :: w) := by
  induction h with
  | simple | block => cases isTrue
  | loop mem first _ ih =>
    obtain ⟨b, body⟩ := ih isTrue
    rw [List.append_assoc]
    exact ⟨b, .loop mem first body⟩
  | @branch isOpen u v first body ih =>
    rw [List.append_assoc]
    -- The statement under the `if` takes the `else` if it is open itself.
    cases isOpen with
    | false => exact ⟨isOpen', .branchElse first body sign h'⟩
    | true =>
      obtain ⟨b, body⟩ := ih rfl
      exact ⟨true, .branch first body⟩
  | branchElse first thenBranch sign₁ _ _ ih =>
    obtain ⟨b, elseBranch⟩ := ih isTrue
    rw [List.append_assoc, List.append_assoc, List.cons_append]
    exact ⟨b, .branchElse first thenBranch sign₁ elseBranch⟩

/-- What begins with a token is not empty. -/
theorem length_pos_of_seq_token {kind : Kind} {parts : List Ebnf} {w : List Token}
    (h : Derives (.seq (.token kind :: parts)) w) : 0 < w.length := by
  obtain ⟨t, v, -, -, rfl⟩ := derives_seq_token.1 h
  exact Nat.succ_pos _

/-- **Every statement can be derived so that each `else` belongs to the nearest
`if`.** -/
theorem exists_nesting {w : List Token} (h : Derives (.rule .statement) w) :
    ∃ isOpen, Nesting isOpen w := by
  obtain ⟨e, mem, chosen⟩ := derives_oneOf.1 (derives_rule.1 h)
  simp only [List.mem_cons, List.not_mem_nil, or_false] at mem
  obtain rfl | rfl | rfl | rfl | rfl | rfl | rfl := mem
  · exact ⟨false, .simple (by simp [Ebnf.simpleStatements]) chosen⟩
  · obtain ⟨u, v, first, body, rfl⟩ :=
      (derives_seq_append Ebnf.forHead _).1 (derives_rule.1 chosen)
    have := length_pos_of_seq_token first
    obtain ⟨isOpen, body⟩ := exists_nesting (derives_seq_single.1 body)
    exact ⟨isOpen, .loop (by simp) first body⟩
  · obtain ⟨u, v, first, body, rfl⟩ :=
      (derives_seq_append Ebnf.ifHead _).1 (derives_rule.1 chosen)
    have := length_pos_of_seq_token first
    obtain ⟨v, w, thenBranch, elsePart, rfl⟩ := derives_seq_cons.1 body
    obtain ⟨isOpen, thenBranch⟩ := exists_nesting thenBranch
    obtain rfl | elsePart := derives_optional.1 (derives_seq_single.1 elsePart)
    · rw [List.append_nil]
      exact ⟨true, .branch first thenBranch⟩
    obtain ⟨other, w, sign, elseBranch, rfl⟩ := derives_seq_token.1 elsePart
    obtain ⟨isOpen', elseBranch⟩ := exists_nesting (derives_seq_single.1 elseBranch)
    cases isOpen with
    | false => exact ⟨isOpen', .branchElse first thenBranch sign elseBranch⟩
    | true =>
      -- The first branch ends in an open statement, which takes this `else`.
      obtain ⟨b, nearest⟩ := thenBranch.attach sign rfl elseBranch
      exact ⟨true, .branch first nearest⟩
  · exact ⟨false, .simple (by simp [Ebnf.simpleStatements]) chosen⟩
  · exact ⟨false, .simple (by simp [Ebnf.simpleStatements]) chosen⟩
  · obtain ⟨u, v, first, body, rfl⟩ :=
      (derives_seq_append Ebnf.whileHead _).1 (derives_rule.1 chosen)
    have := length_pos_of_seq_token first
    obtain ⟨isOpen, body⟩ := exists_nesting (derives_seq_single.1 body)
    exact ⟨isOpen, .loop (by simp) first body⟩
  · exact ⟨false, .block chosen⟩
termination_by w.length
decreasing_by all_goals subst_vars; simp only [List.length_append, List.length_cons]; omega

end Kix
