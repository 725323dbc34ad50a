import Kix.Proofs.Relabeling
import Kix.Proofs.Spans
import Mathlib.Data.List.Forall2

/-!
# Trees that respect the levels

An expression in source order is a list of **pieces** (`Expr.flatten`): tokens that
its tree keeps, marks of which the tree knows the kind alone, and literals of which
it knows the value. A list of tokens is a way to write the expression if each token
fits its piece.

Which trees can be written down without further parentheses is a matter of
**levels**. From the loosest to the tightest: assignment, conditional, six levels of
operators between two operands, the operators in front of an operand, and calls. The
levels and their operators are a table of their own (`Level.tighter`,
`Level.shortCircuits`, `Level.operators`), which mentions no reader. A tree is graded
(`Graded`) when each part stands where its level, or a looser one, is asked for.

The readers go by tiers, and a tier is a row of the table (`Tier.level`). So what the
grammar reads without a report is graded, and the tokens that were read are the
flattened tree (`Reads.graded`).
-/

namespace Kix

/-! ## Expressions in source order -/

/-- The kind of the token that a literal is written with. -/
def Literal.kind : Literal → Kind
  | .number _ => .number
  | .string _ => .string
  | .bool true => .trueWord
  | .bool false => .falseWord
  | .nil => .nilWord

/-- What a tree knows of a token: all of it, its kind, or the value it denotes. -/
inductive Piece where
  | token (t : Token)
  | mark (kind : Kind)
  | value (literal : Literal)

/-- **A token fits a piece** if it is as the tree knows it. The text and the line of
marks and literals are free. -/
def Piece.Fits : Piece → Token → Prop
  | .token t', t => t = t'
  | .mark kind, t => t.kind = kind
  | .value literal, t => t.kind = literal.kind ∧ t.denotes? = some literal

mutual

/-- **The pieces of an expression**, in the order of its text. -/
def Expr.flatten : Expr → List Piece
  | .literal value => [.value value]
  | .unary operator operand => .token operator :: operand.flatten
  | .binary left operator right | .logical left operator right =>
    left.flatten ++ .token operator :: right.flatten
  | .conditional condition thenBranch elseBranch =>
    condition.flatten ++
      .mark .question :: (thenBranch.flatten ++ .mark .colon :: elseBranch.flatten)
  | .group inner => .mark .leftParen :: (inner.flatten ++ [.mark .rightParen])
  | .var _ name => [.token name]
  | .assign _ name value => .token name :: .mark .equal :: value.flatten
  | .call callee paren arguments =>
    -- no comma in front of the first argument
    callee.flatten ++ .mark .leftParen :: ((flattenEach arguments).tail ++ [.token paren])
  | .absent => []

/-- The pieces of arguments, a comma in front of each. -/
def flattenEach : List Expr → List Piece
  | [] => []
  | e :: rest => .mark .comma :: (e.flatten ++ flattenEach rest)

end

/-- **A way to write down pieces**: token for token, each fits. -/
def Written (pieces : List Piece) (w : List Token) : Prop := List.Forall₂ Piece.Fits pieces w

namespace Written

variable {p : Piece} {ps qs : List Piece} {w w' : List Token}

theorem append (h : Written ps w) (h' : Written qs w') : Written (ps ++ qs) (w ++ w') :=
  List.rel_append h h'

theorem of_cons (h : Written (p :: ps) w) : ∃ t v, p.Fits t ∧ Written ps v ∧ w = t :: v :=
  List.forall₂_cons_left_iff.1 h

/-- Pieces in a row are written in a row. -/
theorem of_append (h : Written (ps ++ qs) w) : ∃ u v, Written ps u ∧ Written qs v ∧ w = u ++ v := by
  induction ps generalizing w with
  | nil => exact ⟨[], w, .nil, h, rfl⟩
  | cons p ps ih =>
    obtain ⟨t, _, fits, behind, rfl⟩ := h.of_cons
    obtain ⟨u, v, first, second, rfl⟩ := ih behind
    exact ⟨t :: u, v, .cons fits first, second, rfl⟩

/-- A token is written as itself. -/
theorem of_token {t : Token} (h : Written (.token t :: ps) w) : ∃ v, Written ps v ∧ w = t :: v := by
  obtain ⟨_, v, rfl, behind, rfl⟩ := h.of_cons
  exact ⟨v, behind, rfl⟩

/-- A mark is written as any token of its kind. -/
theorem of_mark {kind : Kind} (h : Written (.mark kind :: ps) w) :
    ∃ t v, t.kind = kind ∧ Written ps v ∧ w = t :: v :=
  h.of_cons

end Written

/-- The operator stands between its operands, whichever its tier is. -/
theorem Tier.flatten_join (tier : Tier) (left : Expr) (operator : Token) (right : Expr) :
    (tier.join left operator right).flatten
      = left.flatten ++ .token operator :: right.flatten := by
  cases tier <;> simp [Tier.join, Expr.flatten]

/-! ## Levels -/

/-- **The levels**, from the loosest to the tightest. -/
inductive Level where
  | expression | conditional
  | disjunction | conjunction | equality | comparison | term | factor
  | unary | call

namespace Level

/-- **The next tighter level.** Nothing is tighter than a call. -/
def tighter : Level → Level
  | expression => conditional
  | conditional => disjunction
  | disjunction => conjunction
  | conjunction => equality
  | equality => comparison
  | comparison => term
  | term => factor
  | factor => unary
  | unary | call => call

/-- **The operators of a level that may skip their right operand.** -/
def shortCircuits : Level → List Kind
  | disjunction => [.orWord]
  | conjunction => [.andWord]
  | _ => []

/-- **The operators of a level that take the values of both operands.** -/
def operators : Level → List Kind
  | equality => [.bangEqual, .equalEqual]
  | comparison => [.greater, .greaterEqual, .less, .lessEqual]
  | term => [.minus, .plus]
  | factor => [.slash, .star]
  | _ => []

end Level

/-- **Trees that respect the levels.** `Graded l e`: the tree `e` may stand where the
level `l` is asked for. An operator between two operands has an operand of its own
level on the left and one of the next tighter level on the right, so a chain of them
leans to the left. -/
inductive Graded : Level → Expr → Prop where
  | assign {id name value} (isName : name.kind = .identifier)
      (source : Graded .expression value) : Graded .expression (.assign id name value)
  | conditional {condition thenBranch elseBranch}
      (first : Graded .disjunction condition) (second : Graded .expression thenBranch)
      (third : Graded .expression elseBranch) :
      Graded .conditional (.conditional condition thenBranch elseBranch)
  | logical {l left operator right} (sign : operator.kind ∈ l.shortCircuits)
      (first : Graded l left) (second : Graded l.tighter right) :
      Graded l (.logical left operator right)
  | binary {l left operator right} (sign : operator.kind ∈ l.operators)
      (first : Graded l left) (second : Graded l.tighter right) :
      Graded l (.binary left operator right)
  | unary {operator operand} (sign : operator.kind ∈ [Kind.bang, .minus])
      (inner : Graded .unary operand) : Graded .unary (.unary operator operand)
  | call {callee paren arguments} (first : Graded .call callee)
      (sign : paren.kind = .rightParen) (few : arguments.length ≤ longestList)
      (each : ∀ e ∈ arguments, Graded .expression e) :
      Graded .call (.call callee paren arguments)
  | literal (value : Literal) : Graded .call (.literal value)
  | var {id name} (isName : name.kind = .identifier) : Graded .call (.var id name)
  | group {e} (inner : Graded .expression e) : Graded .call (.group e)
  | loosen {l e} (inner : Graded l.tighter e) : Graded l e

/-- A name stands for itself at every level. -/
theorem Graded.isName {l : Level} {e : Expr} {id : OccurrenceId} {name : Token}
    (h : Graded l e) (isVar : e = .var id name) : name.kind = .identifier := by
  induction h with
  | loosen _ ih => exact ih isVar
  | assign | conditional | logical | binary | unary | call | literal | group => cases isVar
  | var isName =>
    cases isVar
    exact isName

/-! ### The rows that the readers go by -/

/-- The level of a tier. -/
def Tier.level : Tier → Level
  | or => .disjunction
  | and => .conjunction
  | equality => .equality
  | comparison => .comparison
  | term => .term
  | factor => .factor

/-- The level of the operators of the given tiers: that of the first, or an operand's if
there is none. -/
def Level.ofTiers : List Tier → Level
  | [] => .unary
  | tier :: _ => tier.level

/-- **The tiers stand in the order of the levels.** -/
theorem Tier.tighter_level {tier : Tier} {tighter : List Tier}
    (h : tier :: tighter <:+ Tier.all) : tier.level.tighter = .ofTiers tighter := by
  simp only [Tier.all, List.suffix_cons_iff, List.cons.injEq, List.suffix_nil, reduceCtorEq,
    or_false] at h
  obtain ⟨rfl, rfl⟩ | ⟨rfl, rfl⟩ | ⟨rfl, rfl⟩ | ⟨rfl, rfl⟩ | ⟨rfl, rfl⟩ | ⟨rfl, rfl⟩ := h <;> rfl

/-- **A tier accepts the operators of its level**, and joins them as the level does. -/
theorem Graded.join {tier : Tier} {left right : Expr} {operator : Token}
    (sign : tier.accepts operator.kind = true) (first : Graded tier.level left)
    (second : Graded tier.level.tighter right) :
    Graded tier.level (tier.join left operator right) := by
  cases tier with
  | or | and =>
    exact .logical (by grind [Tier.accepts, Tier.level, Level.shortCircuits]) first second
  | equality | comparison | term | factor =>
    exact .binary (by grind [Tier.accepts, Tier.level, Level.operators]) first second

/-- An operator that may skip its right operand belongs to a tier. -/
theorem Level.exists_tier_of_mem_shortCircuits {l : Level} {kind : Kind}
    (h : kind ∈ l.shortCircuits) :
    ∃ tier : Tier, l = tier.level ∧ tier.accepts kind = true ∧ tier.join = .logical := by
  cases l <;> simp only [shortCircuits, List.mem_singleton, List.not_mem_nil] at h
  case disjunction => exact ⟨.or, rfl, by rw [h]; rfl, rfl⟩
  case conjunction => exact ⟨.and, rfl, by rw [h]; rfl, rfl⟩

/-- An operator that takes the values of both operands belongs to a tier. -/
theorem Level.exists_tier_of_mem_operators {l : Level} {kind : Kind} (h : kind ∈ l.operators) :
    ∃ tier : Tier, l = tier.level ∧ tier.accepts kind = true ∧ tier.join = .binary := by
  cases l <;> simp only [operators, List.mem_cons, List.not_mem_nil, or_false] at h
  case equality => exact ⟨.equality, rfl, by rcases h with rfl | rfl <;> rfl, rfl⟩
  case comparison =>
    exact ⟨.comparison, rfl, by rcases h with rfl | rfl | rfl | rfl <;> rfl, rfl⟩
  case term => exact ⟨.term, rfl, by rcases h with rfl | rfl <;> rfl, rfl⟩
  case factor => exact ⟨.factor, rfl, by rcases h with rfl | rfl <;> rfl, rfl⟩

/-- The operators in front of an operand are those of the unary level. -/
theorem Grammar.isUnaryOperator_iff {kind : Kind} :
    isUnaryOperator kind = true ↔ kind ∈ [Kind.bang, .minus] := by
  simp [isUnaryOperator]

/-! ## What is read without a report -/

/-- A token that denotes a value is of the kind that the value is written with. -/
def Token.Lawful (t : Token) : Prop := ∀ value, t.denotes? = some value → t.kind = value.kind

/-- **A clean part of the input**: nothing is reported between the two cursors, and the
tokens from the first on are lawful. -/
structure Cursor.Clean (c c' : Cursor) : Prop where
  quiet : c'.reports = c.reports
  lawful : ∀ t ∈ c.rest, t.Lawful

namespace Cursor.Clean

variable {a b c : Cursor} {t : Token}

/-- Both halves of a clean part are clean. -/
theorem split (h : a.Advances b) (h' : b.Advances c) (clean : Clean a c) :
    Clean a b ∧ Clean b c := by
  obtain ⟨quiet, quiet'⟩ := h.reports_eq h' clean.quiet
  exact ⟨⟨quiet, clean.lawful⟩, quiet', fun t mem => clean.lawful t (h.rest.subset mem)⟩

/-- The same for halves with a token between them. -/
theorem splitAt (h : a.Advances (b.push t)) (h' : b.Advances c) (clean : Clean a c) :
    Clean a (b.push t) ∧ Clean b c := by
  obtain ⟨first, second⟩ := clean.split h.past h'
  exact ⟨⟨first.quiet, first.lawful⟩, second⟩

/-- Behind a token the input is still clean. -/
theorem tail (clean : Clean (c.push t) a) : Clean c a :=
  ⟨clean.quiet, fun t mem => clean.lawful t (List.mem_cons_of_mem _ mem)⟩

end Cursor.Clean

/-- **The tokens between two cursors are written as the pieces.** -/
def Spelled (pieces : List Piece) (c c' : Cursor) : Prop :=
  ∃ w, Written pieces w ∧ c.rest = w ++ c'.rest

namespace Spelled

variable {a b c : Cursor} {t : Token} {p : Piece} {ps qs : List Piece}

theorem nil : Spelled [] c c := ⟨[], .nil, rfl⟩

theorem cons (fits : p.Fits t) (h : Spelled ps a b) : Spelled (p :: ps) (a.push t) b := by
  obtain ⟨w, written, heq⟩ := h
  refine ⟨t :: w, .cons fits written, ?_⟩
  rw [Cursor.rest_push, heq, List.cons_append]

theorem token (h : Spelled ps a b) : Spelled (.token t :: ps) (a.push t) b := h.cons rfl

theorem mark {kind : Kind} (sign : t.kind = kind) (h : Spelled ps a b) :
    Spelled (.mark kind :: ps) (a.push t) b :=
  h.cons sign

theorem append (h : Spelled ps a b) (h' : Spelled qs b c) : Spelled (ps ++ qs) a c := by
  obtain ⟨w, written, heq⟩ := h
  obtain ⟨w', written', heq'⟩ := h'
  refine ⟨w ++ w', written.append written', ?_⟩
  rw [heq, heq', List.append_assoc]

/-- Only the tokens count. -/
theorem congr {a' c' : Cursor} (h : Spelled ps a c) (first : a'.rest = a.rest)
    (last : c'.rest = c.rest) : Spelled ps a' c' := by
  obtain ⟨w, written, heq⟩ := h
  exact ⟨w, written, by rw [first, last, heq]⟩

end Spelled

/-- **A tree at its level**, and the tokens between the cursors are those of the tree. -/
structure ReadAt (l : Level) (e : Expr) (c c' : Cursor) : Prop where
  graded : Graded l e
  spelled : Spelled e.flatten c c'

/-- A tree that continues another one at a level, by the tokens between the cursors. -/
structure Continues (l : Level) (left e : Expr) (c c' : Cursor) : Prop where
  graded : Graded l left → Graded l e
  spelled : ∃ pieces, e.flatten = left.flatten ++ pieces ∧ Spelled pieces c c'

/-- A tree that was read, and what continues it. -/
theorem ReadAt.continue {l : Level} {left e : Expr} {a b c : Cursor} (h : ReadAt l left a b)
    (h' : Continues l left e b c) : ReadAt l e a c := by
  obtain ⟨pieces, heq, spelled⟩ := h'.spelled
  refine ⟨h'.graded h.graded, ?_⟩
  rw [heq]
  exact h.spelled.append spelled

/-- Nothing continues a tree by nothing. -/
theorem Continues.refl (l : Level) (e : Expr) (c : Cursor) : Continues l e e c c :=
  ⟨id, [], (List.append_nil _).symm, .nil⟩

theorem Continues.trans {l : Level} {e e' e'' : Expr} {a b c : Cursor}
    (h : Continues l e e' a b) (h' : Continues l e' e'' b c) : Continues l e e'' a c := by
  obtain ⟨pieces, heq, spelled⟩ := h.spelled
  obtain ⟨pieces', heq', spelled'⟩ := h'.spelled
  refine ⟨h'.graded ∘ h.graded, pieces ++ pieces', ?_, spelled.append spelled'⟩
  rw [heq', heq, List.append_assoc]

/-- The arguments of a call with the parenthesis that closes them. -/
structure Arguments (paren : Token) (arguments : List Expr) (c c' : Cursor) : Prop where
  sign : paren.kind = .rightParen
  each : ∀ e ∈ arguments, Graded .expression e
  spelled : Spelled ((flattenEach arguments).tail ++ [.token paren]) c c'

/-- What a phrase that was read without a report gives. -/
def Phrase.Yields (e : Expr) (c c' : Cursor) : Phrase → Prop
  | .expression => ReadAt .expression e c c'
  | .conditional => ReadAt .conditional e c c'
  | .operators tiers => ReadAt (.ofTiers tiers) e c c'
  | .moreOperators tier _ left => Continues tier.level left e c c'
  | .unary => ReadAt .unary e c c'
  | .call | .primary => ReadAt .call e c c'
  | .moreCalls callee => Continues .call callee e c c'
  | .arguments callee =>
    ∃ paren arguments, e = .call callee paren arguments ∧ arguments.length ≤ longestList ∧
      Arguments paren arguments c c'
  | .someArguments callee given =>
    ∃ paren first others, e = .call callee paren (given ++ first :: others) ∧
      (given ++ first :: others).length ≤ longestList ∧
      Arguments paren (first :: others) c c'

/-- **What is read without a report respects the levels**, and its tokens are those of
the tree. -/
theorem Reads.graded {eof : Token} {p : Phrase} {c c' : Cursor} {e : Expr}
    (h : Reads eof p c e c') (tiered : p.Tiered) (clean : c.Clean c') : p.Yields e c c' := by
  induction h with
  | value _ _ ih =>
    have read := ih trivial clean
    exact ⟨.loosen read.graded, read.spelled⟩
  | assign target sign source ih ih' =>
    obtain ⟨clean₁, clean₂⟩ := clean.splitAt target.advances (source.advances.trans (.advanceId _))
    have target := ih trivial clean₁
    have value := ih' trivial ⟨clean₂.quiet, clean₂.lawful⟩
    refine ⟨.assign (target.graded.isName rfl) value.graded, ?_⟩
    have name : Spelled [.token _] _ _ := target.spelled
    rw [Expr.flatten]
    exact (name.append (value.spelled.mark sign)).congr rfl rfl
  | badTarget first _ source =>
    have moved := first.advances.past.trans source.advances
    exact absurd clean.quiet (Cursor.Fails.after moved (.complain _ _ _)).reported
  | condition _ _ ih =>
    have read := ih (List.suffix_refl _) clean
    exact ⟨.loosen read.graded, read.spelled⟩
  | conditional first sign second sign' third ih ih' ih'' =>
    obtain ⟨clean₁, clean⟩ := clean.splitAt first.advances
      (second.advances.past.trans third.advances)
    obtain ⟨clean₂, clean₃⟩ := clean.splitAt second.advances third.advances
    have condition := ih (List.suffix_refl _) clean₁
    have thenBranch := ih' trivial clean₂
    have elseBranch := ih'' trivial clean₃
    refine ⟨.conditional condition.graded thenBranch.graded elseBranch.graded, ?_⟩
    rw [Expr.flatten]
    exact condition.spelled.append
      ((thenBranch.spelled.append (elseBranch.spelled.mark sign')).mark sign)
  | operand _ ih => exact ih trivial clean
  | operators first more ih ih' =>
    obtain ⟨clean₁, clean₂⟩ := clean.split first.advances more.advances
    have left := ih ((List.suffix_cons _ _).trans tiered) clean₁
    have graded := Tier.tighter_level tiered ▸ left.graded
    exact ReadAt.continue ⟨.loosen graded, left.spelled⟩ (ih' tiered clean₂)
  | noOperator | noCall => exact .refl _ _ _
  | operator sign first more ih ih' =>
    obtain ⟨clean₁, clean₂⟩ := clean.tail.split first.advances more.advances
    have right := ih ((List.suffix_cons _ _).trans tiered) clean₁
    have graded := Tier.tighter_level tiered ▸ right.graded
    exact Continues.trans ⟨fun left => .join sign left graded, _,
      Tier.flatten_join _ _ _ _, right.spelled.token⟩ (ih' tiered clean₂)
  | unary sign _ ih =>
    have read := ih trivial clean.tail
    refine ⟨.unary (Grammar.isUnaryOperator_iff.1 sign) read.graded, ?_⟩
    rw [Expr.flatten]
    exact read.spelled.token
  | noUnary _ _ ih =>
    have read := ih trivial clean
    exact ⟨.loosen read.graded, read.spelled⟩
  | call first more ih ih' =>
    obtain ⟨clean₁, clean₂⟩ := clean.split first.advances more.advances
    exact ReadAt.continue (ih trivial clean₁) (ih' trivial clean₂)
  | moreCalls sign first more ih ih' =>
    obtain ⟨clean₁, clean₂⟩ := clean.tail.split first.advances more.advances
    obtain ⟨paren, arguments, rfl, few, read⟩ := ih trivial clean₁
    exact Continues.trans ⟨fun callee => .call callee read.sign few read.each, _,
      by rw [Expr.flatten], read.spelled.mark sign⟩ (ih' trivial clean₂)
  | @noArguments _ paren _ sign =>
    exact ⟨paren, [], rfl, Nat.zero_le _, sign, by simp, Spelled.nil.token⟩
  | arguments _ _ ih =>
    obtain ⟨paren, first, others, rfl, few, read⟩ := ih trivial clean
    exact ⟨paren, first :: others, rfl, few, read⟩
  | @lastArgument _ given c _ e paren first sign ih =>
    have counted := Cursor.Advances.checkCount c eof given.length .tooManyArguments
    obtain ⟨clean₁, clean₂⟩ := clean.split counted first.advances.past
    have room : given.length + 1 ≤ longestList := Cursor.lt_of_checkCount clean₁.quiet
    have last := ih trivial ⟨clean₂.quiet, clean₂.lawful⟩
    have spelled := (last.spelled.append Spelled.nil.token).congr
      (Cursor.rest_checkCount c eof _ _).symm rfl
    refine ⟨paren, e, [], rfl, by simpa using room, sign, by simpa using last.graded, ?_⟩
    simpa [flattenEach] using spelled
  | @argument _ given c _ _ e _ _ first sign more ih ih' =>
    have counted := Cursor.Advances.checkCount c eof given.length .tooManyArguments
    obtain ⟨-, clean⟩ := clean.split counted (first.advances.past.trans more.advances)
    obtain ⟨clean₁, clean₂⟩ := clean.splitAt first.advances more.advances
    have next := ih trivial clean₁
    obtain ⟨paren, second, others, rfl, few, read⟩ := ih' trivial clean₂
    rw [List.append_assoc] at few
    have spelled := (next.spelled.append (read.spelled.mark sign)).congr
      (Cursor.rest_checkCount c eof _ _).symm rfl
    refine ⟨paren, e, second :: others, by rw [List.append_assoc]; rfl, few, read.sign, ?_, ?_⟩
    · exact List.forall_mem_cons.2 ⟨next.graded, read.each⟩
    · simpa [flattenEach] using spelled
  | literal denoted =>
    refine ⟨.literal _, ?_⟩
    rw [Expr.flatten]
    exact Spelled.nil.cons ⟨clean.lawful _ List.mem_cons_self _ denoted, denoted⟩
  | name sign =>
    refine ⟨.var sign, ?_⟩
    rw [Expr.flatten]
    exact Spelled.nil.token.congr rfl rfl
  | group sign first sign' ih =>
    have read := ih trivial ⟨clean.quiet, clean.tail.lawful⟩
    refine ⟨.group read.graded, ?_⟩
    rw [Expr.flatten]
    exact (read.spelled.append (Spelled.nil.mark sign')).mark sign

end Kix
