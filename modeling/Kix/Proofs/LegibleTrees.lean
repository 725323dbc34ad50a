import Kix.Proofs.DecimalTexts
import Kix.Proofs.StatementReading

/-!
# What trees that are read are made of

The text of a tree shows the texts of its tokens and nothing else of them. They are enough to
know the tokens by if the tree is **legible**: each token has the text that its kind demands, and
there is no string among the literals, which could have any text, and no infinity.

Every tree that is read from scanned tokens is legible, if no token is a string and none denotes
infinity (`parse_legible`). It does not matter what was reported on the way.
-/

namespace Kix

/-! ## Tokens -/

/-- **A plain token**: scanned, no string, and a finite number if it is one. -/
structure Token.Plain (t : Token) : Prop where
  scanned : LongestMatch t.kind t.lexeme.toList t.literal []
  noString : t.kind ≠ .string
  finite : ∀ x, t.literal = some (.number x) → ∃ m < Magnitude.infinity, x = m.toFloat

/-- A plain token of one of the accepted kinds. -/
def Token.IsOf (accept : Kind → Bool) (t : Token) : Prop := t.Plain ∧ accept t.kind = true

/-- A literal whose text says what it is. -/
def Literal.Legible : Literal → Prop
  | .number x => ∃ m < Magnitude.infinity, x = m.toFloat
  | .string _ => False
  | .bool _ | .nil => True

/-- A number has a literal. -/
theorem Spells.exists_number {kind : Kind} {lexeme : List Char} {literal : Option Literal}
    (h : Spells kind lexeme literal) (isNumber : kind = .number) :
    ∃ x, literal = some (.number x) := by
  cases h with
  | whole | point => exact ⟨_, rfl⟩
  | operator listed =>
    have none : ∀ p ∈ Kind.operators, p.2 ≠ .number := by decide
    exact absurd isNumber (none _ listed)
  | reserved listed =>
    have none : ∀ p ∈ Kind.reserved, p.2 ≠ .number := by decide
    exact absurd isNumber (none _ listed)
  | name => cases isNumber
  | string => cases isNumber

/-- A token that is plain denotes a legible literal, so no string and nothing infinite. -/
theorem Token.Plain.legible {t : Token} (plain : t.Plain) {value : Literal}
    (denoted : t.denotes? = some value) : value.Legible := by
  unfold denotes? at denoted
  split at denoted
  · cases denoted
    trivial
  · cases denoted
    trivial
  · cases denoted
    trivial
  · next isNumber =>
    obtain ⟨x, literal⟩ := plain.scanned.spells.exists_number isNumber
    rw [literal, Option.getD_some] at denoted
    cases denoted
    exact plain.finite x literal
  · next isString => exact absurd isString plain.noString
  · cases denoted

/-- A scanned number is that of a finite magnitude, or infinity. -/
theorem Spells.number_cases {kind : Kind} {lexeme : List Char} {x : Float}
    (h : Spells kind lexeme (some (.number x))) :
    (∃ m < Magnitude.infinity, x = m.toFloat) ∨ x = Magnitude.infinity.toFloat := by
  have cases_of {whole fraction : List Char} (denotes : Number.Denotes whole fraction x) :
      (∃ m < Magnitude.infinity, x = m.toFloat) ∨ x = Magnitude.infinity.toFloat := by
    obtain ⟨m, -, rfl⟩ := denotes
    rcases Nat.lt_or_ge m Magnitude.infinity with small | large
    · rw [Nat.min_eq_right small.le]
      exact .inl ⟨m, small, rfl⟩
    · rw [Nat.min_eq_left large]
      exact .inr rfl
  cases h with
  | whole _ denotes => exact cases_of denotes
  | point _ _ denotes => exact cases_of denotes

/-- A number that is too large is infinite. -/
theorem Double.ofFloat_infinity : ofFloat Magnitude.infinity.toFloat = .infinite false := by
  decide +kernel

/-- A token of a source is plain, unless it is a string or denotes infinity. -/
theorem Token.plain_of_mem_tokens {source : String} {t : Token} (mem : t ∈ tokens source)
    (inner : t.kind ≠ .eof) (noString : t.kind ≠ .string)
    (finite : ∀ x, t.literal = some (.number x) → Double.ofFloat x ≠ .infinite false) :
    t.Plain := by
  rcases longestMatch_of_mem_tokens mem with ⟨line, rfl⟩ | ⟨rest, longest⟩
  · exact absurd rfl inner
  · refine ⟨longest.alone, noString, fun x literal => ?_⟩
    have spells := longest.spells
    rw [literal] at spells
    rcases spells.number_cases with small | rfl
    · exact small
    · exact absurd Double.ofFloat_infinity (finite _ literal)

/-! ## Trees -/

/-- The operators of two operands that are both evaluated. -/
def Kind.isInfix : Kind → Bool
  | .bangEqual | .equalEqual | .greater | .greaterEqual | .less | .lessEqual | .minus | .plus
  | .slash | .star => true
  | _ => false

/-- The operators that may leave out their right operand. -/
def Kind.isConnective : Kind → Bool
  | .andWord | .orWord => true
  | _ => false

mutual

/-- **A legible expression.** -/
def Expr.Legible : Expr → Prop
  | .literal value => value.Legible
  | .unary operator operand => operator.IsOf Grammar.isUnaryOperator ∧ operand.Legible
  | .binary left operator right => operator.IsOf Kind.isInfix ∧ left.Legible ∧ right.Legible
  | .logical left operator right =>
    operator.IsOf Kind.isConnective ∧ left.Legible ∧ right.Legible
  | .conditional condition thenBranch elseBranch =>
    condition.Legible ∧ thenBranch.Legible ∧ elseBranch.Legible
  | .group inner => inner.Legible
  | .var _ name => name.IsOf (· == .identifier)
  | .assign _ name value => name.IsOf (· == .identifier) ∧ value.Legible
  | .call callee paren arguments =>
    paren.IsOf (· == .rightParen) ∧ callee.Legible ∧ argumentsLegible arguments
  | .absent => False

/-- All arguments of a call are legible. -/
def argumentsLegible : List Expr → Prop
  | [] => True
  | e :: rest => e.Legible ∧ argumentsLegible rest

end

/-- A legible expression, or none. -/
def Expr.LegibleOrAbsent (e : Expr) : Prop := e = .absent ∨ e.Legible

mutual

/-- **A legible statement.** -/
def Stmt.Legible : Stmt → Prop
  | .expression value => value.LegibleOrAbsent
  | .print value => value.Legible
  | .var name initializer => name.IsOf (· == .identifier) ∧ initializer.LegibleOrAbsent
  | .block body => bodyLegible body
  | .branch condition thenBranch elseBranch =>
    condition.Legible ∧ thenBranch.Legible ∧ elseBranch.Legible
  | .loop condition body => condition.Legible ∧ body.Legible
  | .function name params body =>
    name.IsOf (· == .identifier) ∧ (∀ p ∈ params, p.IsOf (· == .identifier)) ∧ bodyLegible body
  | .ret keyword value => keyword.IsOf (· == .returnWord) ∧ value.LegibleOrAbsent
  | .absent => True

/-- All statements of a body are legible. -/
def bodyLegible : List Stmt → Prop
  | [] => True
  | s :: rest => s.Legible ∧ bodyLegible rest

end

/-- Arguments that are put together are legible if both parts are. -/
theorem argumentsLegible_append {es es' : List Expr} :
    argumentsLegible (es ++ es') ↔ argumentsLegible es ∧ argumentsLegible es' := by
  induction es with
  | nil => rw [List.nil_append, argumentsLegible, true_and]
  | cons e rest ih => rw [List.cons_append, argumentsLegible, argumentsLegible, ih, and_assoc]

theorem argumentsLegible_singleton {e : Expr} : argumentsLegible [e] ↔ e.Legible := by
  rw [argumentsLegible, argumentsLegible, and_true]

theorem bodyLegible_singleton {s : Stmt} : bodyLegible [s] ↔ s.Legible := by
  rw [bodyLegible, bodyLegible, and_true]

/-! ## Reading gives legible trees -/

/-- An operator of a tier makes a legible tree of legible operands. -/
theorem Tier.legible_join {tier : Tier} {left right : Expr} {operator : Token}
    (accepted : tier.accepts operator.kind = true) (plain : operator.Plain)
    (hleft : left.Legible) (hright : right.Legible) :
    (tier.join left operator right).Legible := by
  cases tier
  all_goals
    refine ⟨⟨plain, ?_⟩, hleft, hright⟩
    -- a kind that is not of the sort of the tier is not accepted by it
    generalize operator.kind = kind at accepted ⊢
    cases kind <;> first | rfl | cases accepted

/-- The part of a phrase that was read already is legible. -/
def Phrase.Legible : Phrase → Prop
  | .moreOperators _ _ left => left.Legible
  | .moreCalls callee | .arguments callee => callee.Legible
  | .someArguments callee given => callee.Legible ∧ argumentsLegible given
  | _ => True

/-- The tokens in front of a cursor are plain. -/
def Cursor.Plain (c : Cursor) : Prop := ∀ t ∈ c.rest, t.Plain

namespace Cursor.Plain

variable {c c' : Cursor} {t : Token}

/-- What is left of plain tokens is plain. -/
theorem advances (h : c.Plain) (moved : c.Advances c') : c'.Plain :=
  fun t mem => h t (moved.rest.subset mem)

theorem first (h : (c.push t).Plain) : t.Plain := h t List.mem_cons_self

theorem rest (h : (c.push t).Plain) : c.Plain := h.advances (.push c t)

theorem checkCount (h : c.Plain) (eof : Token) (count : Nat) (p : Problem) :
    (c.checkCount eof count p).Plain := by
  unfold Cursor.Plain
  rw [Cursor.rest_checkCount]
  exact h

end Cursor.Plain

/-- **An expression that is read from plain tokens is legible.** -/
theorem Reads.legible {eof : Token} {p : Phrase} {c c' : Cursor} {e : Expr}
    (h : Reads eof p c e c') (plain : c.Plain) (carried : p.Legible) : e.Legible := by
  -- the tokens behind a part are plain because reading only moves on
  induction h with
  | value _ _ ih | condition _ _ ih | operand _ ih | noUnary _ _ ih => exact ih plain carried
  | assign target _ source ih ih' =>
    exact ⟨ih plain trivial, ih' (plain.advances target.advances).rest trivial⟩
  | badTarget _ _ _ _ ih _ => exact ih plain trivial
  | conditional first _ second _ _ ih ih' ih'' =>
    have plain₁ := (plain.advances first.advances).rest
    have plain₂ := (plain₁.advances second.advances).rest
    exact ⟨ih plain trivial, ih' plain₁ trivial, ih'' plain₂ trivial⟩
  | operators first _ ih ih' =>
    exact ih' (plain.advances first.advances) (ih plain trivial)
  | noOperator | noCall => exact carried
  | operator sign first _ ih ih' =>
    have right := ih plain.rest trivial
    exact ih' (plain.rest.advances first.advances)
      (Tier.legible_join sign plain.first carried right)
  | unary sign _ ih =>
    exact ⟨⟨plain.first, sign⟩, ih plain.rest trivial⟩
  | call first _ ih ih' => exact ih' (plain.advances first.advances) (ih plain trivial)
  | moreCalls _ first _ ih ih' =>
    exact ih' (plain.rest.advances first.advances) (ih plain.rest carried)
  | noArguments sign =>
    exact ⟨⟨plain.first, beq_iff_eq.2 sign⟩, carried, trivial⟩
  | arguments _ _ ih => exact ih plain ⟨carried, trivial⟩
  | @lastArgument callee given c c' e paren first sign ih =>
    have counted := plain.checkCount eof given.length .tooManyArguments
    have last := ih counted trivial
    exact ⟨⟨(counted.advances first.advances).first, beq_iff_eq.2 sign⟩, carried.1,
      argumentsLegible_append.2 ⟨carried.2, argumentsLegible_singleton.2 last⟩⟩
  | @argument callee given c c₂ c' e f comma first _ _ ih ih' =>
    have counted := plain.checkCount eof given.length .tooManyArguments
    have next := ih counted trivial
    exact ih' (counted.advances first.advances).rest
      ⟨carried.1, argumentsLegible_append.2 ⟨carried.2, argumentsLegible_singleton.2 next⟩⟩
  | literal denoted =>
    exact plain.first.legible denoted
  | name sign =>
    exact ⟨plain.first, beq_iff_eq.2 sign⟩
  | group _ _ _ ih =>
    exact ih plain.rest trivial

/-- An expression that may be missing is legible if it is there. -/
theorem ReadsOptional.legible {eof : Token} {closing : Kind} {c c' : Cursor} {e : Expr}
    (h : ReadsOptional eof closing c (some e) c') (plain : c.Plain) : e.Legible := by
  obtain ⟨t, -, read⟩ := h
  exact read.legible plain trivial

/-- In any case it is legible or missing. -/
theorem ReadsOptional.legibleOrAbsent {eof : Token} {closing : Kind} {c c' : Cursor}
    {value : Option Expr} (h : ReadsOptional eof closing c value c') (plain : c.Plain) :
    (value.getD .absent).LegibleOrAbsent := by
  cases value with
  | none => exact .inl rfl
  | some e => exact .inr (h.legible plain)

/-- Parameters are names. -/
theorem ReadsParameters.isOf {eof : Token} {given all : List Token} {c c' : Cursor}
    (h : ReadsParameters eof given c all c') (plain : c.Plain)
    (carried : ∀ p ∈ given, p.IsOf (· == .identifier)) :
    ∀ p ∈ all, p.IsOf (· == .identifier) := by
  induction h with
  | none => exact carried
  | @last given c c' name paren first sign _ =>
    have counted := plain.checkCount eof given.length .tooManyParameters
    rw [first] at counted
    exact List.forall_mem_append.2
      ⟨carried, List.forall_mem_singleton.2 ⟨counted.first, beq_iff_eq.2 sign⟩⟩
  | @more given all c c₂ c' name comma first sign _ _ ih =>
    have counted := plain.checkCount eof given.length .tooManyParameters
    rw [first] at counted
    exact ih counted.rest.rest (List.forall_mem_append.2
      ⟨carried, List.forall_mem_singleton.2 ⟨counted.first, beq_iff_eq.2 sign⟩⟩)

/-- **Statements that are read from plain tokens are legible.** -/
theorem ReadsStatements.legible {eof : Token} {p : Passage} {c c' : Cursor} {ss : List Stmt}
    (h : ReadsStatements eof p c ss c') (plain : c.Plain) : bodyLegible ss := by
  induction h with
  | done | blockEnd => trivial
  | noInitializer | skipped => exact bodyLegible_singleton.2 trivial
  | next first _ ih ih' =>
    exact ⟨bodyLegible_singleton.1 (ih plain), ih' (plain.advances first.advances)⟩
  | blockNext _ first _ ih ih' =>
    exact ⟨bodyLegible_singleton.1 (ih plain), ih' (plain.advances first.advances)⟩
  | function _ sign _ list _ _ ih =>
    have behind := plain.rest.rest.rest
    refine bodyLegible_singleton.2 ⟨⟨plain.rest.first, beq_iff_eq.2 sign⟩, ?_, ?_⟩
    · exact list.isOf behind (List.forall_mem_nil _)
    · exact ih (behind.advances list.advances).rest
  | variableDeclaration _ _ ih | variableInitializer _ _ ih => exact ih plain.rest
  | statement _ ih => exact ih plain
  | uninitialized sign _ =>
    exact bodyLegible_singleton.2 ⟨⟨plain.first, beq_iff_eq.2 sign⟩, .inl rfl⟩
  | initialized sign _ value _ =>
    exact bodyLegible_singleton.2
      ⟨⟨plain.first, beq_iff_eq.2 sign⟩, .inr (value.legible plain.rest.rest trivial)⟩
  | expressionInitializer value _ | expression value _ =>
    exact bodyLegible_singleton.2 (.inr (value.legible plain trivial))
  | print _ value _ => exact bodyLegible_singleton.2 (value.legible plain.rest trivial)
  | @ret c c' word value sign result =>
    have given : (value.getD .absent).LegibleOrAbsent := result.legibleOrAbsent plain.rest
    exact bodyLegible_singleton.2 ⟨⟨plain.first, beq_iff_eq.2 sign⟩, given⟩
  | loop _ _ condition _ _ ih =>
    have behind := plain.rest.rest
    have body := ih (behind.advances condition.advances).rest
    exact bodyLegible_singleton.2
      ⟨condition.legible behind trivial, bodyLegible_singleton.1 body⟩
  | branch _ _ condition _ _ _ ih =>
    have behind := plain.rest.rest
    have thenBranch := ih (behind.advances condition.advances).rest
    exact bodyLegible_singleton.2
      ⟨condition.legible behind trivial, bodyLegible_singleton.1 thenBranch, trivial⟩
  | branchElse _ _ condition _ first _ _ ih ih' =>
    have behind := plain.rest.rest
    have behind' := (behind.advances condition.advances).rest
    have thenBranch := ih behind'
    have elseBranch := ih' (behind'.advances first.advances).rest
    exact bodyLegible_singleton.2 ⟨condition.legible behind trivial,
      bodyLegible_singleton.1 thenBranch, bodyLegible_singleton.1 elseBranch⟩
  | @forLoop c c₁ c₂ c₃ c' word opening init condition increment body _ _ first second third _
      ih ih' =>
    have plain₀ := plain.rest.rest
    have plain₁ := plain₀.advances first.advances
    have plain₂ := plain₁.advances second.advances
    have initial := bodyLegible_singleton.1 (ih plain₀)
    have inner := bodyLegible_singleton.1 (ih' (plain₂.advances third.advances))
    have test : (condition.getD (.literal (.bool true))).Legible := by
      cases condition with
      | none => trivial
      | some e => exact second.legible plain₁
    have change : (increment.getD .absent).LegibleOrAbsent := third.legibleOrAbsent plain₂
    exact bodyLegible_singleton.2 ⟨initial, ⟨test, inner, change, trivial⟩, trivial⟩
  | block _ _ ih => exact bodyLegible_singleton.2 (ih plain.rest)

/-- **Programs that are read are legible**, if their tokens are plain. -/
theorem parse_legible {ts : List Token} (plain : ∀ t ∈ ts, t.kind ≠ .eof → t.Plain)
    (firstId : OccurrenceId) : bodyLegible (parse ts firstId).program := by
  obtain ⟨c', reads, -, -⟩ := parse_reads ts firstId
  refine reads.legible fun t mem => plain t ((List.takeWhile_prefix _).subset mem) ?_
  have before : (t.kind != .eof) = true :=
    List.mem_takeWhile_imp (p := fun t : Token => t.kind != .eof) mem
  exact bne_iff_ne.1 before

end Kix
