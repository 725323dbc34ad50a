import Kix.Syntax.ExpressionGrammar

/-!
# What reading an expression does

The readers of `Kix.Grammar` are functions on cursors. This module says once and
for all what they can do, as a relation: `Reads eof p c e c'` holds when reading
the phrase `p` from the cursor `c` gives the tree `e` and leaves the cursor at
`c'`. Each way through a reader is one rule, so whatever is true of all trees
that are read – which identities they hold, which tokens they were made of – is
proved by induction on the rules.

A reader that fails leaves no tree. What is known then is `Cursor.Breaks`: tokens
were only skipped, none of them a semicolon, identities only handed out, and
exactly one fatal report was made. Most of the time only `Cursor.Fails` is needed,
which forgets what was skipped and says that there was a report.
-/

namespace Kix

/-- **Fatal problems**: those at which a reader breaks off. It goes on behind the
others. -/
def Problem.isFatal : Problem → Bool
  | .expected _ | .expectedExpression => true
  | _ => false

/-- Whether a report is about a fatal problem of the syntax. -/
def Report.isFatal : Report → Bool
  | .syntactic _ p => p.isFatal
  | _ => false

namespace Cursor

/-! ## Cursors and the token in front of them -/

/-- The cursor in front of one more token. -/
def push (c : Cursor) (t : Token) : Cursor := { c with rest := t :: c.rest }

@[simp] theorem rest_push (c : Cursor) (t : Token) : (c.push t).rest = t :: c.rest := rfl

@[simp] theorem rest_checkCount (c : Cursor) (eof : Token) (count : Nat) (p : Problem) :
    (c.checkCount eof count p).rest = c.rest := by
  unfold checkCount
  split <;> rfl

@[simp] theorem nextId_checkCount (c : Cursor) (eof : Token) (count : Nat) (p : Problem) :
    (c.checkCount eof count p).nextId = c.nextId := by
  unfold checkCount
  split <;> rfl

/-- A cursor in front of a token is one with that token pushed. -/
theorem eq_push_of_rest {c : Cursor} {t : Token} {rest : List Token} (h : c.rest = t :: rest) :
    c = ({ c with rest } : Cursor).push t := by
  cases c
  cases h
  rfl

/-- The next token is the first one in front of the cursor. -/
theorem eq_push_of_next? {c c' : Cursor} {t : Token} {h : c'.size < c.size}
    (found : c.next? = some (t, ⟨c', h⟩)) : c = c'.push t := by
  unfold next? at found
  split at found
  · cases found
  · next t' rest hrest =>
    cases found
    exact eq_push_of_rest hrest

/-- A token that is taken is the next one, and accepted. -/
theorem eq_push_of_take? {accept : Kind → Bool} {c c' : Cursor} {t : Token}
    {h : c'.size < c.size} (found : c.take? accept = some (t, ⟨c', h⟩)) :
    c = c'.push t ∧ accept t.kind = true := by
  obtain ⟨hnext, haccept⟩ := Option.filter_eq_some_iff.1 found
  exact ⟨eq_push_of_next? hnext, haccept⟩

/-- Seeing a kind of token is being able to take one. -/
theorem sees_eq_isSome_take? (c : Cursor) (kind : Kind) :
    c.sees kind = (c.take? (· == kind)).isSome := by
  obtain ⟨rest, nextId, reports⟩ := c
  cases rest with
  | nil => rfl
  | cons t rest =>
    rw [take?, Option.isSome_filter]
    rfl

/-! ## Moving on and failing -/

/-- **Moving on**: tokens are only skipped, identities only handed out and
reports only added, all of them static. -/
structure Advances (c c' : Cursor) : Prop where
  rest : c'.rest <:+ c.rest
  nextId : c.nextId ≤ c'.nextId
  reports : c.reports <:+ c'.reports
  static : ∀ r ∈ c'.reports, r ∈ c.reports ∨ r.isStatic = true

/-- **Failing**: moving on with at least one report. -/
structure Fails (c c' : Cursor) : Prop extends Advances c c' where
  reported : c'.reports ≠ c.reports

namespace Advances

theorem refl (c : Cursor) : Advances c c :=
  ⟨List.suffix_refl _, Nat.le_refl _, List.suffix_refl _, fun _ => .inl⟩

/-- Moving on twice is moving on. -/
theorem trans {a b c : Cursor} (h : Advances a b) (h' : Advances b c) : Advances a c where
  rest := h'.rest.trans h.rest
  nextId := Nat.le_trans h.nextId h'.nextId
  reports := h.reports.trans h'.reports
  static r mem := (h'.static r mem).elim (h.static r) .inr

theorem push (c : Cursor) (t : Token) : Advances (c.push t) c :=
  ⟨List.suffix_cons t c.rest, Nat.le_refl _, List.suffix_refl _, fun _ => .inl⟩

theorem advanceId (c : Cursor) : Advances c c.advanceId :=
  ⟨List.suffix_refl _, Nat.le_succ _, List.suffix_refl _, fun _ => .inl⟩

/-- A report about syntax is added, which is static. -/
theorem complain (c : Cursor) (t : Token) (p : Problem) : Advances c (c.complain t p) where
  rest := List.suffix_refl _
  nextId := Nat.le_refl _
  reports := List.suffix_cons _ _
  static r mem := (List.mem_cons.1 mem).elim (fun same => .inr (by rw [same]; rfl)) .inl

/-- Counting an entry reads nothing, and may report that there are too many. -/
theorem checkCount (c : Cursor) (eof : Token) (count : Nat) (p : Problem) :
    Advances c (c.checkCount eof count p) := by
  unfold Cursor.checkCount
  split
  · exact complain c _ p
  · exact refl c

/-- Moving on to a token and past it. -/
theorem past {c c' : Cursor} {t : Token} (h : Advances c (c'.push t)) : Advances c c' :=
  h.trans (push c' t)

/-- Reports that are as at the start were so at every point on the way. -/
theorem reports_eq {a b c : Cursor} (h : Advances a b) (h' : Advances b c)
    (same : c.reports = a.reports) : b.reports = a.reports ∧ c.reports = b.reports := by
  have hb : b.reports <:+ a.reports := same ▸ h'.reports
  have hlen : a.reports.length = b.reports.length :=
    Nat.le_antisymm h.reports.length_le hb.length_le
  have heq : a.reports = b.reports := h.reports.eq_of_length hlen
  exact ⟨heq.symm, same.trans heq⟩

end Advances

namespace Fails

/-- Failing behind a part that was read. -/
theorem after {a b c : Cursor} (h : Advances a b) (h' : Fails b c) : Fails a c where
  toAdvances := h.trans h'.toAdvances
  reported := fun same => h'.reported (h.reports_eq h'.toAdvances same).2

/-- A report is a failure, wherever the cursor stands. -/
theorem complain (c : Cursor) (t : Token) (p : Problem) : Fails c (c.complain t p) where
  toAdvances := .complain c t p
  reported := List.cons_ne_self _ _

end Fails

/-! ## Within one statement -/

/-- **Passing**: moving on without passing a semicolon or making a fatal report. -/
structure Passes (c c' : Cursor) : Prop extends Advances c c' where
  semicolons : c'.rest.countP (·.kind == .semicolon) = c.rest.countP (·.kind == .semicolon)
  fatal : c'.reports.countP Report.isFatal = c.reports.countP Report.isFatal

/-- **Breaking off**: moving on without passing a semicolon, with one fatal report. -/
structure Breaks (c c' : Cursor) : Prop extends Advances c c' where
  semicolons : c'.rest.countP (·.kind == .semicolon) = c.rest.countP (·.kind == .semicolon)
  fatal : c'.reports.countP Report.isFatal = c.reports.countP Report.isFatal + 1

namespace Passes

theorem refl (c : Cursor) : Passes c c := ⟨.refl c, rfl, rfl⟩

/-- Passing twice is passing. -/
theorem trans {a b c : Cursor} (h : Passes a b) (h' : Passes b c) : Passes a c where
  toAdvances := h.toAdvances.trans h'.toAdvances
  semicolons := h'.semicolons.trans h.semicolons
  fatal := h'.fatal.trans h.fatal

/-- A token other than a semicolon is passed. -/
theorem push (c : Cursor) {t : Token} {kind : Kind} (sign : t.kind = kind)
    (other : kind ≠ .semicolon) : Passes (c.push t) c where
  toAdvances := .push c t
  semicolons := by simp [sign, other]
  fatal := rfl

theorem advanceId (c : Cursor) : Passes c c.advanceId := ⟨.advanceId c, rfl, rfl⟩

/-- A report that is not fatal may be made on the way. -/
theorem complain (c : Cursor) (t : Token) {p : Problem} (mild : p.isFatal = false) :
    Passes c (c.complain t p) where
  toAdvances := .complain c t p
  semicolons := rfl
  fatal := List.countP_cons_of_neg (by simp [Report.isFatal, mild])

/-- Counting an entry is passing, since a list that is too long is read to its end. -/
theorem checkCount (c : Cursor) (eof : Token) (count : Nat) {p : Problem}
    (mild : p.isFatal = false) : Passes c (c.checkCount eof count p) := by
  unfold Cursor.checkCount
  split
  · exact complain c _ mild
  · exact refl c

/-- Passing to a token and over it. -/
theorem past {c c' : Cursor} {t : Token} {kind : Kind} (h : Passes c (c'.push t))
    (sign : t.kind = kind) (other : kind ≠ .semicolon) : Passes c c' :=
  h.trans (push c' sign other)

end Passes

namespace Breaks

/-- Breaking off behind a part that was read. -/
theorem after {a b c : Cursor} (h : Passes a b) (h' : Breaks b c) : Breaks a c where
  toAdvances := h.toAdvances.trans h'.toAdvances
  semicolons := h'.semicolons.trans h.semicolons
  fatal := h'.fatal.trans (congrArg (· + 1) h.fatal)

/-- A fatal report breaks off where it is made. -/
theorem complain (c : Cursor) (t : Token) {p : Problem} (fatal : p.isFatal = true) :
    Breaks c (c.complain t p) where
  toAdvances := .complain c t p
  semicolons := rfl
  fatal := List.countP_cons_of_pos (by simpa [Report.isFatal] using fatal)

/-- Breaking off is a failure. -/
theorem fails {c c' : Cursor} (h : Breaks c c') : Fails c c' where
  toAdvances := h.toAdvances
  reported same := Nat.succ_ne_self _ (same ▸ h.fatal).symm

end Breaks

end Cursor

/-! ## Specifications of readers -/

/-- What holds of the tree and the cursor if a reader succeeds, and of the
cursor if it fails. -/
def Step.Spec {n : Nat} {α : Type} (x : Step n α) (read : α → Cursor → Prop)
    (failed : Cursor → Prop) : Prop :=
  match x with
  | .ok value c _ => read value c
  | .failed c _ => failed c

namespace Step.Spec

variable {m n : Nat} {α β : Type} {read : α → Cursor → Prop} {failed : Cursor → Prop}
  {read' : β → Cursor → Prop} {failed' : Cursor → Prop}

/-- A weaker specification. -/
theorem mono {x : Step n α} {read' : α → Cursor → Prop} (h : x.Spec read failed)
    (hread : ∀ v c, read v c → read' v c) (hfailed : ∀ c, failed c → failed' c) :
    x.Spec read' failed' := by
  cases x with
  | ok v c hlt => exact hread v c h
  | failed c hle => exact hfailed c h

theorem within {x : Step m α} (h : x.Spec read failed) (hlt : m < n) :
    (x.within hlt).Spec read failed := by
  cases x <;> exact h

theorem relocate {x : Step m α} (h : x.Spec read failed) (heq : m = n) :
    (x.relocate heq).Spec read failed := by
  cases x <;> exact h

/-- What is made of the result is judged by what was read. -/
theorem map {x : Step n α} {f : α → β} (h : x.Spec (fun v c => read' (f v) c) failed) :
    (x.map f).Spec read' failed := by
  cases x <;> exact h

/-- **One step after the other**: the second begins where the first has ended, and a failure
of the first is a failure of both. -/
theorem andThen {x : Step n α} {f : α → (c : Cursor) → c.size < n → Step n β}
    (h : x.Spec read failed)
    (hf : ∀ v c hlt, read v c → (f v c hlt).Spec read' failed) :
    (x.andThen f).Spec read' failed := by
  cases x with
  | ok v c hlt => exact hf v c hlt h
  | failed c hle => exact h

/-- The same for a second step that is bound to an earlier cursor. -/
theorem andThenFrom {x : Step m α} {hmn : m < n}
    {f : α → (c : Cursor) → c.size < m → Step n β} (h : x.Spec read failed)
    (hf : ∀ v c hlt, read v c → (f v c hlt).Spec read' failed) :
    (x.andThenFrom hmn f).Spec read' failed := by
  cases x with
  | ok v c hlt => exact hf v c hlt h
  | failed c hle => exact h

end Step.Spec

/-- What is known of every failure is known of one within a statement. -/
theorem Step.Spec.fails {n : Nat} {α : Type} {x : Step n α} {read : α → Cursor → Prop} {c : Cursor}
    (h : x.Spec read c.Breaks) : x.Spec read c.Fails :=
  h.mono (fun _ _ => id) fun _ => Cursor.Breaks.fails

/-- A token of the expected kind is read, or its absence is a fatal report. -/
theorem Cursor.expect_outcome (c : Cursor) (eof : Token) (what : Expectation) :
    (c.expect eof what).Spec (fun t c' => c = c'.push t ∧ t.kind = what.kind) c.Breaks := by
  unfold Cursor.expect
  split
  · next t c' hlt found =>
    obtain ⟨heq, haccept⟩ := eq_push_of_take? found
    exact ⟨heq, eq_of_beq haccept⟩
  · exact Cursor.Breaks.complain c _ rfl

theorem Cursor.expect_spec (c : Cursor) (eof : Token) (what : Expectation) :
    (c.expect eof what).Spec (fun t c' => c = c'.push t ∧ t.kind = what.kind) c.Fails :=
  (c.expect_outcome eof what).fails

/-! ## The rules -/

/-- The value of a token that stands for one. -/
def Token.denotes? (t : Token) : Option Literal :=
  match t.kind with
  | .falseWord => some (.bool false)
  | .trueWord => some (.bool true)
  | .nilWord => some .nil
  | .number | .string => some (t.literal.getD .nil)
  | _ => none

/-- **What is read**: one of the constructs of the grammar, or the rest of one
behind the part that was read already, which the phrase then carries. -/
inductive Phrase where
  | expression
  | conditional
  | operators (tiers : List Tier)
  | moreOperators (tier : Tier) (tighter : List Tier) (left : Expr)
  | unary
  | call
  | moreCalls (callee : Expr)
  | arguments (callee : Expr)
  | someArguments (callee : Expr) (given : List Expr)
  | primary

/-- **The rules of reading.** `Reads eof p c e c'`: reading the phrase `p` from
`c` gives `e` and ends at `c'`. Arguments are read on behalf of their callee, so
the tree they give is the call. -/
inductive Reads (eof : Token) : Phrase → Cursor → Expr → Cursor → Prop where
  | value {c c₁ e} (first : Reads eof .conditional c e c₁)
      (last : c₁.take? (· == .equal) = none) : Reads eof .expression c e c₁
  | assign {c c₂ c₃ i name equals value}
      (target : Reads eof .conditional c (.var i name) (c₂.push equals))
      (sign : equals.kind = .equal) (source : Reads eof .expression c₂ value c₃) :
      Reads eof .expression c (.assign c₃.nextId name value) c₃.advanceId
  | badTarget {c c₂ c₃ target equals value}
      (first : Reads eof .conditional c target (c₂.push equals))
      (sign : equals.kind = .equal) (source : Reads eof .expression c₂ value c₃)
      (bad : ∀ i name, target ≠ .var i name) :
      Reads eof .expression c target (c₃.complain equals .invalidAssignmentTarget)
  | condition {c c₁ e} (first : Reads eof (.operators Tier.all) c e c₁)
      (last : c₁.take? (· == .question) = none) : Reads eof .conditional c e c₁
  | conditional {c c₂ c₄ c₅ condition thenBranch elseBranch mark colon}
      (first : Reads eof (.operators Tier.all) c condition (c₂.push mark))
      (sign : mark.kind = .question)
      (second : Reads eof .expression c₂ thenBranch (c₄.push colon))
      (sign' : colon.kind = .colon) (third : Reads eof .expression c₄ elseBranch c₅) :
      Reads eof .conditional c (.conditional condition thenBranch elseBranch) c₅
  | operand {c c' e} (first : Reads eof .unary c e c') : Reads eof (.operators []) c e c'
  | operators {tier tighter c c₁ c' left e} (first : Reads eof (.operators tighter) c left c₁)
      (more : Reads eof (.moreOperators tier tighter left) c₁ e c') :
      Reads eof (.operators (tier :: tighter)) c e c'
  | noOperator {tier tighter left c} (last : c.take? tier.accepts = none) :
      Reads eof (.moreOperators tier tighter left) c left c
  | operator {tier tighter left operator right c c₁ c' e}
      (sign : tier.accepts operator.kind = true)
      (first : Reads eof (.operators tighter) c right c₁)
      (more : Reads eof (.moreOperators tier tighter (tier.join left operator right)) c₁ e c') :
      Reads eof (.moreOperators tier tighter left) (c.push operator) e c'
  | unary {operator operand c c'} (sign : Grammar.isUnaryOperator operator.kind = true)
      (first : Reads eof .unary c operand c') :
      Reads eof .unary (c.push operator) (.unary operator operand) c'
  | noUnary {c c' e} (none : c.take? Grammar.isUnaryOperator = none)
      (first : Reads eof .call c e c') : Reads eof .unary c e c'
  | call {c c₁ c' callee e} (first : Reads eof .primary c callee c₁)
      (more : Reads eof (.moreCalls callee) c₁ e c') : Reads eof .call c e c'
  | noCall {callee c} (last : c.take? (· == .leftParen) = none) :
      Reads eof (.moreCalls callee) c callee c
  | moreCalls {callee opening c c₁ c' f e} (sign : opening.kind = .leftParen)
      (first : Reads eof (.arguments callee) c f c₁)
      (more : Reads eof (.moreCalls f) c₁ e c') :
      Reads eof (.moreCalls callee) (c.push opening) e c'
  | noArguments {callee paren c} (sign : paren.kind = .rightParen) :
      Reads eof (.arguments callee) (c.push paren) (.call callee paren []) c
  | arguments {callee c c' e} (some : c.take? (· == .rightParen) = none)
      (first : Reads eof (.someArguments callee []) c e c') :
      Reads eof (.arguments callee) c e c'
  | lastArgument {callee given c c' e paren}
      (first : Reads eof .expression (c.checkCount eof given.length .tooManyArguments) e
        (c'.push paren))
      (sign : paren.kind = .rightParen) :
      Reads eof (.someArguments callee given) c (.call callee paren (given ++ [e])) c'
  | argument {callee given c c₂ c' e f comma}
      (first : Reads eof .expression (c.checkCount eof given.length .tooManyArguments) e
        (c₂.push comma))
      (sign : comma.kind = .comma)
      (more : Reads eof (.someArguments callee (given ++ [e])) c₂ f c') :
      Reads eof (.someArguments callee given) c f c'
  | literal {t value c} (denoted : t.denotes? = some value) :
      Reads eof .primary (c.push t) (.literal value) c
  | name {t : Token} {c : Cursor} (sign : t.kind = .identifier) :
      Reads eof .primary (c.push t) (.var c.nextId t) c.advanceId
  | group {opening closing c c' e} (sign : opening.kind = .leftParen)
      (first : Reads eof .expression c e (c'.push closing))
      (sign' : closing.kind = .rightParen) :
      Reads eof .primary (c.push opening) (.group e) c'

/-- No literal is written with a semicolon. -/
theorem Token.kind_ne_semicolon_of_denotes? {t : Token} {value : Literal}
    (denoted : t.denotes? = some value) : t.kind ≠ .semicolon := by
  intro same
  rw [Token.denotes?, same] at denoted
  cases denoted

/-- No operator between two operands is a semicolon. -/
theorem Tier.ne_semicolon_of_accepts {tier : Tier} {kind : Kind} (h : tier.accepts kind = true) :
    kind ≠ .semicolon := by
  rintro rfl
  cases tier <;> cases h

/-- No operator in front of an operand is a semicolon. -/
theorem Grammar.ne_semicolon_of_isUnaryOperator {kind : Kind} (h : isUnaryOperator kind = true) :
    kind ≠ .semicolon := by
  rintro rfl
  cases h

/-- No part of an expression is a semicolon, and no report about one that was read is
fatal. -/
theorem Reads.passes {eof : Token} {p : Phrase} {c c' : Cursor} {e : Expr}
    (h : Reads eof p c e c') : c.Passes c' := by
  induction h with
  | value _ _ ih | condition _ _ ih | operand _ ih | noUnary _ _ ih | arguments _ _ ih => exact ih
  | assign _ sign _ ih ih' =>
    exact ((ih.past sign (by decide)).trans ih').trans (.advanceId _)
  | badTarget _ sign _ _ ih ih' =>
    exact ((ih.past sign (by decide)).trans ih').trans (.complain _ _ rfl)
  | conditional _ sign _ sign' _ ih ih' ih'' =>
    exact ((ih.past sign (by decide)).trans (ih'.past sign' (by decide))).trans ih''
  | operators _ _ ih ih' | call _ _ ih ih' => exact ih.trans ih'
  | noOperator | noCall => exact .refl _
  | operator sign _ _ ih ih' =>
    exact (Cursor.Passes.push _ rfl (Tier.ne_semicolon_of_accepts sign)).trans (ih.trans ih')
  | moreCalls sign _ _ ih ih' =>
    exact (Cursor.Passes.push _ sign (by decide)).trans (ih.trans ih')
  | unary sign _ ih =>
    exact (Cursor.Passes.push _ rfl (Grammar.ne_semicolon_of_isUnaryOperator sign)).trans ih
  | noArguments sign => exact .push _ sign (by decide)
  | literal denoted => exact .push _ rfl (Token.kind_ne_semicolon_of_denotes? denoted)
  | lastArgument _ sign ih =>
    exact (Cursor.Passes.checkCount _ _ _ rfl).trans (ih.past sign (by decide))
  | argument _ sign _ ih ih' =>
    exact ((Cursor.Passes.checkCount _ _ _ rfl).trans (ih.past sign (by decide))).trans ih'
  | name sign => exact (Cursor.Passes.push _ sign (by decide)).trans (.advanceId _)
  | group sign _ sign' ih =>
    exact (Cursor.Passes.push _ sign (by decide)).trans (ih.past sign' (by decide))

/-- Reading moves on. -/
theorem Reads.advances {eof : Token} {p : Phrase} {c c' : Cursor} {e : Expr}
    (h : Reads eof p c e c') : c.Advances c' :=
  h.passes.toAdvances

/-! ## The readers follow the rules -/

namespace Grammar

open Cursor (Passes Breaks)

/-- The alternatives at a token that is taken or left. -/
theorem take?_cases (c : Cursor) (accept : Kind → Bool) :
    c.take? accept = none ∨
      ∃ t c', ∃ h : c'.size < c.size, c.take? accept = some (t, ⟨c', h⟩) ∧ c = c'.push t ∧
        accept t.kind = true := by
  rcases found : c.take? accept with _ | ⟨t, c', h⟩
  · exact .inl rfl
  · exact .inr ⟨t, c', h, rfl, Cursor.eq_push_of_take? found⟩

variable (eof : Token)

mutual

/-- An expression. A left side that is not a name is reported, but the report is not
fatal. -/
theorem expression_outcome (c : Cursor) :
    (expression eof c).Spec (Reads eof .expression c) c.Breaks := by
  rw [expression]
  -- Whether this is an assignment shows only behind its target.
  refine (conditional_outcome c).andThen fun target c₁ h₁ first => ?_
  rcases take?_cases c₁ (· == .equal) with hnone | ⟨equals, c₂, h₂, hsome, rfl, sign⟩
  · rw [hnone]
    exact .value first hnone
  · rw [hsome]
    have hlt := Cursor.shorter_trans h₂ h₁
    have source := (expression_outcome c₂).mono (fun _ _ => id)
      fun _ => Breaks.after (first.passes.past (eq_of_beq sign) (by decide))
    refine (source.within hlt).andThen fun value c₃ h₃ source => ?_
    split
    · exact .assign first (eq_of_beq sign) source
    · next bad => exact .badTarget first (eq_of_beq sign) source bad
termination_by (c.size, 6 + Tier.all.length)

/-- A conditional expression, or its condition alone. -/
theorem conditional_outcome (c : Cursor) :
    (conditional eof c).Spec (Reads eof .conditional c) c.Breaks := by
  rw [conditional]
  refine (operators_outcome Tier.all c).andThen fun condition c₁ h₁ first => ?_
  rcases take?_cases c₁ (· == .question) with hnone | ⟨mark, c₂, h₂, hsome, rfl, sign⟩
  · rw [hnone]
    exact .condition first hnone
  · rw [hsome]
    have hlt := Cursor.shorter_trans h₂ h₁
    have second := (expression_outcome c₂).mono (fun _ _ => id)
      fun _ => Breaks.after (first.passes.past (eq_of_beq sign) (by decide))
    refine (second.within hlt).andThen fun thenBranch c₃ h₃ second => ?_
    have moved := (first.passes.past (eq_of_beq sign) (by decide)).trans second.passes
    have colon := (c₃.expect_outcome eof .conditionalColon).mono (fun _ _ => id)
      fun _ => Breaks.after moved
    refine (colon.within h₃).andThen fun colon c₄ h₄ sign' => ?_
    obtain ⟨rfl, sign'⟩ := sign'
    refine .map (.within (.mono (expression_outcome c₄) ?_
      fun _ => Breaks.after (moved.past sign' (by decide))) h₄)
    intro elseBranch c₅ third
    exact .conditional first (eq_of_beq sign) second sign' third
termination_by (c.size, 5 + Tier.all.length)

/-- Operators by tiers, the loosest first. -/
theorem operators_outcome (tiers : List Tier) (c : Cursor) :
    (operators eof tiers c).Spec (Reads eof (.operators tiers) c) c.Breaks := by
  rw [operators.eq_def]
  match tiers with
  | [] => exact (unary_outcome c).mono (fun _ _ => .operand) fun _ => id
  | tier :: tighter =>
    refine (operators_outcome tighter c).andThen fun left c₁ h₁ first => ?_
    exact (moreOperators_outcome tier tighter c left c₁ h₁).mono
      (fun _ _ => .operators first) fun _ => Breaks.after first.passes
termination_by (c.size, 4 + tiers.length)

/-- A chain of operators of one tier behind its first operand. -/
theorem moreOperators_outcome (tier : Tier) (tighter : List Tier) (start : Cursor) (left : Expr)
    (c : Cursor) (h : c.size < start.size) :
    (moreOperators eof tier tighter start left c h).Spec
      (Reads eof (.moreOperators tier tighter left) c) c.Breaks := by
  rw [moreOperators]
  rcases take?_cases c tier.accepts with hnone | ⟨operator, c₁, h₁, hsome, rfl, sign⟩
  · rw [hnone]
    exact .noOperator hnone
  · rw [hsome]
    have passed : (c₁.push operator).Passes c₁ := .push c₁ rfl (Tier.ne_semicolon_of_accepts sign)
    have right := (operators_outcome tighter c₁).mono (fun _ _ => id)
      fun _ => Breaks.after passed
    refine (right.within h₁).andThenFrom fun right c₂ h₂ first => ?_
    exact (moreOperators_outcome tier tighter start _ c₂ _).mono
      (fun _ _ => .operator sign first)
      fun _ => Breaks.after (passed.trans first.passes)
termination_by (c.size, 0)

/-- Operators in front of an operand. -/
theorem unary_outcome (c : Cursor) : (unary eof c).Spec (Reads eof .unary c) c.Breaks := by
  rw [unary]
  rcases take?_cases c isUnaryOperator with hnone | ⟨operator, c₁, h₁, hsome, rfl, sign⟩
  · rw [hnone]
    exact (call_outcome c).mono (fun _ _ => .noUnary hnone) fun _ => id
  · rw [hsome]
    exact .map (.within ((unary_outcome c₁).mono (fun _ _ => .unary sign)
      fun _ => Breaks.after (.push c₁ rfl (ne_semicolon_of_isUnaryOperator sign))) h₁)
termination_by (c.size, 3)

/-- What is called, with its argument lists. -/
theorem call_outcome (c : Cursor) : (call eof c).Spec (Reads eof .call c) c.Breaks := by
  rw [call]
  refine (primary_outcome c).andThen fun callee c₁ h₁ first => ?_
  exact (moreCalls_outcome c callee c₁ h₁).mono (fun _ _ => .call first)
    fun _ => Breaks.after first.passes
termination_by (c.size, 2)

/-- Argument lists behind what is called. -/
theorem moreCalls_outcome (start : Cursor) (callee : Expr) (c : Cursor) (h : c.size < start.size) :
    (moreCalls eof start callee c h).Spec (Reads eof (.moreCalls callee) c) c.Breaks := by
  rw [moreCalls]
  rcases take?_cases c (· == .leftParen) with hnone | ⟨opening, c₁, h₁, hsome, rfl, sign⟩
  · rw [hnone]
    exact .noCall hnone
  · rw [hsome]
    have passed : (c₁.push opening).Passes c₁ := .push c₁ (eq_of_beq sign) (by decide)
    have given := (arguments_outcome callee c₁).mono (fun _ _ => id)
      fun _ => Breaks.after passed
    refine (given.within h₁).andThenFrom fun (given, paren) c₂ h₂ first => ?_
    exact (moreCalls_outcome start _ c₂ _).mono
      (fun _ _ => .moreCalls (eq_of_beq sign) first)
      fun _ => Breaks.after (passed.trans first.passes)
termination_by (c.size, 0)

/-- Arguments up to the closing parenthesis. -/
theorem arguments_outcome (callee : Expr) (c : Cursor) :
    (arguments eof c).Spec
      (fun read => Reads eof (.arguments callee) c (.call callee read.2 read.1)) c.Breaks := by
  rw [arguments]
  rcases take?_cases c (· == .rightParen) with hnone | ⟨paren, c₁, h₁, hsome, rfl, sign⟩
  · rw [hnone]
    exact (someArguments_outcome callee [] c).mono (fun _ _ => .arguments hnone) fun _ => id
  · rw [hsome]
    exact .noArguments (eq_of_beq sign)
termination_by (c.size, 8 + Tier.all.length)

/-- The reader of arguments behind others gives the arguments it read, the rules
the call of all of them. -/
theorem someArguments_outcome (callee : Expr) (given : List Expr) (c : Cursor) :
    (someArguments eof given.length c).Spec
      (fun read => Reads eof (.someArguments callee given) c
        (.call callee read.2 (given ++ read.1))) c.Breaks := by
  rw [someArguments]
  -- Counting may report, but it does not move.
  have hsize := Cursor.size_checkCount c eof given.length .tooManyArguments
  have counted : c.Passes _ := .checkCount c eof given.length (p := .tooManyArguments) rfl
  have first := (expression_outcome (c.checkCount eof given.length .tooManyArguments)).mono
    (fun _ _ => id) fun _ => Breaks.after counted
  refine (first.relocate hsize).andThen fun e c₁ h₁ first => ?_
  have moved := counted.trans first.passes
  rcases take?_cases c₁ (· == .comma) with hnone | ⟨comma, c₂, h₂, hsome, rfl, sign⟩
  · rw [hnone]
    refine .map (.within (.mono (c₁.expect_outcome eof .argumentsClose) ?_
      fun _ => Breaks.after moved) h₁)
    rintro paren c₂ ⟨rfl, sign⟩
    exact .lastArgument first sign
  · rw [hsome]
    have hlt := Cursor.shorter_trans h₂ h₁
    have others := someArguments_outcome callee (given ++ [e]) c₂
    rw [List.length_append] at others
    refine .map (.within (others.mono ?_
      fun _ => Breaks.after (moved.past (eq_of_beq sign) (by decide))) hlt)
    intro read c₃ more
    rw [List.append_assoc] at more
    exact .argument first (eq_of_beq sign) more
termination_by (c.size, 7 + Tier.all.length)

/-- Literals, names and groups. Any other token breaks off. -/
theorem primary_outcome (c : Cursor) : (primary eof c).Spec (Reads eof .primary c) c.Breaks := by
  rw [primary]
  rcases found : c.next? with _ | ⟨t, c₁, h₁⟩
  · exact .complain c _ rfl
  · obtain rfl := Cursor.eq_push_of_next? found
    dsimp only
    split
    case h_7 sign =>
      have passed : (c₁.push t).Passes c₁ := .push c₁ sign (by decide)
      have inner := (expression_outcome c₁).mono (fun _ _ => id) fun _ => Breaks.after passed
      refine (inner.within h₁).andThen fun e c₂ h₂ first => ?_
      have moved := passed.trans first.passes
      refine .map (.within (.mono (c₂.expect_outcome eof .groupClose) ?_
        fun _ => Breaks.after moved) h₂)
      rintro closing c₃ ⟨rfl, sign'⟩
      exact .group sign first sign'
    case h_6 sign => exact .name sign
    case h_8 => exact .complain _ _ rfl
    all_goals
      next sign => exact .literal (by simp [Token.denotes?, sign])
termination_by (c.size, 1)

end

/-- **An expression is read, or reading it fails with a report.** -/
theorem expression_spec (c : Cursor) :
    (expression eof c).Spec (Reads eof .expression c) c.Fails :=
  (expression_outcome eof c).fails

theorem call_spec (c : Cursor) : (call eof c).Spec (Reads eof .call c) c.Fails :=
  (call_outcome eof c).fails

theorem someArguments_spec (callee : Expr) (given : List Expr) (c : Cursor) :
    (someArguments eof given.length c).Spec
      (fun read => Reads eof (.someArguments callee given) c
        (.call callee read.2 (given ++ read.1))) c.Fails :=
  (someArguments_outcome eof callee given c).fails

end Grammar

end Kix
