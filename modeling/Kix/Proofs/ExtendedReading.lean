import Kix.Proofs.DeterminedReading

/-!
# Reading on behind a program

A reader looks at most one token ahead. So what it has read without a report it reads
just the same if further tokens follow: an expression, if a token followed it already
(`Reads.extend`), and a statement in any case, unless it could have an `else` part and
the first further token is an `else` (`ReadsStatements.extend`).

It follows that a program that was read without a report is read as it was when another
program follows it, and then the other one is read from where it begins
(`parse_append`).
-/

namespace Kix

namespace Cursor

/-- The cursor in front of further tokens. -/
def extend (c : Cursor) (extra : List Token) : Cursor := { c with rest := c.rest ++ extra }

theorem extend_push (c : Cursor) (t : Token) (extra : List Token) :
    (c.push t).extend extra = (c.extend extra).push t :=
  rfl

/-- Nothing was reported, and there is a token left. -/
structure Inside (c : Cursor) : Prop where
  quiet : c.reports = []
  more : c.rest ≠ []

variable {c c' : Cursor} {t : Token} {extra : List Token} {accept : Kind → Bool}

/-- Where nothing is reported later, nothing was before. -/
theorem Advances.quiet (h : c.Advances c') (quiet : c'.reports = []) : c.reports = [] :=
  List.suffix_nil.1 (quiet ▸ h.reports)

/-- A cursor in front of one inside is inside. -/
theorem Advances.inside (h : c.Advances c') (inside : c'.Inside) : c.Inside where
  quiet := h.quiet inside.quiet
  more empty := inside.more (List.suffix_nil.1 (empty ▸ h.rest))

theorem inside_push (t : Token) (quiet : c.reports = []) : (c.push t).Inside :=
  ⟨quiet, List.cons_ne_nil _ _⟩

/-- A token that is left is left, whatever follows it. -/
theorem Inside.take?_extend (inside : c.Inside) (left : c.take? accept = none)
    (extra : List Token) : (c.extend extra).take? accept = none := by
  obtain ⟨_ | ⟨t, rest⟩, nextId, reports⟩ := c
  · exact absurd rfl inside.more
  · have refused : accept t.kind = false := by simpa [take?, next?, Option.filter] using left
    exact take?_push_none ⟨rest ++ extra, nextId, reports⟩ refused

/-- What is not taken is not taken with more tokens behind it, if those are refused as
well. -/
theorem take?_extend_of_notNext (left : c.take? accept = none) (stop : NotNext accept extra) :
    (c.extend extra).take? accept = none := by
  obtain ⟨_ | ⟨t, rest⟩, nextId, reports⟩ := c
  · exact At.leave ⟨rfl, rfl⟩ stop
  · have refused : accept t.kind = false := by simpa [take?, next?, Option.filter] using left
    exact take?_push_none ⟨rest ++ extra, nextId, reports⟩ refused

/-- Counting does not depend on what follows, while there is room. -/
theorem checkCount_extend {eof : Token} {count : Nat} {p : Problem}
    (quiet : (c.checkCount eof count p).reports = []) (eof' : Token) (extra : List Token) :
    (c.checkCount eof count p).extend extra = (c.extend extra).checkCount eof' count p := by
  unfold checkCount at *
  by_cases many : maxArity ≤ count
  · rw [if_pos many] at quiet
    exact nomatch quiet
  · rw [if_neg many, if_neg many]

end Cursor

variable {eof : Token} {c c' : Cursor} (eof' : Token) (extra : List Token)

/-- **What was read in front of a token** is read in front of more tokens. -/
theorem Reads.extend {p : Phrase} {e : Expr} (h : Reads eof p c e c') (inside : c'.Inside) :
    Reads eof' p (c.extend extra) e (c'.extend extra) := by
  induction h with
  | value _ last ih => exact .value (ih inside) (inside.take?_extend last extra)
  | @assign c c₂ c₃ i name equals value _ sign source ih ih' =>
    have target : Reads eof' .conditional (c.extend extra) (.var i name)
        ((c₂.extend extra).push equals) :=
      ih (Cursor.inside_push equals (source.advances.quiet inside.quiet))
    exact .assign target sign (ih' ⟨inside.quiet, inside.more⟩)
  | badTarget => exact nomatch inside.quiet
  | condition _ last ih => exact .condition (ih inside) (inside.take?_extend last extra)
  | @conditional c c₂ c₄ c₅ condition thenBranch elseBranch mark colon _ sign second sign' third
      ih ih' ih'' =>
    have quiet₄ := third.advances.quiet inside.quiet
    have quiet₂ := second.advances.past.quiet quiet₄
    have first : Reads eof' (.operators Tier.all) (c.extend extra) condition
        ((c₂.extend extra).push mark) := ih (Cursor.inside_push mark quiet₂)
    have second : Reads eof' .expression (c₂.extend extra) thenBranch
        ((c₄.extend extra).push colon) := ih' (Cursor.inside_push colon quiet₄)
    exact .conditional first sign second sign' (ih'' inside)
  | operand _ ih => exact .operand (ih inside)
  | operators _ more ih ih' => exact .operators (ih (more.advances.inside inside)) (ih' inside)
  | noOperator last => exact .noOperator (inside.take?_extend last extra)
  | operator sign _ more ih ih' =>
    exact .operator sign (ih (more.advances.inside inside)) (ih' inside)
  | unary sign _ ih => exact .unary sign (ih inside)
  | noUnary none first ih =>
    exact .noUnary ((first.advances.inside inside).take?_extend none extra) (ih inside)
  | call _ more ih ih' => exact .call (ih (more.advances.inside inside)) (ih' inside)
  | noCall last => exact .noCall (inside.take?_extend last extra)
  | moreCalls sign _ more ih ih' =>
    exact .moreCalls sign (ih (more.advances.inside inside)) (ih' inside)
  | noArguments sign =>
    rw [Cursor.extend_push]
    exact .noArguments sign
  | arguments some first ih =>
    exact .arguments ((first.advances.inside inside).take?_extend some extra) (ih inside)
  | @lastArgument callee given c c' e paren first sign ih =>
    have read : Reads eof' .expression _ e ((c'.extend extra).push paren) :=
      ih (Cursor.inside_push paren inside.quiet)
    have counted := first.advances.past.quiet inside.quiet
    rw [Cursor.checkCount_extend counted eof' extra] at read
    exact .lastArgument read sign
  | @argument callee given c c₂ c' e f comma first sign more ih ih' =>
    have quiet₂ := more.advances.quiet inside.quiet
    have read : Reads eof' .expression _ e ((c₂.extend extra).push comma) :=
      ih (Cursor.inside_push comma quiet₂)
    have counted := first.advances.past.quiet quiet₂
    rw [Cursor.checkCount_extend counted eof' extra] at read
    exact .argument read sign (ih' inside)
  | literal denoted =>
    rw [Cursor.extend_push]
    exact .literal denoted
  | name sign =>
    rw [Cursor.extend_push]
    exact .name sign
  | @group opening closing c c' e sign first sign' ih =>
    have read : Reads eof' .expression (c.extend extra) e ((c'.extend extra).push closing) :=
      ih (Cursor.inside_push closing inside.quiet)
    exact .group sign read sign'

/-- An expression with the token behind it. -/
theorem Reads.extend_closed {e : Expr} {closing : Token}
    (h : Reads eof .expression c e (c'.push closing)) (quiet : c'.reports = []) :
    Reads eof' .expression (c.extend extra) e ((c'.extend extra).push closing) :=
  h.extend eof' extra (Cursor.inside_push closing quiet)

/-- An expression that may be missing, with more tokens behind it. -/
theorem ReadsOptional.extend {closing : Kind} {value : Option Expr}
    (h : ReadsOptional eof closing c value c') (quiet : c'.reports = []) :
    ReadsOptional eof' closing (c.extend extra) value (c'.extend extra) := by
  match value, h with
  | none, ⟨t, sign, heq⟩ =>
    subst heq
    exact ⟨t, sign, rfl⟩
  | some e, ⟨t, sign, read⟩ => exact ⟨t, sign, read.extend_closed eof' extra quiet⟩

/-- Parameters, with more tokens behind them. -/
theorem ReadsParameters.extend {given all : List Token} (h : ReadsParameters eof given c all c')
    (quiet : c'.reports = []) :
    ReadsParameters eof' given (c.extend extra) all (c'.extend extra) := by
  induction h with
  | none sign =>
    rw [Cursor.extend_push]
    exact .none sign
  | @last given c c' name paren first sign sign' =>
    have counted : (c.checkCount eof given.length .tooManyParameters).reports = [] := by
      rw [first]
      exact quiet
    have read : (c.extend extra).checkCount eof' given.length .tooManyParameters =
        ((c'.extend extra).push paren).push name := by
      rw [← Cursor.checkCount_extend counted eof' extra, first]
      rfl
    exact .last read sign sign'
  | @more given all c c₂ c' name comma first sign sign' others ih =>
    have counted : (c.checkCount eof given.length .tooManyParameters).reports = [] := by
      rw [first]
      exact others.advances.quiet quiet
    have read : (c.extend extra).checkCount eof' given.length .tooManyParameters =
        ((c₂.extend extra).push comma).push name := by
      rw [← Cursor.checkCount_extend counted eof' extra, first]
      rfl
    exact .more read sign sign' (ih quiet)

/-! ## Programs -/

/-- **Reading on**: a passage is read in front of further tokens as it was, and behind
declarations further ones are read. -/
def Passage.Continues (eof : Token) (c : Cursor) (ss : List Stmt) (c' : Cursor) : Passage → Prop
  | .declarations => ∀ {ss' c''}, ReadsStatements eof .declarations c' ss' c'' →
      ReadsStatements eof .declarations c (ss ++ ss') c''
  | p => ReadsStatements eof p c ss c'

/-- **What was read of a program without a report** is read in front of more tokens, if
they do not begin with an `else`. -/
theorem ReadsStatements.extend {p : Passage} {ss : List Stmt}
    (h : ReadsStatements eof p c ss c') (quiet : c'.reports = [])
    (noElse : NotNext (· == .elseWord) extra) :
    p.Continues eof' (c.extend extra) ss (c'.extend extra) := by
  induction h with
  | done => exact fun others => others
  | next _ others ih ih' =>
    exact fun more => .next (ih (others.advances.quiet quiet)) (ih' quiet more)
  | @function c c₁ c' word name opening brace params body kind sign sign₁ list sign₂ inner ih =>
    have list : ReadsParameters eof' [] (c.extend extra) params ((c₁.extend extra).push brace) :=
      list.extend eof' extra (inner.advances.quiet quiet)
    exact .function kind sign sign₁ list sign₂ (ih quiet)
  | variableDeclaration kind _ ih => exact .variableDeclaration kind (ih quiet)
  | statement _ ih => exact .statement (ih quiet)
  | @skipped c c₁ failed =>
    have quiet₀ : c.reports = [] := failed.toAdvances.quiet quiet
    exact absurd (quiet.trans quiet₀.symm) failed.reported
  | uninitialized sign sign' =>
    rw [Cursor.extend_push, Cursor.extend_push]
    exact .uninitialized sign sign'
  | initialized sign sign₁ value sign₂ =>
    exact .initialized sign sign₁ (value.extend_closed eof' extra quiet) sign₂
  | noInitializer sign =>
    rw [Cursor.extend_push]
    exact .noInitializer sign
  | variableInitializer kind _ ih => exact .variableInitializer kind (ih quiet)
  | expressionInitializer value sign =>
    exact .expressionInitializer (value.extend_closed eof' extra quiet) sign
  | expression value sign => exact .expression (value.extend_closed eof' extra quiet) sign
  | print kind value sign => exact .print kind (value.extend_closed eof' extra quiet) sign
  | ret kind result => exact .ret kind (result.extend eof' extra quiet)
  | loop kind sign condition sign' body ih =>
    have quiet₂ := body.advances.quiet quiet
    exact .loop kind sign (condition.extend_closed eof' extra quiet₂) sign' (ih quiet)
  | branch kind sign condition sign' thenBranch last ih =>
    have quiet₂ := thenBranch.advances.quiet quiet
    exact .branch kind sign (condition.extend_closed eof' extra quiet₂) sign' (ih quiet)
      (Cursor.take?_extend_of_notNext last noElse)
  | branchElse kind sign condition sign' thenBranch kind' elseBranch ih ih' =>
    have quiet₄ := elseBranch.advances.quiet quiet
    have quiet₂ := thenBranch.advances.past.quiet quiet₄
    have thenBranch := ih quiet₄
    rw [Cursor.extend_push] at thenBranch
    exact .branchElse kind sign (condition.extend_closed eof' extra quiet₂) sign' thenBranch
      kind' (ih' quiet)
  | forLoop kind sign _ second third inner ih ih' =>
    have quiet₃ := inner.advances.quiet quiet
    have quiet₂ := third.advances.quiet quiet₃
    have quiet₁ := second.advances.quiet quiet₂
    exact .forLoop kind sign (ih quiet₁) (second.extend eof' extra quiet₂)
      (third.extend eof' extra quiet₃) (ih' quiet)
  | block kind _ ih => exact .block kind (ih quiet)
  | blockEnd kind =>
    rw [Cursor.extend_push]
    exact .blockEnd kind
  | @blockNext c c₁ c' s ss more first others ih ih' =>
    have quiet₁ := others.advances.quiet quiet
    have quiet₀ := first.advances.quiet quiet₁
    have inside : c.Inside := ⟨quiet₀, (first.gives (quiet₁.trans quiet₀.symm) s rfl).1⟩
    exact .blockNext (inside.take?_extend more extra) (ih quiet₁) (ih' quiet)

/-- The end token is the one at the end. -/
theorem endToken_append_eof {word : List Token} {eof : Token}
    (noEof : ∀ t ∈ word, t.kind ≠ .eof) (isEof : eof.kind = .eof) :
    endToken (word ++ [eof]) = eof := by
  have none : word.find? (·.kind == .eof) = none :=
    List.find?_eq_none.2 fun t mem => by simpa using noEof t mem
  simp [endToken, List.find?_append, none, isEof]

section Parsing

variable {word word' : List Token} {eof' : Token} {firstId n n' : Nat} {p q : Program}

/-- A program is parsed without a report if the rules read it up to the end. -/
theorem parse_eq_iff_reads (noEof : ∀ t ∈ word, t.kind ≠ .eof) (isEof : eof.kind = .eof) :
    parse (word ++ [eof]) firstId = ⟨p, n, []⟩ ↔
      ReadsStatements eof .declarations ⟨word, firstId, []⟩ p ⟨[], n, []⟩ := by
  unfold parse
  rw [takeWhile_append_eof noEof isEof, endToken_append_eof noEof isEof]
  constructor
  · intro parsed
    have read := Grammar.declarations_spec eof ⟨word, firstId, []⟩
    have finished := Grammar.rest_declarations eof ⟨word, firstId, []⟩
    generalize Grammar.declarations eof ⟨word, firstId, []⟩ = result at *
    obtain ⟨p', rest, n', reports⟩ := result
    obtain ⟨rfl, rfl, quiet⟩ := Parse.mk.inj parsed
    obtain rfl := List.reverse_eq_nil_iff.1 quiet
    obtain rfl : rest = [] := finished
    exact read
  · intro read
    rw [show Grammar.declarations eof ⟨word, firstId, []⟩ = _ from read.gives rfl]
    rfl

/-- **Two programs are read one behind the other.** -/
theorem parse_append (noEof : ∀ t ∈ word, t.kind ≠ .eof) (noEof' : ∀ t ∈ word', t.kind ≠ .eof)
    (isEof : eof.kind = .eof) (isEof' : eof'.kind = .eof)
    (parsed : parse (word ++ [eof]) firstId = ⟨p, n, []⟩)
    (parsed' : parse (word' ++ [eof']) n = ⟨q, n', []⟩) :
    parse (word ++ word' ++ [eof']) firstId = ⟨p ++ q, n', []⟩ := by
  have noEofs : ∀ t ∈ word ++ word', t.kind ≠ .eof := fun t mem =>
    (List.mem_append.1 mem).elim (noEof t) (noEof' t)
  rw [parse_eq_iff_reads noEof isEof] at parsed
  rw [parse_eq_iff_reads noEof' isEof'] at parsed'
  rw [parse_eq_iff_reads noEofs isEof']
  -- The second program consists of declarations, and none of them begins with an `else`.
  obtain ⟨_, derives, rfl⟩ : ∃ w, Derives (.many (.rule .declaration)) w ∧ word' = w ++ [] :=
    parsed'.spans rfl
  have noElse := Grammar.noElse_of_declarations derives notNext_nil
  exact parsed.extend eof' _ rfl noElse parsed'

end Parsing

end Kix
