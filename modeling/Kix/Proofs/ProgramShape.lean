import Kix.Proofs.StatementReading

/-!
# What programs that are read look like

Two facts about every tree that the grammar builds, whatever was reported on
the way.

Its **occurrences** of names are numbered without repetition, by numbers that
were handed out while it was read (`parse_numbered`). So the numbers of one
program never meet those of a program read later.

Its declarations are **placed** in bodies: a declaration stands directly in a
program, a block or a function, never alone under an `if` or a loop
(`parse_placed`). So executing a branch or the body of a loop never declares a
variable in the scope around it.
-/

namespace Kix

/-! ## Occurrences -/

/-- An occurrence of a name in an expression. -/
structure Occurrence where
  id : OccurrenceId
  name : Token
  /-- Whether it reads the variable; otherwise it assigns it. -/
  reads : Bool

mutual

/-- The occurrences in an expression, in the order in which they are
evaluated: an assignment stands behind its value. -/
def Expr.occurrences : Expr → List Occurrence
  | .literal _ | .absent => []
  | .group inner => inner.occurrences
  | .unary _ operand => operand.occurrences
  | .binary left _ right | .logical left _ right => left.occurrences ++ right.occurrences
  | .conditional condition thenBranch elseBranch =>
    condition.occurrences ++ (thenBranch.occurrences ++ elseBranch.occurrences)
  | .var id name => [⟨id, name, true⟩]
  | .assign id name value => value.occurrences ++ [⟨id, name, false⟩]
  | .call callee _ arguments => callee.occurrences ++ argumentOccurrences arguments

/-- The occurrences in the arguments of a call. -/
def argumentOccurrences : List Expr → List Occurrence
  | [] => []
  | e :: rest => e.occurrences ++ argumentOccurrences rest

end

mutual

/-- The occurrences in a statement, in the order of its text. -/
def Stmt.occurrences : Stmt → List Occurrence
  | .expression value | .print value | .var _ value | .ret _ value => value.occurrences
  | .block body | .function _ _ body => bodyOccurrences body
  | .branch condition thenBranch elseBranch =>
    condition.occurrences ++ (thenBranch.occurrences ++ elseBranch.occurrences)
  | .loop condition body => condition.occurrences ++ body.occurrences
  | .absent => []

/-- The occurrences in the statements of a body. -/
def bodyOccurrences : List Stmt → List Occurrence
  | [] => []
  | s :: rest => s.occurrences ++ bodyOccurrences rest

end

/-- The occurrences in arguments that are put together. -/
theorem argumentOccurrences_append (es es' : List Expr) :
    argumentOccurrences (es ++ es') = argumentOccurrences es ++ argumentOccurrences es' := by
  induction es with
  | nil => rfl
  | cons e rest ih =>
    rw [List.cons_append, argumentOccurrences, argumentOccurrences, ih, List.append_assoc]

theorem bodyOccurrences_singleton (s : Stmt) : bodyOccurrences [s] = s.occurrences := by
  rw [bodyOccurrences, bodyOccurrences, List.append_nil]

/-- **Numbered between two bounds**: no number twice, each at least the first
bound and below the second. -/
structure Numbered (low high : OccurrenceId) (os : List Occurrence) : Prop where
  nodup : (os.map Occurrence.id).Nodup
  low_le : ∀ o ∈ os, low ≤ o.id
  lt_high : ∀ o ∈ os, o.id < high

namespace Numbered

variable {a b c : OccurrenceId} {os os' : List Occurrence}

theorem nil (a b : OccurrenceId) : Numbered a b [] where
  nodup := List.nodup_nil
  low_le _ h := absurd h List.not_mem_nil
  lt_high _ h := absurd h List.not_mem_nil

/-- Numbers within some bound are within a larger one. -/
theorem mono (h : Numbered a b os) (hbc : b ≤ c) : Numbered a c os :=
  { h with lt_high := fun o ho => Nat.lt_of_lt_of_le (h.lt_high o ho) hbc }

/-- An occurrence with the last number before the bound. -/
theorem singleton {id : OccurrenceId} (name : Token) (reads : Bool) (h : a ≤ id) :
    Numbered a (id + 1) [⟨id, name, reads⟩] where
  nodup := List.pairwise_singleton _ _
  low_le o ho := by
    rw [List.mem_singleton.1 ho]
    exact h
  lt_high o ho := by
    rw [List.mem_singleton.1 ho]
    exact Nat.lt_succ_self id

/-- Occurrences numbered one after the other do not share numbers. -/
theorem append (h : Numbered a b os) (h' : Numbered b c os') (hab : a ≤ b) (hbc : b ≤ c) :
    Numbered a c (os ++ os') where
  nodup := by
    rw [List.map_append, List.nodup_append]
    refine ⟨h.nodup, h'.nodup, fun i hi j hj heq => ?_⟩
    obtain ⟨o, ho, rfl⟩ := List.mem_map.1 hi
    obtain ⟨o', ho', rfl⟩ := List.mem_map.1 hj
    exact Nat.ne_of_lt (Nat.lt_of_lt_of_le (h.lt_high o ho) (h'.low_le o' ho')) heq
  low_le o ho := by
    rcases List.mem_append.1 ho with ho | ho
    · exact h.low_le o ho
    · exact Nat.le_trans hab (h'.low_le o ho)
  lt_high o ho := by
    rcases List.mem_append.1 ho with ho | ho
    · exact Nat.lt_of_lt_of_le (h.lt_high o ho) hbc
    · exact h'.lt_high o ho

/-- The order of the occurrences does not matter. -/
theorem perm (h : Numbered a b os) (hperm : os.Perm os') : Numbered a b os' where
  nodup := (hperm.map _).nodup_iff.1 h.nodup
  low_le o ho := h.low_le o (hperm.mem_iff.2 ho)
  lt_high o ho := h.lt_high o (hperm.mem_iff.2 ho)

end Numbered

/-- The occurrences in the part of a phrase that was read already. -/
def Phrase.occurrences : Phrase → List Occurrence
  | .moreOperators _ _ left => left.occurrences
  | .moreCalls callee | .arguments callee => callee.occurrences
  | .someArguments callee given => callee.occurrences ++ argumentOccurrences given
  | _ => []

/-- The occurrences of both operands. -/
theorem Tier.occurrences_join (tier : Tier) (left : Expr) (operator : Token) (right : Expr) :
    (tier.join left operator right).occurrences = left.occurrences ++ right.occurrences := by
  cases tier <;> rw [Tier.join, Expr.occurrences]

/-- Reading numbers the occurrences it adds from the cursor's next number on.
The carried occurrences may be numbered from any lower bound. -/
theorem Reads.numbered {eof : Token} {p : Phrase} {c c' : Cursor} {e : Expr}
    (h : Reads eof p c e c') {low : OccurrenceId} (hlow : low ≤ c.nextId)
    (carried : Numbered low c.nextId p.occurrences) : Numbered low c'.nextId e.occurrences := by
  have none (a b : OccurrenceId) : Numbered a b [] := .nil a b
  induction h generalizing low with
  | value _ _ ih | condition _ _ ih | operand _ ih | noUnary _ _ ih => exact ih hlow carried
  | arguments _ _ ih =>
    refine ih hlow ?_
    rw [Phrase.occurrences, argumentOccurrences, List.append_nil]
    exact carried
  | assign target _ source ih ih' =>
    have moved := Nat.le_trans hlow target.advances.nextId
    have value := ih' moved (none _ _)
    rw [Expr.occurrences]
    exact value.append (.singleton _ _ (Nat.le_refl _)) (Nat.le_trans moved source.advances.nextId)
      (Nat.le_succ _)
  | badTarget first _ source _ ih ih' => exact (ih hlow carried).mono source.advances.nextId
  | conditional first _ second _ third ih ih' ih'' =>
    have hsecond := second.advances.nextId
    have hthird := third.advances.nextId
    have branches := (ih' (Nat.le_refl _) (none _ _)).append (ih'' (Nat.le_refl _) (none _ _))
      hsecond hthird
    rw [Expr.occurrences]
    exact (ih hlow carried).append branches (Nat.le_trans hlow first.advances.nextId)
      (Nat.le_trans hsecond hthird)
  | operators first _ ih ih' =>
    exact ih' (Nat.le_trans hlow first.advances.nextId) (ih hlow (none _ _))
  | noOperator | noCall => exact carried
  | operator _ first _ ih ih' =>
    refine ih' (Nat.le_trans hlow first.advances.nextId) ?_
    rw [Phrase.occurrences, Tier.occurrences_join]
    exact carried.append (ih (Nat.le_refl _) (none _ _)) hlow first.advances.nextId
  | unary _ _ ih =>
    rw [Expr.occurrences]
    exact ih hlow (none _ _)
  | call first _ ih ih' => exact ih' (Nat.le_trans hlow first.advances.nextId) (ih hlow (none _ _))
  | moreCalls _ first _ ih ih' =>
    exact ih' (Nat.le_trans hlow first.advances.nextId) (ih hlow carried)
  | noArguments =>
    rw [Expr.occurrences, argumentOccurrences, List.append_nil]
    exact carried
  | lastArgument first _ ih =>
    have hfirst := first.advances.nextId
    rw [Cursor.nextId_checkCount] at hfirst ih
    have last := ih (Nat.le_refl _) (none _ _)
    rw [Expr.occurrences, argumentOccurrences_append, argumentOccurrences, argumentOccurrences,
      List.append_nil, ← List.append_assoc]
    exact carried.append last hlow hfirst
  | argument first _ _ ih ih' =>
    have hfirst := first.advances.nextId
    rw [Cursor.nextId_checkCount] at hfirst ih
    refine ih' (Nat.le_trans hlow hfirst) ?_
    rw [Phrase.occurrences, argumentOccurrences_append, argumentOccurrences, argumentOccurrences,
      List.append_nil, ← List.append_assoc]
    exact carried.append (ih (Nat.le_refl _) (none _ _)) hlow hfirst
  | literal => exact none _ _
  | name =>
    rw [Expr.occurrences]
    exact .singleton _ _ hlow
  | group _ _ _ ih =>
    rw [Expr.occurrences]
    exact ih hlow (none _ _)

/-- An expression that may be missing, or another one without occurrences in its place. -/
theorem ReadsOptional.numbered {eof : Token} {closing : Kind} {c c' : Cursor}
    {value : Option Expr} (h : ReadsOptional eof closing c value c') (other : Expr)
    (plain : other.occurrences = []) :
    Numbered c.nextId c'.nextId (value.getD other).occurrences := by
  match value, h with
  | none, ⟨t, _, heq⟩ =>
    rw [Option.getD_none, plain]
    exact .nil _ _
  | some e, ⟨t, _, read⟩ => exact read.numbered (Nat.le_refl _) (.nil _ _)

/-- Reading statements numbers their occurrences from the cursor's next number
on. -/
theorem ReadsStatements.numbered {eof : Token} {p : Passage} {c c' : Cursor} {ss : List Stmt}
    (h : ReadsStatements eof p c ss c') : Numbered c.nextId c'.nextId (bodyOccurrences ss) := by
  have read {c c' : Cursor} {e : Expr} (h : Reads eof .expression c e c') :
      Numbered c.nextId c'.nextId e.occurrences := h.numbered (Nat.le_refl _) (.nil _ _)
  induction h with
  | done | blockEnd | uninitialized | noInitializer => exact .nil _ _
  | skipped => exact .nil _ _
  | next first others ih ih' | blockNext _ first others ih ih' =>
    rw [bodyOccurrences_singleton] at ih
    exact ih.append ih' first.advances.nextId others.advances.nextId
  | function _ _ _ list _ inner ih =>
    have moved := list.advances.nextId
    rw [bodyOccurrences_singleton, Stmt.occurrences]
    exact ⟨ih.nodup, fun o ho => Nat.le_trans moved (ih.low_le o ho), ih.lt_high⟩
  | variableDeclaration _ _ ih | variableInitializer _ _ ih | statement _ ih => exact ih
  | initialized _ _ value | expressionInitializer value | expression value | print _ value =>
    have numbered := read value
    rw [bodyOccurrences_singleton, Stmt.occurrences]
    exact numbered
  | ret _ result =>
    rw [bodyOccurrences_singleton, Stmt.occurrences]
    exact result.numbered .absent rfl
  | loop _ _ condition _ body ih =>
    rw [bodyOccurrences_singleton] at ih ⊢
    rw [Stmt.occurrences]
    exact (read condition).append ih condition.advances.nextId body.advances.nextId
  | branch _ _ condition _ thenBranch _ ih =>
    rw [bodyOccurrences_singleton] at ih ⊢
    rw [Stmt.occurrences, Stmt.occurrences, List.append_nil]
    exact (read condition).append ih condition.advances.nextId thenBranch.advances.nextId
  | branchElse _ _ condition _ thenBranch _ elseBranch ih ih' =>
    rw [bodyOccurrences_singleton] at ih ih' ⊢
    rw [Stmt.occurrences]
    have hthen := thenBranch.advances.nextId
    have helse := elseBranch.advances.nextId
    exact (read condition).append (ih.append ih' hthen helse) condition.advances.nextId
      (Nat.le_trans hthen helse)
  | @forLoop c c₁ c₂ c₃ c' word opening init condition increment body _ _ first second third
      inner ih ih' =>
    rw [bodyOccurrences_singleton] at ih ih'
    have hfirst := first.advances.nextId
    have hsecond := second.advances.nextId
    have hthird := third.advances.nextId
    have hinner := inner.advances.nextId
    -- the increment is read before the body but stands behind it in the tree
    have clauses := (second.numbered (.literal (.bool true)) rfl).append
      ((third.numbered .absent rfl).append ih' hthird hinner) hsecond (Nat.le_trans hthird hinner)
    have all := ih.append clauses hfirst (Nat.le_trans hsecond (Nat.le_trans hthird hinner))
    refine all.perm ?_
    rw [bodyOccurrences_singleton, Stmt.forLoop, Stmt.occurrences, bodyOccurrences,
      bodyOccurrences_singleton, Stmt.occurrences, Stmt.occurrences, bodyOccurrences,
      bodyOccurrences_singleton, Stmt.occurrences]
    exact (List.perm_append_comm.append_left _).append_left _
  | block _ _ ih =>
    rw [bodyOccurrences_singleton, Stmt.occurrences]
    exact ih

/-- **Numbers are handed out once**: the occurrences of a program that was read
carry different numbers, all handed out while it was read. -/
theorem parse_numbered (ts : List Token) (firstId : Nat) :
    Numbered firstId (parse ts firstId).nextId (bodyOccurrences (parse ts firstId).program) := by
  obtain ⟨c', h, hnext, -⟩ := parse_reads ts firstId
  rw [hnext]
  exact h.numbered

/-- Parsing gives out numbers from the first one on. -/
theorem parse_nextId_le (ts : List Token) (firstId : Nat) :
    firstId ≤ (parse ts firstId).nextId := by
  obtain ⟨c', h, hnext, -⟩ := parse_reads ts firstId
  rw [hnext]
  exact h.advances.nextId

/-! ## Where declarations stand -/

/-- The name that a statement declares in the scope it stands in. -/
def Stmt.declared? : Stmt → Option Token
  | .var name _ | .function name _ _ => some name
  | _ => none

mutual

/-- **Declarations stand in bodies**: no branch and no body of a loop is itself
a declaration. -/
def Stmt.Placed : Stmt → Prop
  | .branch _ thenBranch elseBranch =>
    (thenBranch.declared? = none ∧ thenBranch.Placed) ∧
      (elseBranch.declared? = none ∧ elseBranch.Placed)
  | .loop _ body => body.declared? = none ∧ body.Placed
  | .block body | .function _ _ body => bodyPlaced body
  | .expression _ | .print _ | .var _ _ | .ret _ _ | .absent => True

/-- Declarations stand in bodies, in all statements of a body. -/
def bodyPlaced : List Stmt → Prop
  | [] => True
  | s :: rest => s.Placed ∧ bodyPlaced rest

end

theorem bodyPlaced_singleton {s : Stmt} : bodyPlaced [s] ↔ s.Placed := by
  rw [bodyPlaced, bodyPlaced, and_true]

/-- A statement that is read declares nothing around it, and everything that is
read places its declarations. -/
theorem ReadsStatements.placed {eof : Token} {p : Passage} {c c' : Cursor} {ss : List Stmt}
    (h : ReadsStatements eof p c ss c') :
    bodyPlaced ss ∧ (p = .statement → ∀ s ∈ ss, s.declared? = none) := by
  have single {s : Stmt} (hs : s.Placed) (hd : s.declared? = none) :
      bodyPlaced [s] ∧ (Passage.statement = .statement → ∀ s' ∈ [s], s'.declared? = none) :=
    ⟨bodyPlaced_singleton.2 hs, fun _ s' h => List.mem_singleton.1 h ▸ hd⟩
  induction h with
  | done | blockEnd => exact ⟨trivial, fun h => nomatch h⟩
  | skipped | uninitialized | initialized | noInitializer | expressionInitializer =>
    exact ⟨⟨trivial, trivial⟩, fun h => nomatch h⟩
  | next _ _ ih ih' | blockNext _ _ _ ih ih' =>
    exact ⟨⟨bodyPlaced_singleton.1 ih.1, ih'.1⟩, fun h => nomatch h⟩
  | function _ _ _ _ _ _ ih => exact ⟨bodyPlaced_singleton.2 ih.1, fun h => nomatch h⟩
  | variableDeclaration _ _ ih | variableInitializer _ _ ih | statement _ ih =>
    exact ⟨ih.1, fun h => nomatch h⟩
  | expression | print | ret => exact single trivial rfl
  | loop _ _ _ _ _ ih =>
    exact single ⟨ih.2 rfl _ (List.mem_singleton_self _), bodyPlaced_singleton.1 ih.1⟩ rfl
  | branch _ _ _ _ _ _ ih =>
    exact single ⟨⟨ih.2 rfl _ (List.mem_singleton_self _), bodyPlaced_singleton.1 ih.1⟩,
      rfl, trivial⟩ rfl
  | branchElse _ _ _ _ _ _ _ ih ih' =>
    exact single ⟨⟨ih.2 rfl _ (List.mem_singleton_self _), bodyPlaced_singleton.1 ih.1⟩,
      ih'.2 rfl _ (List.mem_singleton_self _), bodyPlaced_singleton.1 ih'.1⟩ rfl
  | forLoop _ _ _ _ _ _ ih ih' =>
    -- the loop that a `for` stands for has a block as its body
    exact single ⟨bodyPlaced_singleton.1 ih.1,
      ⟨rfl, bodyPlaced_singleton.1 ih'.1, trivial, trivial⟩, trivial⟩ rfl
  | block _ _ ih => exact single ih.1 rfl

/-- **Declarations stand where they may** in what is parsed. -/
theorem parse_placed (ts : List Token) (firstId : Nat) :
    bodyPlaced (parse ts firstId).program := by
  obtain ⟨c', h, -, -⟩ := parse_reads ts firstId
  exact h.placed.1

end Kix
