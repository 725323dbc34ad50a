import Kix.Proofs.ProgramShape
import Kix.Value

/-!
# Other numbers and other lines

The identity of an occurrence and the line of a token are labels: the identity is
looked up in a table, the line is printed in a report, and nothing else depends on
them. A **relabeling** changes both, in tokens, trees, values and reports.

This module defines what relabeling does and states its laws: relabeling by nothing
changes nothing (`Expr.relabel_nothing`), two relabelings in a row are one
(`Expr.relabel_relabel`), and only the identities that occur count
(`Expr.relabel_congr`). That the stages of a session commute with it is the content
of later modules.
-/

namespace Kix

/-- **A relabeling**: other identities for occurrences and other lines. By default
both are kept. -/
structure Relabeling where
  id : OccurrenceId → OccurrenceId := fun id => id
  line : Nat → Nat := fun line => line

namespace Relabeling

/-- Every occurrence gets one and the same number. What is equal after this
relabeling was equal but for numbers. -/
def unnumbering : Relabeling := { id := fun _ => 0 }

/-- One relabeling behind another. -/
def after (σ ρ : Relabeling) : Relabeling := ⟨σ.id ∘ ρ.id, σ.line ∘ ρ.line⟩

end Relabeling

/-! ## Tokens and reports -/

/-- A token with its line relabeled. Its kind, text and literal stay. -/
def Token.relabel (ρ : Relabeling) (t : Token) : Token := { t with line := ρ.line t.line }

/-- A place in the source with its line relabeled. -/
def Place.relabel (ρ : Relabeling) (p : Place) : Place := { p with line := ρ.line p.line }

/-- A report with its place relabeled. It is still a report of the same problem. -/
def Report.relabel (ρ : Relabeling) : Report → Report
  | .lexical line p => .lexical (ρ.line line) p
  | .syntactic place p => .syntactic (place.relabel ρ) p
  | .scoping place p => .scoping (place.relabel ρ) p
  | .warning place p => .warning (place.relabel ρ) p
  | .runtime line p => .runtime (ρ.line line) p
  | .stream reason => .stream reason

section Labels

variable (ρ : Relabeling)

@[simp] theorem Token.kind_relabel (t : Token) : (t.relabel ρ).kind = t.kind := rfl

@[simp] theorem Token.lexeme_relabel (t : Token) : (t.relabel ρ).lexeme = t.lexeme := rfl

@[simp] theorem Token.literal_relabel (t : Token) : (t.relabel ρ).literal = t.literal := rfl

@[simp] theorem Token.line_relabel (t : Token) : (t.relabel ρ).line = ρ.line t.line := rfl

@[simp] theorem Token.place_relabel (t : Token) : (t.relabel ρ).place = t.place.relabel ρ := rfl

@[simp] theorem Report.isStatic_relabel (r : Report) : (r.relabel ρ).isStatic = r.isStatic := by
  cases r <;> rfl

@[simp] theorem Report.isRuntime_relabel (r : Report) :
    (r.relabel ρ).isRuntime = r.isRuntime := by
  cases r <;> rfl

/-- Only the lines of reports change. -/
theorem Report.relabel_of_line (keeps : ∀ line, ρ.line line = line) (r : Report) :
    r.relabel ρ = r := by
  cases r <;> simp [Report.relabel, Place.relabel, keeps]

end Labels

/-! ## Trees -/

mutual

/-- **An expression, relabeled**: the lines of its tokens and the numbers of its
occurrences. -/
def Expr.relabel (ρ : Relabeling) : Expr → Expr
  | .literal value => .literal value
  | .unary operator operand => .unary (operator.relabel ρ) (operand.relabel ρ)
  | .binary left operator right =>
    .binary (left.relabel ρ) (operator.relabel ρ) (right.relabel ρ)
  | .logical left operator right =>
    .logical (left.relabel ρ) (operator.relabel ρ) (right.relabel ρ)
  | .conditional condition thenBranch elseBranch =>
    .conditional (condition.relabel ρ) (thenBranch.relabel ρ) (elseBranch.relabel ρ)
  | .group inner => .group (inner.relabel ρ)
  | .var id name => .var (ρ.id id) (name.relabel ρ)
  | .assign id name value => .assign (ρ.id id) (name.relabel ρ) (value.relabel ρ)
  | .call callee paren arguments =>
    .call (callee.relabel ρ) (paren.relabel ρ) (relabelArguments ρ arguments)
  | .absent => .absent

/-- The arguments of a call, relabeled one by one. -/
def relabelArguments (ρ : Relabeling) : List Expr → List Expr
  | [] => []
  | e :: rest => e.relabel ρ :: relabelArguments ρ rest

end

mutual

/-- **A statement, relabeled** throughout its body. -/
def Stmt.relabel (ρ : Relabeling) : Stmt → Stmt
  | .expression value => .expression (value.relabel ρ)
  | .print value => .print (value.relabel ρ)
  | .var name initializer => .var (name.relabel ρ) (initializer.relabel ρ)
  | .block body => .block (relabelBody ρ body)
  | .branch condition thenBranch elseBranch =>
    .branch (condition.relabel ρ) (thenBranch.relabel ρ) (elseBranch.relabel ρ)
  | .loop condition body => .loop (condition.relabel ρ) (body.relabel ρ)
  | .function name params body =>
    .function (name.relabel ρ) (params.map (Token.relabel ρ)) (relabelBody ρ body)
  | .ret keyword value => .ret (keyword.relabel ρ) (value.relabel ρ)
  | .absent => .absent

/-- Relabeling the statements of a body, or of a program. -/
def relabelBody (ρ : Relabeling) : List Stmt → List Stmt
  | [] => []
  | s :: rest => s.relabel ρ :: relabelBody ρ rest

end

/-- Relabeling arguments is relabeling each of them. -/
theorem relabelArguments_eq_map (ρ : Relabeling) (es : List Expr) :
    relabelArguments ρ es = es.map (Expr.relabel ρ) := by
  induction es with
  | nil => rfl
  | cons e rest ih => rw [relabelArguments, ih, List.map_cons]

@[simp] theorem Tier.relabel_join (ρ : Relabeling) (tier : Tier) (left : Expr) (operator : Token)
    (right : Expr) : (tier.join left operator right).relabel ρ
      = tier.join (left.relabel ρ) (operator.relabel ρ) (right.relabel ρ) := by
  cases tier <;> simp [Tier.join, Expr.relabel]

/-- **A tree without its numbers.** -/
def Expr.unnumbered (e : Expr) : Expr := e.relabel .unnumbering

section Unnumbered

variable (id : OccurrenceId) (name operator paren : Token) (e left right : Expr)

@[simp] theorem unnumbered_var : (Expr.var id name).unnumbered = .var 0 name := by
  rw [Expr.unnumbered, Expr.relabel]
  rfl

@[simp] theorem unnumbered_assign :
    (Expr.assign id name e).unnumbered = .assign 0 name e.unnumbered := by
  rw [Expr.unnumbered, Expr.relabel]
  rfl

@[simp] theorem unnumbered_conditional (condition : Expr) :
    (Expr.conditional condition left right).unnumbered
      = .conditional condition.unnumbered left.unnumbered right.unnumbered := by
  rw [Expr.unnumbered, Expr.relabel]
  rfl

@[simp] theorem unnumbered_join (tier : Tier) :
    (tier.join left operator right).unnumbered
      = tier.join left.unnumbered operator right.unnumbered :=
  Tier.relabel_join _ _ _ _ _

@[simp] theorem unnumbered_unary :
    (Expr.unary operator e).unnumbered = .unary operator e.unnumbered := by
  rw [Expr.unnumbered, Expr.relabel]
  rfl

@[simp] theorem unnumbered_group : (Expr.group e).unnumbered = .group e.unnumbered := by
  rw [Expr.unnumbered, Expr.relabel]
  rfl

@[simp] theorem unnumbered_call (arguments : List Expr) :
    (Expr.call e paren arguments).unnumbered
      = .call e.unnumbered paren (arguments.map Expr.unnumbered) := by
  rw [Expr.unnumbered, Expr.relabel, relabelArguments_eq_map]
  rfl

end Unnumbered

/-! ## The laws -/

section Nothing

@[simp] theorem Token.relabel_nothing (t : Token) : t.relabel {} = t := rfl

mutual

/-- The relabeling that changes nothing changes no expression. -/
theorem Expr.relabel_nothing : ∀ e : Expr, e.relabel {} = e
  | .literal _ | .var _ _ | .absent => by rw [Expr.relabel] <;> rfl
  | .unary _ e | .group e | .assign _ _ e => by simp [Expr.relabel, e.relabel_nothing]
  | .binary a _ b | .logical a _ b => by
    simp [Expr.relabel, a.relabel_nothing, b.relabel_nothing]
  | .conditional a b c => by
    simp [Expr.relabel, a.relabel_nothing, b.relabel_nothing, c.relabel_nothing]
  | .call f _ arguments => by
    simp [Expr.relabel, f.relabel_nothing, relabelArguments_nothing arguments]

theorem relabelArguments_nothing : ∀ es : List Expr, relabelArguments {} es = es
  | [] => rfl
  | e :: rest => by rw [relabelArguments, e.relabel_nothing, relabelArguments_nothing rest]

end

mutual

/-- It changes no statement. -/
theorem Stmt.relabel_nothing : ∀ s : Stmt, s.relabel {} = s
  | .expression e | .print e | .var _ e | .ret _ e => by
    simp [Stmt.relabel, e.relabel_nothing]
  | .block body => by simp [Stmt.relabel, relabelBody_nothing body]
  | .branch e s s' => by
    simp [Stmt.relabel, e.relabel_nothing, s.relabel_nothing, s'.relabel_nothing]
  | .loop e s => by simp [Stmt.relabel, e.relabel_nothing, s.relabel_nothing]
  | .function _ params body => by
    simp [Stmt.relabel, relabelBody_nothing body, show Token.relabel {} = id from rfl]
  | .absent => by rw [Stmt.relabel]

/-- It changes no body. -/
theorem relabelBody_nothing : ∀ body : List Stmt, relabelBody {} body = body
  | [] => rfl
  | s :: rest => by rw [relabelBody, s.relabel_nothing, relabelBody_nothing rest]

end

end Nothing

section Composition

variable (σ ρ : Relabeling)

@[simp] theorem Token.relabel_relabel (t : Token) :
    (t.relabel ρ).relabel σ = t.relabel (σ.after ρ) := rfl

mutual

/-- Relabeling twice is relabeling once, by both relabelings. -/
theorem Expr.relabel_relabel : ∀ e : Expr, (e.relabel ρ).relabel σ = e.relabel (σ.after ρ)
  | .literal _ | .var _ _ | .absent => by simp [Expr.relabel, Relabeling.after]
  | .unary _ e | .group e | .assign _ _ e => by
    simp [Expr.relabel, e.relabel_relabel, Relabeling.after]
  | .binary a _ b | .logical a _ b => by
    simp [Expr.relabel, a.relabel_relabel, b.relabel_relabel]
  | .conditional a b c => by
    simp [Expr.relabel, a.relabel_relabel, b.relabel_relabel, c.relabel_relabel]
  | .call f _ arguments => by
    simp [Expr.relabel, f.relabel_relabel, relabelArguments_relabel arguments]

theorem relabelArguments_relabel : ∀ es : List Expr,
    relabelArguments σ (relabelArguments ρ es) = relabelArguments (σ.after ρ) es
  | [] => rfl
  | e :: rest => by
    rw [relabelArguments, relabelArguments, e.relabel_relabel, relabelArguments_relabel rest,
      relabelArguments]

end

mutual

/-- The same for statements. -/
theorem Stmt.relabel_relabel : ∀ s : Stmt, (s.relabel ρ).relabel σ = s.relabel (σ.after ρ)
  | .expression e | .print e | .var _ e | .ret _ e => by
    simp [Stmt.relabel, e.relabel_relabel]
  | .block body => by simp [Stmt.relabel, relabelBody_relabel body]
  | .branch e s s' => by
    simp [Stmt.relabel, e.relabel_relabel, s.relabel_relabel, s'.relabel_relabel]
  | .loop e s => by simp [Stmt.relabel, e.relabel_relabel, s.relabel_relabel]
  | .function _ params body => by simp [Stmt.relabel, relabelBody_relabel body]
  | .absent => by simp [Stmt.relabel]

/-- The same for bodies. -/
theorem relabelBody_relabel : ∀ body : List Stmt,
    relabelBody σ (relabelBody ρ body) = relabelBody (σ.after ρ) body
  | [] => rfl
  | s :: rest => by
    rw [relabelBody, relabelBody, s.relabel_relabel, relabelBody_relabel rest, relabelBody]

end

end Composition

section Congruence

variable {ρ σ : Relabeling}

/-- Only the lines count for a token. -/
theorem Token.relabel_congr (line : ρ.line = σ.line) (t : Token) : t.relabel ρ = t.relabel σ := by
  unfold Token.relabel
  rw [line]

mutual

/-- **Relabelings that agree on the occurrences of an expression** give the same
expression. -/
theorem Expr.relabel_congr (line : ρ.line = σ.line) : ∀ (e : Expr),
    (∀ o ∈ e.occurrences, ρ.id o.id = σ.id o.id) → e.relabel ρ = e.relabel σ
  | .literal _, _ | .absent, _ => by simp [Expr.relabel]
  | .var id name, h => by
    have same := h ⟨id, name, true⟩ (by simp [Expr.occurrences])
    rw [Expr.relabel, Expr.relabel, Token.relabel_congr line, same]
  | .unary _ e, h | .group e, h => by
    rw [Expr.occurrences] at h
    simp [Expr.relabel, e.relabel_congr line h, Token.relabel_congr line]
  | .assign id name e, h => by
    rw [Expr.occurrences, List.forall_mem_append, List.forall_mem_singleton] at h
    simp [Expr.relabel, e.relabel_congr line h.1, Token.relabel_congr line, h.2]
  | .binary a _ b, h | .logical a _ b, h => by
    rw [Expr.occurrences, List.forall_mem_append] at h
    simp [Expr.relabel, a.relabel_congr line h.1, b.relabel_congr line h.2,
      Token.relabel_congr line]
  | .conditional a b c, h => by
    rw [Expr.occurrences, List.forall_mem_append, List.forall_mem_append] at h
    simp [Expr.relabel, a.relabel_congr line h.1, b.relabel_congr line h.2.1,
      c.relabel_congr line h.2.2]
  | .call f _ arguments, h => by
    rw [Expr.occurrences, List.forall_mem_append] at h
    simp [Expr.relabel, f.relabel_congr line h.1, relabelArguments_congr line arguments h.2,
      Token.relabel_congr line]

/-- The same for arguments. -/
theorem relabelArguments_congr (line : ρ.line = σ.line) : ∀ (es : List Expr),
    (∀ o ∈ argumentOccurrences es, ρ.id o.id = σ.id o.id) →
    relabelArguments ρ es = relabelArguments σ es
  | [], _ => rfl
  | e :: rest, h => by
    rw [argumentOccurrences, List.forall_mem_append] at h
    rw [relabelArguments, relabelArguments, e.relabel_congr line h.1,
      relabelArguments_congr line rest h.2]

end

mutual

/-- The same for statements, whose occurrences are those of their parts. -/
theorem Stmt.relabel_congr (line : ρ.line = σ.line) : ∀ (s : Stmt),
    (∀ o ∈ s.occurrences, ρ.id o.id = σ.id o.id) → s.relabel ρ = s.relabel σ
  | .expression e, h | .print e, h | .var _ e, h | .ret _ e, h => by
    rw [Stmt.occurrences] at h
    simp [Stmt.relabel, e.relabel_congr line h, Token.relabel_congr line]
  | .block body, h => by
    rw [Stmt.occurrences] at h
    rw [Stmt.relabel, Stmt.relabel, relabelBody_congr line body h]
  | .branch e s s', h => by
    rw [Stmt.occurrences, List.forall_mem_append, List.forall_mem_append] at h
    rw [Stmt.relabel, Stmt.relabel, e.relabel_congr line h.1, s.relabel_congr line h.2.1,
      s'.relabel_congr line h.2.2]
  | .loop e s, h => by
    rw [Stmt.occurrences, List.forall_mem_append] at h
    rw [Stmt.relabel, Stmt.relabel, e.relabel_congr line h.1, s.relabel_congr line h.2]
  | .function _ params body, h => by
    rw [Stmt.occurrences] at h
    have tokens : Token.relabel ρ = Token.relabel σ := funext (Token.relabel_congr line)
    rw [Stmt.relabel, Stmt.relabel, relabelBody_congr line body h, tokens]
  | .absent, _ => by simp [Stmt.relabel]

/-- **Only the identities that occur count.** -/
theorem relabelBody_congr (line : ρ.line = σ.line) : ∀ (body : List Stmt),
    (∀ o ∈ bodyOccurrences body, ρ.id o.id = σ.id o.id) → relabelBody ρ body = relabelBody σ body
  | [], _ => rfl
  | s :: rest, h => by
    rw [bodyOccurrences, List.forall_mem_append] at h
    rw [relabelBody, relabelBody, s.relabel_congr line h.1, relabelBody_congr line rest h.2]

end

end Congruence

/-! ## Values -/

/-- A function with its parameters and its body relabeled. The frame that it was made in
stays. -/
def Closure.relabel (ρ : Relabeling) (f : Closure) : Closure :=
  { f with params := f.params.map (Token.relabel ρ), body := relabelBody ρ f.body }

/-- The value with the code of a closure relabeled. -/
def Value.relabel (ρ : Relabeling) : Value → Value
  | .closure f => .closure (f.relabel ρ)
  | .nil => .nil
  | .bool b => .bool b
  | .number x => .number x
  | .string s => .string s
  | .native f => .native f

/-- **A value without the numbers** in its code. -/
def Value.unnumbered (v : Value) : Value := v.relabel .unnumbering

end Kix
