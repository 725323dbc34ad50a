import Kix.Proofs.Relabeling
import Kix.Proofs.Sites

/-!
# Resolving relabeled programs

The walk that resolves names compares texts, counts declarations and adds to two
lists. So it does the same on a relabeled program, relabeled, and it does the same
whatever is in the lists already. Both facts are one: `Resolution.onto` relabels a walk
and puts other entries and reports under it, and every step of the walk commutes with
it (`resolveBody_onto`).

From this follow what resolving makes of a relabeled program (`resolve_relabel`) and of
two programs in a row (`resolve_append`).
-/

namespace Kix

variable (ρ : Relabeling)

/-! ## Scopes -/

/-- A binding with the line of its name relabeled. -/
def Binding.relabel (b : Binding) : Binding := { b with name := b.name.relabel ρ }

namespace Scope

/-- The scope with the names relabeled. -/
def relabel (scope : Scope) : Scope := scope.map (Binding.relabel ρ)

/-- Names are found by their text, so the relabeled binding is found. -/
theorem find?_relabel (scope : Scope) (name : String) :
    (scope.relabel ρ).find? name = (scope.find? name).map (Binding.relabel ρ) :=
  List.find?_map ..

/-- A name has the same slot. -/
theorem slot?_relabel (name : String) (scope : Scope) :
    slot? name (scope.relabel ρ) = slot? name scope := by
  induction scope with
  | nil => rfl
  | cons b older ih =>
    show (if b.name.lexeme == name then some (older.map (Binding.relabel ρ)).length
      else slot? name (Scope.relabel ρ older)) = _
    rw [List.length_map, ih]
    rfl

/-- Changing the binding of a name, by a change that does not look at lines. -/
theorem update_relabel (name : String) {f : Binding → Binding}
    (commutes : ∀ b, f (b.relabel ρ) = (f b).relabel ρ) (scope : Scope) :
    update name f (scope.relabel ρ) = (update name f scope).relabel ρ := by
  induction scope with
  | nil => rfl
  | cons b older ih =>
    show (if b.name.lexeme == name then f (b.relabel ρ) :: Scope.relabel ρ older
      else b.relabel ρ :: update name f (Scope.relabel ρ older)) = _
    rw [update]
    split
    · rw [commutes]
      rfl
    · rw [ih]
      rfl

/-- **The address of a name does not depend on lines.** -/
theorem locate_relabel (name : String) (scopes : List Scope) :
    locate name (scopes.map (relabel ρ)) = locate name scopes := by
  induction scopes with
  | nil => rfl
  | cons scope outer ih => rw [List.map_cons, locate, locate, slot?_relabel, ih]

/-- The same bindings are marked as used. -/
theorem markUsed_relabel (name : String) (scopes : List Scope) :
    markUsed name (scopes.map (relabel ρ)) = (markUsed name scopes).map (relabel ρ) := by
  induction scopes with
  | nil => rfl
  | cons scope outer ih =>
    rw [List.map_cons, markUsed, markUsed, slot?_relabel]
    split
    · rw [update_relabel ρ name (f := ({ · with used := true })) fun _ => rfl]
      rfl
    · rw [ih]
      rfl

end Scope

/-! ## The walk -/

/-- The entry of a relabeled occurrence. -/
def Relabeling.entry (entry : OccurrenceId × Address) : OccurrenceId × Address :=
  (ρ.id entry.1, entry.2)

variable (entries : List (OccurrenceId × Address)) (reports : List Report)

namespace Resolution

/-- **A walk relabeled**, on top of other entries and reports. -/
def onto (r : Resolution) : Resolution where
  scopes := r.scopes.map (Scope.relabel ρ)
  entries := r.entries.map ρ.entry ++ entries
  reports := r.reports.map (Report.relabel ρ) ++ reports

variable (r : Resolution)

/-- A relabeled report on top of the others. -/
theorem report_onto (report : Report) :
    (r.onto ρ entries reports).report (report.relabel ρ)
      = (r.report report).onto ρ entries reports := rfl

theorem openScope_onto :
    (r.onto ρ entries reports).openScope = r.openScope.onto ρ entries reports := rfl

/-- An unused variable is reported at its relabeled place, or not at all on both sides. -/
theorem unusedReport?_relabel (policy : Policy) (b : Binding) :
    unusedReport? policy (b.relabel ρ) = (unusedReport? policy b).map (Report.relabel ρ) := by
  unfold unusedReport?
  split
  · next skip => rw [if_pos (by simpa [Binding.relabel] using skip)]; rfl
  · next skip =>
    rw [if_neg (by simpa [Binding.relabel] using skip)]
    cases policy.unused <;> rfl

/-- Leaving a scope. -/
theorem closeScope_onto (policy : Policy) :
    (r.onto ρ entries reports).closeScope policy
      = (r.closeScope policy).onto ρ entries reports := by
  obtain ⟨_ | ⟨scope, outer⟩, es, rs⟩ := r
  · rfl
  · have unused : (Scope.relabel ρ scope).filterMap (unusedReport? policy)
        = (scope.filterMap (unusedReport? policy)).map (Report.relabel ρ) := by
      rw [Scope.relabel, List.filterMap_map, List.map_filterMap]
      congr 1
      funext b
      exact unusedReport?_relabel ρ policy b
    show Resolution.mk _ _ ((Scope.relabel ρ scope).filterMap (unusedReport? policy)
      ++ (rs.map (Report.relabel ρ) ++ reports)) = _
    rw [unused, ← List.append_assoc, ← List.map_append]
    rfl

/-- Declaring a name, whether it was declared before or not. -/
theorem declare_onto (name : Token) (isFunction : Bool) :
    (r.onto ρ entries reports).declare (name.relabel ρ) isFunction
      = (r.declare name isFunction).onto ρ entries reports := by
  obtain ⟨_ | ⟨scope, outer⟩, es, rs⟩ := r
  · rfl
  · have slot := Scope.slot?_relabel ρ name.lexeme scope
    unfold declare
    dsimp only
    show (if (Scope.slot? name.lexeme (Scope.relabel ρ scope)).isSome then _ else _) = _
    rw [slot]
    split <;> rfl

theorem define_onto (name : Token) :
    (r.onto ρ entries reports).define (name.relabel ρ)
      = (r.define name).onto ρ entries reports := by
  obtain ⟨_ | ⟨scope, outer⟩, es, rs⟩ := r
  · rfl
  · show Resolution.mk (Scope.update name.lexeme _ (Scope.relabel ρ scope) :: _) _ _ = _
    rw [Scope.update_relabel ρ name.lexeme (f := ({ · with defined := true })) fun _ => rfl]
    rfl

/-- The entry of an occurrence is filed under its relabeled number. -/
theorem record_onto (id : OccurrenceId) (name : Token) :
    (r.onto ρ entries reports).record (ρ.id id) (name.relabel ρ)
      = (r.record id name).onto ρ entries reports := by
  unfold record
  dsimp only [onto]
  rw [Token.lexeme_relabel, Scope.locate_relabel]
  split <;> rfl

/-- Whether a name stands in its own initializer is a matter of the scopes. -/
theorem isBeingInitialized_onto (name : Token) :
    (r.onto ρ entries reports).isBeingInitialized (name.relabel ρ)
      = r.isBeingInitialized name := by
  obtain ⟨_ | ⟨scope, outer⟩, es, rs⟩ := r
  · rfl
  · show ((Scope.relabel ρ scope).find? name.lexeme).any _ = _
    rw [Scope.find?_relabel, Option.any_map]
    rfl

/-- **Reading a variable**: the report about an own initializer and the entry are
relabeled. -/
theorem read_onto (id : OccurrenceId) (name : Token) :
    (r.onto ρ entries reports).read (ρ.id id) (name.relabel ρ)
      = (r.read id name).onto ρ entries reports := by
  have checked : (if (r.onto ρ entries reports).isBeingInitialized (name.relabel ρ) then
      (r.onto ρ entries reports).report (.scoping (name.relabel ρ).place .readInOwnInitializer)
      else r.onto ρ entries reports)
      = (if r.isBeingInitialized name then r.report (.scoping name.place .readInOwnInitializer)
        else r).onto ρ entries reports := by
    rw [isBeingInitialized_onto]
    split <;> rfl
  unfold read
  dsimp only
  rw [checked, record_onto]
  dsimp only [onto]
  rw [Token.lexeme_relabel, Scope.markUsed_relabel]

/-- Declaring the parameters of a function, one after the other. -/
theorem declareParameters_onto (params : List Token) :
    (r.onto ρ entries reports).declareParameters (params.map (Token.relabel ρ))
      = (r.declareParameters params).onto ρ entries reports := by
  unfold declareParameters
  induction params generalizing r with
  | nil => rfl
  | cons p rest ih =>
    rw [List.map_cons, List.foldl_cons, List.foldl_cons, declare_onto, define_onto, ih]

end Resolution

open Resolution

mutual

/-- **Resolving a relabeled expression** gives the relabeled walk. -/
theorem Expr.resolve_onto : ∀ (e : Expr) (r : Resolution),
    (e.relabel ρ).resolve (r.onto ρ entries reports) = (e.resolve r).onto ρ entries reports
  | .literal _, r | .absent, r => by simp only [Expr.relabel, Expr.resolve]
  | .group e, r | .unary _ e, r => by simp only [Expr.relabel, Expr.resolve, e.resolve_onto]
  | .binary a _ b, r | .logical a _ b, r => by
    simp only [Expr.relabel, Expr.resolve, a.resolve_onto, b.resolve_onto]
  | .conditional a b c, r => by
    simp only [Expr.relabel, Expr.resolve, a.resolve_onto, b.resolve_onto, c.resolve_onto]
  | .var id name, r => by simp only [Expr.relabel, Expr.resolve, read_onto]
  | .assign id name e, r => by
    simp only [Expr.relabel, Expr.resolve, e.resolve_onto, record_onto]
  | .call f _ arguments, r => by
    simp only [Expr.relabel, Expr.resolve, f.resolve_onto, resolveArguments_onto arguments]

/-- The same for arguments. -/
theorem resolveArguments_onto : ∀ (es : List Expr) (r : Resolution),
    resolveArguments (relabelArguments ρ es) (r.onto ρ entries reports)
      = (resolveArguments es r).onto ρ entries reports
  | [], r => rfl
  | e :: rest, r => by
    rw [relabelArguments, resolveArguments, e.resolve_onto, resolveArguments_onto rest,
      resolveArguments]

end

variable (policy : Policy)

mutual

/-- **Resolving a relabeled statement.** -/
theorem Stmt.resolve_onto (inFunction : Bool) : ∀ (s : Stmt) (r : Resolution),
    (s.relabel ρ).resolve policy inFunction (r.onto ρ entries reports)
      = (s.resolve policy inFunction r).onto ρ entries reports
  | .expression e, r | .print e, r => by simp only [Stmt.relabel, Stmt.resolve, e.resolve_onto]
  | .var name e, r => by
    simp only [Stmt.relabel, Stmt.resolve, declare_onto, e.resolve_onto, define_onto]
  | .block body, r => by
    simp only [Stmt.relabel, Stmt.resolve, openScope_onto, resolveBody_onto inFunction body,
      closeScope_onto]
  | .branch e s s', r => by
    simp only [Stmt.relabel, Stmt.resolve, e.resolve_onto, s.resolve_onto inFunction,
      s'.resolve_onto inFunction]
  | .loop e s, r => by
    simp only [Stmt.relabel, Stmt.resolve, e.resolve_onto, s.resolve_onto inFunction]
  | .function name params body, r => by
    simp only [Stmt.relabel, Stmt.resolve, declare_onto, define_onto, openScope_onto,
      declareParameters_onto, resolveBody_onto true body, closeScope_onto]
  | .ret keyword e, r => by
    cases inFunction
    · have reported := report_onto ρ entries reports r
        (.scoping keyword.place .returnOutsideFunction)
      simp only [Stmt.relabel, Stmt.resolve, Bool.false_eq_true, if_false, ← e.resolve_onto]
      rw [← reported]
      rfl
    · simp only [Stmt.relabel, Stmt.resolve, if_true, e.resolve_onto]
  | .absent, r => by simp only [Stmt.relabel, Stmt.resolve]

/-- **Walking a relabeled body** on top of other entries and reports. -/
theorem resolveBody_onto (inFunction : Bool) : ∀ (body : List Stmt) (r : Resolution),
    resolveBody policy inFunction (relabelBody ρ body) (r.onto ρ entries reports)
      = (resolveBody policy inFunction body r).onto ρ entries reports
  | [], r => rfl
  | s :: rest, r => by
    rw [relabelBody, resolveBody, s.resolve_onto inFunction, resolveBody_onto inFunction rest,
      resolveBody]

end

/-! ## Programs -/

/-- **Resolving a relabeled program** gives the relabeled addresses and reports. -/
theorem resolve_relabel (program : Program) :
    resolve policy (relabelBody ρ program)
      = ⟨(resolve policy program).entries.map ρ.entry,
        (resolve policy program).reports.map (Report.relabel ρ)⟩ := by
  have walked := resolveBody_onto ρ [] [] policy false program {}
  have start : ({} : Resolution).onto ρ [] [] = {} := rfl
  rw [start] at walked
  unfold resolve
  dsimp only
  rw [walked]
  simp [onto, List.map_reverse]

/-- Statements are resolved one after the other. -/
theorem resolveBody_append (inFunction : Bool) (p q : List Stmt) (r : Resolution) :
    resolveBody policy inFunction (p ++ q) r
      = resolveBody policy inFunction q (resolveBody policy inFunction p r) := by
  induction p generalizing r with
  | nil => rfl
  | cons s rest ih => rw [List.cons_append, resolveBody, ih, resolveBody]

/-- The scopes of a program are closed behind it. -/
theorem scopes_resolveBody (program : Program) :
    (resolveBody policy false program {}).scopes = [] :=
  List.map_eq_nil_iff.1 (resolveBody_walked_global policy program (r := {}) rfl).flags

/-- **Two programs in a row are resolved one after the other.** -/
theorem resolve_append (p q : Program) :
    resolve policy (p ++ q)
      = ⟨(resolve policy p).entries ++ (resolve policy q).entries,
        (resolve policy p).reports ++ (resolve policy q).reports⟩ := by
  -- The walk over `q` starts on top of what the walk over `p` has found.
  have start : resolveBody policy false p {} = ({} : Resolution).onto {}
      (resolveBody policy false p {}).entries (resolveBody policy false p {}).reports := by
    have scopes := scopes_resolveBody policy p
    generalize resolveBody policy false p {} = r at scopes
    cases r
    cases scopes
    rfl
  have walked := resolveBody_onto {} (resolveBody policy false p {}).entries
    (resolveBody policy false p {}).reports policy false q {}
  rw [← start, relabelBody_nothing] at walked
  unfold resolve
  dsimp only
  rw [resolveBody_append, walked]
  have entry : (({} : Relabeling).entry) = id := rfl
  have report : Report.relabel {} = id := funext (Report.relabel_of_line {} fun _ => rfl)
  simp only [onto, entry, report, List.map_id, List.reverse_append]

end Kix
