import Kix.Proofs.Outline
import Kix.Proofs.Sites

/-!
# Resolving a program is walking its outline

The walk over a program marks a variable as not defined while its initializer is walked, and
asks for the mark at every read. In an outline each occurrence says itself in which
initializer it stands. So a walk over the outline needs no marks: it defines each name as soon
as it is declared (`Part.walk`), and it finds the same (`resolveBody_eq_walk`).

What has to be shown is that defining a variable early makes no difference to anything but the
mark: neither to where a name leads, nor to which variables have been read
(`Resolution.define_visitAs`).
-/

namespace Kix

namespace Scope

/-- A change adds no declaration. -/
theorem length_update (name : String) (f : Binding → Binding) (scope : Scope) :
    (update name f scope).length = scope.length := by
  induction scope with
  | nil => rfl
  | cons b older ih =>
    rw [update]
    split
    · rfl
    · rw [List.length_cons, List.length_cons, ih]

variable {f g : Binding → Binding}

/-- Changing declarations leaves their slots alone. -/
theorem slot?_update (hf : ∀ b, (f b).name = b.name) (x name : String) (scope : Scope) :
    slot? x (update name f scope) = slot? x scope := by
  induction scope with
  | nil => rfl
  | cons b older ih =>
    rw [update]
    split
    · rw [slot?, slot?, hf]
    · rw [slot?, slot?, length_update, ih]

theorem slot?_update_defined (x name : String) (scope : Scope) :
    slot? x (update name ({ · with defined := true }) scope) = slot? x scope := by
  apply slot?_update
  intro b
  rfl

/-- Changes of different kinds can be made in either order. -/
theorem update_comm (hf : ∀ b, (f b).name = b.name) (hg : ∀ b, (g b).name = b.name)
    (comm : ∀ b, f (g b) = g (f b)) (x y : String) (scope : Scope) :
    update x f (update y g scope) = update y g (update x f scope) := by
  induction scope with
  | nil => rfl
  | cons b older ih =>
    by_cases hx : b.name.lexeme == x <;> by_cases hy : b.name.lexeme == y <;>
      simp [update, hx, hy, hf, hg, comm, ih]

end Scope

namespace Resolution

variable (r : Resolution)

/-- Resolving one occurrence of which it is known whether it reads a variable in that
variable's own initializer. -/
def visitAs (own : Bool) (o : Occurrence) : Resolution :=
  let checked := if own then r.report (.scoping o.name.place .readInOwnInitializer) else r
  let recorded := checked.record o.id o.name
  if o.reads then { recorded with scopes := Scope.markUsed o.name.lexeme recorded.scopes }
  else recorded

/-- Whether a variable is read in its own initializer is asked where it is read. -/
theorem visit_eq_visitAs (o : Occurrence) :
    r.visit o = r.visitAs (o.reads && r.isBeingInitialized o.name) o := by
  unfold visit visitAs
  cases o.reads <;> rfl

/-- Defining a variable and reporting can be done in either order. -/
theorem define_report (x : Token) (report : Report) :
    (r.report report).define x = (r.define x).report report := by
  obtain ⟨_ | ⟨scope, outer⟩, entries, reports⟩ := r <;> rfl

/-- Where a name leads does not depend on what is defined. -/
theorem locate_define (x : Token) (name : String) :
    Scope.locate name (r.define x).scopes = Scope.locate name r.scopes := by
  unfold define
  split
  · rfl
  · next scope outer hscopes =>
    rw [hscopes, Scope.locate, Scope.locate, Scope.slot?_update_defined]

/-- Defining a variable and recording an occurrence can be done in either order. -/
theorem define_record (x : Token) (id : OccurrenceId) (name : Token) :
    (r.record id name).define x = (r.define x).record id name := by
  unfold record
  rw [locate_define]
  split
  · obtain ⟨_ | ⟨scope, outer⟩, entries, reports⟩ := r <;> rfl
  · rfl

/-- Marking what was read and what was defined can be done in either order. -/
theorem define_markUsed (x : Token) (name : String) :
    define x { r with scopes := Scope.markUsed name r.scopes }
      = { r.define x with scopes := Scope.markUsed name (r.define x).scopes } := by
  obtain ⟨_ | ⟨scope, outer⟩, entries, reports⟩ := r
  · rfl
  · have comm := Scope.update_comm (f := ({ · with defined := true }))
      (g := ({ · with used := true })) (fun _ => rfl) (fun _ => rfl) (fun _ => rfl) x.lexeme name
      scope
    by_cases here : (Scope.slot? name scope).isSome = true
    · simp only [define, Scope.markUsed, Scope.slot?_update_defined, if_pos here, comm]
    · simp only [define, Scope.markUsed, Scope.slot?_update_defined, if_neg here]

/-- **Defining a variable does not change what else is found at an occurrence.** -/
theorem define_visitAs (x : Token) (own : Bool) (o : Occurrence) :
    (r.visitAs own o).define x = (r.define x).visitAs own o := by
  have checked :
      (if own then r.report (.scoping o.name.place .readInOwnInitializer) else r).define x
      = if own then (r.define x).report (.scoping o.name.place .readInOwnInitializer)
        else r.define x := by
    split
    · exact r.define_report x _
    · rfl
  unfold visitAs
  dsimp only
  rw [← checked]
  split
  · rw [define_markUsed, define_record]
  · rw [define_record]

variable {r}

/-- Where all names are defined, none is being initialized. -/
theorem isBeingInitialized_of_defined {Γ : Context} (h : r.flags = Γ.defined) (name : Token) :
    r.isBeingInitialized name = false := by
  rw [isBeingInitialized_eq, h]
  cases Γ with
  | nil => rfl
  | cons scope outer => exact Context.find?_defined scope name.lexeme

/-- While a variable is being declared there are as many scopes. -/
theorem isEmpty_scopes_of_pending {Γ : Context} {x : String} (h : r.flags = Γ.pending x) :
    r.scopes.isEmpty = Γ.isEmpty := by
  have flags : r.flags.isEmpty = r.scopes.isEmpty := List.isEmpty_map
  rw [← flags, h]
  cases Γ <;> rfl

theorem isEmpty_scopes_define (r : Resolution) (x : Token) :
    (r.define x).scopes.isEmpty = r.scopes.isEmpty := by
  unfold define
  split
  · rfl
  · next scope outer hscopes => rw [hscopes]; rfl

end Resolution

open Resolution

/-! ## The walk over an outline -/

variable (policy : Policy)

mutual

/-- Walking a part of a scope, inside a function or outside all of them. -/
def Part.walk (inFunction : Bool) : Part → Resolution → Resolution
  | .declaration d, r => (r.declare d.name d.isFunction).define d.name
  | .occurrence o initialized, r =>
    r.visitAs (o.reads && (!r.scopes.isEmpty && initialized.any (·.lexeme == o.name.lexeme))) o
  | .ret keyword, r =>
    if inFunction then r else r.report (.scoping keyword.place .returnOutsideFunction)
  | .scope isFunction parts, r =>
    (walkParts (inFunction || isFunction) parts r.openScope).closeScope policy

/-- **Walking the parts of a scope.** -/
def walkParts (inFunction : Bool) : List Part → Resolution → Resolution
  | [], r => r
  | part :: rest, r => walkParts inFunction rest (part.walk inFunction r)

end

/-- Parts are walked one after the other. -/
theorem walkParts_append (inFunction : Bool) (parts parts' : List Part) (r : Resolution) :
    walkParts policy inFunction (parts ++ parts') r
      = walkParts policy inFunction parts' (walkParts policy inFunction parts r) := by
  induction parts generalizing r with
  | nil => rfl
  | cons part rest ih => rw [List.cons_append, walkParts, ih, walkParts]

theorem walkParts_singleton (inFunction : Bool) (part : Part) (r : Resolution) :
    walkParts policy inFunction [part] r = part.walk policy inFunction r := by
  rw [walkParts, walkParts]

/-! ## Expressions -/

/-- Where all names are defined, the outline has nothing to add to an occurrence. -/
theorem Expr.resolve_eq_walk (inFunction : Bool) (e : Expr) {Γ : Context} {r : Resolution}
    (h : r.flags = Γ.defined) :
    e.resolve r = walkParts policy inFunction (e.outline none) r := by
  rw [Expr.resolve_eq_foldl, Expr.outline]
  induction e.occurrences generalizing r with
  | nil => rw [List.foldl_nil, List.map_nil, walkParts]
  | cons o rest ih =>
    have first : r.visit o = (Part.occurrence o none).walk policy inFunction r := by
      rw [visit_eq_visitAs, isBeingInitialized_of_defined h, Part.walk, Option.any_none,
        Bool.and_false, Bool.and_false, Bool.and_false]
    rw [List.foldl_cons, List.map_cons, walkParts, ← first]
    exact ih ((r.flags_visit o).trans h)

/-- **In an initializer** the variable may as well be defined before as behind it. -/
theorem Expr.define_resolve_eq_walk (inFunction : Bool) (e : Expr) (x : Token) {Γ : Context}
    {r : Resolution} (h : r.flags = Γ.pending x.lexeme) :
    (e.resolve r).define x
      = walkParts policy inFunction (e.outline (some x)) (r.define x) := by
  rw [Expr.resolve_eq_foldl, Expr.outline]
  induction e.occurrences generalizing r with
  | nil => rw [List.foldl_nil, List.map_nil, walkParts]
  | cons o rest ih =>
    -- the mark says of the variable what the outline says of the occurrence
    have own : r.isBeingInitialized o.name
        = (!(r.define x).scopes.isEmpty && (some x).any (·.lexeme == o.name.lexeme)) := by
      rw [isBeingInitialized_of_pending h, isEmpty_scopes_define, isEmpty_scopes_of_pending h]
      cases Γ <;> rfl
    have first : (r.visit o).define x
        = (Part.occurrence o (some x)).walk policy inFunction (r.define x) := by
      rw [visit_eq_visitAs, define_visitAs, own, Part.walk]
    rw [List.foldl_cons, List.map_cons, walkParts, ← first]
    exact ih ((r.flags_visit o).trans h)

/-! ## Statements -/

/-- Declaring parameters is walking their declarations. -/
theorem declareParameters_eq_walk (inFunction : Bool) (params : List Token) (r : Resolution) :
    r.declareParameters params
      = walkParts policy inFunction (params.map fun p => .declaration ⟨p, false⟩) r := by
  unfold declareParameters
  induction params generalizing r with
  | nil => rw [List.foldl_nil, List.map_nil, walkParts]
  | cons p rest ih => rw [List.foldl_cons, List.map_cons, walkParts, ih, Part.walk]

mutual

/-- **Resolving a statement is walking its outline.** -/
theorem Stmt.resolve_eq_walk (inFunction : Bool) :
    ∀ (s : Stmt) {Γ : Context} {r : Resolution}, r.flags = Γ.defined →
      s.resolve policy inFunction r = walkParts policy inFunction s.outline r
  | .expression value, _, _, h | .print value, _, _, h => by
    rw [Stmt.resolve, Stmt.outline]
    exact value.resolve_eq_walk policy inFunction h
  | .var name initializer, _, r, h => by
    rw [Stmt.resolve, Stmt.outline, walkParts, Part.walk]
    exact initializer.define_resolve_eq_walk policy inFunction name (flags_declare h name false)
  | .block body, Γ, r, h => by
    have opened : r.openScope.flags = Context.defined ([] :: Γ) := congrArg ([] :: ·) h
    rw [Stmt.resolve, Stmt.outline, walkParts_singleton, Part.walk, Bool.or_false,
      resolveBody_eq_walk inFunction body opened]
  | .branch condition thenBranch elseBranch, Γ, r, h => by
    have first := condition.resolve_walked h
    have second := thenBranch.resolve_walked policy inFunction Γ _ first.flags
    rw [Stmt.resolve, Stmt.outline, walkParts_append, walkParts_append,
      elseBranch.resolve_eq_walk inFunction second.flags,
      thenBranch.resolve_eq_walk inFunction first.flags,
      condition.resolve_eq_walk policy inFunction h]
  | .loop condition body, Γ, r, h => by
    have first := condition.resolve_walked h
    rw [Stmt.resolve, Stmt.outline, walkParts_append, body.resolve_eq_walk inFunction first.flags,
      condition.resolve_eq_walk policy inFunction h]
  | .function name params body, Γ, r, h => by
    have declared := flags_define (flags_declare h name true)
    have opened : ((r.declare name true).define name).openScope.flags
        = Context.defined ([] :: Γ.declare name.lexeme) := congrArg ([] :: ·) declared
    have inside := (declareParameters_spec params opened).1
    rw [Stmt.resolve, Stmt.outline, walkParts, walkParts_singleton, Part.walk, Part.walk,
      Bool.or_true, walkParts_append, ← declareParameters_eq_walk,
      ← resolveBody_eq_walk true body inside]
  | .ret keyword value, _, r, h => by
    have kept : (if inFunction then r
        else r.report (.scoping keyword.place .returnOutsideFunction)).flags = r.flags := by
      split <;> rfl
    rw [Stmt.resolve, Stmt.outline, walkParts, Part.walk]
    exact value.resolve_eq_walk policy inFunction (kept.trans h)
  | .absent, _, _, _ => by
    rw [Stmt.resolve, Stmt.outline, walkParts]

/-- **Walking a body is walking its outline.** -/
theorem resolveBody_eq_walk (inFunction : Bool) :
    ∀ (body : List Stmt) {Γ : Context} {r : Resolution}, r.flags = Γ.defined →
      resolveBody policy inFunction body r = walkParts policy inFunction (bodyOutline body) r
  | [], _, _, _ => by rw [resolveBody, bodyOutline, walkParts]
  | s :: rest, Γ, r, h => by
    have first := s.resolve_walked policy inFunction Γ r h
    rw [resolveBody, bodyOutline, walkParts_append, resolveBody_eq_walk inFunction rest first.flags,
      s.resolve_eq_walk inFunction h]

end

end Kix
