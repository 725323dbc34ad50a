import Kix.Proofs.ProgramShape

/-!
# The outline of a program

What matters of a program to its names is which scopes it has, and what they declare and
mention. Its **outline** says this and nothing else. A scope is the list of its parts, in the
order in which they are come upon: declarations, occurrences of names, `return`s, and the
scopes inside it. The operators of expressions, branches and loops leave no trace.

A part is found by its **path**, a list of indices of which the first one counts in the
innermost scope. So the scope around a part has the path without its first index, and the
scope at distance `d` around it is reached by leaving out `d` more. The empty path is that of
the global scope.

Going through an outline from its beginning to its end makes **stops** (`Outline.stops`): it
passes each part that is no scope, and leaves each scope behind its last part. Every stop is
made once, and the order of the stops is an order of paths (`pairwise_stops`).
-/

namespace Kix

/-- A name that is declared, as that of a function or of another variable. -/
structure Declaration where
  name : Token
  isFunction : Bool
  deriving DecidableEq

/-- **A part of a scope.** -/
inductive Part where
  | declaration (d : Declaration)
  /-- An occurrence, and the variable in whose initializer it stands, if it does. -/
  | occurrence (o : Occurrence) (initialized : Option Token)
  | ret (keyword : Token)
  /-- A block; or a function, whose parameters and body share a scope. -/
  | scope (isFunction : Bool) (parts : List Part)

namespace Part

/-- The parts of a part that is a scope. -/
def parts? : Part → Option (List Part)
  | scope _ parts => some parts
  | declaration _ | occurrence _ _ | ret _ => none

/-- The declaration that a part is. -/
def declaration? : Part → Option Declaration
  | declaration d => some d
  | occurrence _ _ | ret _ | scope _ _ => none

/-- The occurrence that a part is. -/
def occurrence? : Part → Option Occurrence
  | occurrence o _ => some o
  | declaration _ | ret _ | scope _ _ => none

end Part

/-- The parts of a scope, in order. The outline of a program is that of the global scope. -/
abbrev Outline := List Part

/-- The occurrences of an expression, all of them in the initializer of the same variable or
in none. -/
def Expr.outline (initialized : Option Token) (e : Expr) : Outline :=
  e.occurrences.map (.occurrence · initialized)

mutual

/-- What a statement adds to the scope that it stands in. -/
def Stmt.outline : Stmt → Outline
  | .expression value | .print value => value.outline none
  | .var name initializer => .declaration ⟨name, false⟩ :: initializer.outline (some name)
  | .block body => [.scope false (bodyOutline body)]
  | .branch condition thenBranch elseBranch =>
    condition.outline none ++ (thenBranch.outline ++ elseBranch.outline)
  | .loop condition body => condition.outline none ++ body.outline
  | .function name params body =>
    [.declaration ⟨name, true⟩,
      .scope true (params.map (fun p => .declaration ⟨p, false⟩) ++ bodyOutline body)]
  | .ret keyword value => .ret keyword :: value.outline none
  | .absent => []

/-- **The outline of a body.** -/
def bodyOutline : List Stmt → Outline
  | [] => []
  | s :: rest => s.outline ++ bodyOutline rest

end

/-! ## Paths -/

/-- Indices, the one in the innermost scope first. -/
abbrev Path := List Nat

/-- **One path lies before another one**: they go through different parts of a scope that they
share, and the first one goes through the earlier part. -/
def Path.Before (p q : Path) : Prop :=
  ∃ (scope : Path) (i j : Nat), i < j ∧ (i :: scope) <:+ p ∧ (j :: scope) <:+ q

namespace Outline

/-- The parts of the scope at a path. -/
def scope? (root : Outline) : Path → Option Outline
  | [] => some root
  | i :: scope => ((scope? root scope).bind (·[i]?)).bind Part.parts?

/-- **The part at a path.** -/
def part? (root : Outline) : Path → Option Part
  | [] => none
  | i :: scope => (root.scope? scope).bind (·[i]?)

/-- The declaration at a path. -/
def declaration? (root : Outline) (path : Path) : Option Declaration :=
  (root.part? path).bind Part.declaration?

/-- The declarations in a scope before the part with the given index, in order. -/
def declarationsBefore (root : Outline) (scope : Path) (i : Nat) : List Path :=
  ((List.range i).map (· :: scope)).filter fun path => (root.declaration? path).isSome

/-- **The declarations in a scope**, in order. -/
def declarations (root : Outline) (scope : Path) : List Path :=
  root.declarationsBefore scope ((root.scope? scope).getD []).length

end Outline

namespace Path

variable {p q scope : Path} {i j : Nat}

/-- Paths that go through the same scope at the same depth go through the same part of it. -/
theorem cons_eq_of_suffix (hi : (i :: scope) <:+ p) (hj : (j :: scope) <:+ p) : i = j := by
  have same : (i :: scope) <:+ (j :: scope) := List.suffix_of_suffix_length_le hi hj (by simp)
  exact (List.cons_eq_cons.1 (same.eq_of_length (by simp))).1

theorem not_before_self (p : Path) : ¬ p.Before p := by
  rintro ⟨scope, i, j, lt, hi, hj⟩
  exact Nat.ne_of_lt lt (cons_eq_of_suffix hi hj)

/-- In one scope the index decides. -/
theorem before_cons_iff : Path.Before (i :: scope) (j :: scope) ↔ i < j := by
  constructor
  · rintro ⟨shared, a, b, lt, ha, hb⟩
    rcases List.suffix_cons_iff.1 ha with same | inner
    · obtain ⟨rfl, rfl⟩ := List.cons_eq_cons.1 same
      rwa [← cons_eq_of_suffix (List.suffix_refl _) hb] at lt
    · have outer := (List.suffix_cons_iff.1 hb).resolve_left fun same =>
        Nat.not_succ_le_self _ ((List.cons_eq_cons.1 same).2 ▸ inner.length_le)
      exact absurd (cons_eq_of_suffix inner outer) (Nat.ne_of_lt lt)
  · intro lt
    exact ⟨scope, i, j, lt, List.suffix_refl _, List.suffix_refl _⟩

/-- A part that lies before a place in a scope does so before all that comes later there. -/
theorem Before.mono (h : p.Before (i :: scope)) (le : i ≤ j) : p.Before (j :: scope) := by
  obtain ⟨shared, a, b, lt, ha, hb⟩ := h
  rcases List.suffix_cons_iff.1 hb with same | outer
  · obtain ⟨rfl, rfl⟩ := List.cons_eq_cons.1 same
    exact ⟨shared, a, j, Nat.lt_of_lt_of_le lt le, ha, List.suffix_refl _⟩
  · exact ⟨shared, a, b, lt, ha, outer.trans (List.suffix_cons j scope)⟩

/-- What lies before a scope lies before its parts. -/
theorem Before.enter (h : p.Before scope) (i : Nat) : p.Before (i :: scope) := by
  obtain ⟨shared, a, b, lt, ha, hb⟩ := h
  exact ⟨shared, a, b, lt, ha, hb.trans (List.suffix_cons i scope)⟩

/-- What lies before a place in a scope, or inside it, lies before what follows the scope. -/
theorem Before.leave (h : p.Before (j :: i :: scope)) : p.Before ((i + 1) :: scope) := by
  obtain ⟨shared, a, b, lt, ha, hb⟩ := h
  rcases List.suffix_cons_iff.1 hb with same | outer
  · obtain ⟨rfl, rfl⟩ := List.cons_eq_cons.1 same
    exact ⟨scope, i, i + 1, Nat.lt_succ_self i, (List.suffix_cons a _).trans ha,
      List.suffix_refl _⟩
  · exact Before.mono ⟨shared, a, b, lt, ha, outer⟩ (Nat.le_succ i)

end Path

/-! ## Stops -/

/-- **A stop on the way through an outline.** -/
inductive Stop where
  /-- At a part that is no scope. -/
  | passes (path : Path)
  /-- Behind the last part of a scope. -/
  | leaves (scope : Path)
  deriving DecidableEq

/-- Where a stop is. -/
def Stop.path : Stop → Path
  | passes path | leaves path => path

mutual

/-- The stops at a part. -/
def Part.stops (path : Path) : Part → List Stop
  | .scope _ parts => stopsFrom path 0 parts ++ [.leaves path]
  | .declaration _ | .occurrence _ _ | .ret _ => [.passes path]

/-- The stops at parts of a scope, of which the first one has the given index. -/
def stopsFrom (scope : Path) (i : Nat) : List Part → List Stop
  | [] => []
  | part :: rest => part.stops (i :: scope) ++ stopsFrom scope (i + 1) rest

end

/-- **The way through an outline**, from its beginning to its end. -/
def Outline.stops (root : Outline) : List Stop := stopsFrom [] 0 root

/-- **One stop comes before another one**: it lies before it, or it lies inside the scope that
the other one leaves. -/
inductive Stop.Precedes : Stop → Stop → Prop where
  | before {s t : Stop} (h : s.path.Before t.path) : Precedes s t
  | inside {s : Stop} {scope : Path} (h : scope <:+ s.path) (ne : s.path ≠ scope) :
    Precedes s (.leaves scope)

theorem Stop.not_precedes_self (s : Stop) : ¬ s.Precedes s := by
  rintro (h | ⟨-, ne⟩)
  · exact Path.not_before_self _ h
  · exact ne rfl

mutual

/-- The stops of a part are at it or inside of it. -/
theorem Part.suffix_of_mem_stops (path : Path) :
    ∀ (part : Part) {s : Stop}, s ∈ part.stops path → path <:+ s.path
  | .declaration _, _, h | .occurrence _ _, _, h | .ret _, _, h => by
    rw [Part.stops] at h
    rw [List.mem_singleton.1 h]
    exact List.suffix_refl _
  | .scope _ parts, s, h => by
    rw [Part.stops] at h
    rcases List.mem_append.1 h with inner | last
    · obtain ⟨j, -, inside⟩ := exists_suffix_of_mem_stopsFrom path 0 parts inner
      exact (List.suffix_cons j path).trans inside
    · rw [List.mem_singleton.1 last]
      exact List.suffix_refl _

/-- The stops of a scope lie inside its parts. -/
theorem exists_suffix_of_mem_stopsFrom (scope : Path) (i : Nat) :
    ∀ (parts : List Part) {s : Stop}, s ∈ stopsFrom scope i parts →
      ∃ j, i ≤ j ∧ (j :: scope) <:+ s.path
  | [], _, h => absurd h List.not_mem_nil
  | part :: rest, s, h => by
    rw [stopsFrom] at h
    rcases List.mem_append.1 h with first | later
    · exact ⟨i, Nat.le_refl i, part.suffix_of_mem_stops (i :: scope) first⟩
    · obtain ⟨j, le, inside⟩ := exists_suffix_of_mem_stopsFrom scope (i + 1) rest later
      exact ⟨j, Nat.le_of_succ_le le, inside⟩

end

mutual

/-- **The stops of a part are in the order of the text.** -/
theorem Part.pairwise_stops (path : Path) :
    ∀ part : Part, (part.stops path).Pairwise Stop.Precedes
  | .declaration _ | .occurrence _ _ | .ret _ => by
    rw [Part.stops]
    exact List.pairwise_singleton _ _
  | .scope _ parts => by
    rw [Part.stops, List.pairwise_append]
    refine ⟨pairwise_stopsFrom path 0 parts, List.pairwise_singleton _ _, ?_⟩
    intro s hs t ht
    obtain ⟨j, -, inside⟩ := exists_suffix_of_mem_stopsFrom path 0 parts hs
    rw [List.mem_singleton.1 ht]
    refine .inside ((List.suffix_cons j path).trans inside) fun same => ?_
    have shorter := inside.length_le
    rw [same, List.length_cons] at shorter
    exact Nat.not_succ_le_self _ shorter

/-- The same for the parts of a scope. -/
theorem pairwise_stopsFrom (scope : Path) (i : Nat) :
    ∀ parts : List Part, (stopsFrom scope i parts).Pairwise Stop.Precedes
  | [] => by
    rw [stopsFrom]
    exact List.Pairwise.nil
  | part :: rest => by
    rw [stopsFrom, List.pairwise_append]
    refine ⟨part.pairwise_stops _, pairwise_stopsFrom scope (i + 1) rest, ?_⟩
    intro s hs t ht
    obtain ⟨j, le, inside⟩ := exists_suffix_of_mem_stopsFrom scope (i + 1) rest ht
    exact .before ⟨scope, i, j, le, part.suffix_of_mem_stops _ hs, inside⟩

end

namespace Outline

variable {root : Outline}

/-- **The stops are in order.** -/
theorem pairwise_stops (root : Outline) : root.stops.Pairwise Stop.Precedes :=
  pairwise_stopsFrom [] 0 root

/-- No stop is made twice. -/
theorem nodup_stops (root : Outline) : root.stops.Nodup := by
  refine List.Pairwise.imp ?_ root.pairwise_stops
  rintro s _ h rfl
  exact s.not_precedes_self h

theorem scope?_cons {scope : Path} {i : Nat} :
    root.scope? (i :: scope) = (root.part? (i :: scope)).bind Part.parts? := rfl

theorem part?_cons {scope : Path} {i : Nat} {parts : Outline}
    (h : root.scope? scope = some parts) : root.part? (i :: scope) = parts[i]? := by
  rw [part?, h, Option.bind_some]

/-- The part at a path is in the scope that the rest of the path leads to. -/
theorem exists_scope_of_part? {scope : Path} {i : Nat} {part : Part}
    (h : root.part? (i :: scope) = some part) :
    ∃ parts, root.scope? scope = some parts ∧ parts[i]? = some part :=
  Option.bind_eq_some_iff.1 h

/-- A part that is a scope leads to its own parts. -/
theorem scope?_of_part? {path : Path} {isFunction : Bool} {parts : List Part}
    (h : root.part? path = some (.scope isFunction parts)) : root.scope? path = some parts := by
  cases path with
  | nil => nomatch h
  | cons i scope => rw [scope?_cons, h]; rfl

/-- Around a scope that is not the global one there is another one. -/
theorem exists_outer {scope : Path} {i : Nat} {parts : Outline}
    (h : root.scope? (i :: scope) = some parts) :
    ∃ outer isFunction, root.scope? scope = some outer ∧
      outer[i]? = some (.scope isFunction parts) := by
  rw [scope?_cons] at h
  obtain ⟨part, hpart, hparts⟩ := Option.bind_eq_some_iff.1 h
  obtain ⟨outer, houter, found⟩ := exists_scope_of_part? hpart
  cases part with
  | scope isFunction inner =>
    cases hparts
    exact ⟨outer, isFunction, houter, found⟩
  | declaration | occurrence | ret => nomatch hparts

theorem mem_stopsFrom_of_getElem? (scope : Path) {parts : List Part} {j : Nat} {part : Part}
    (h : parts[j]? = some part) (i : Nat) {s : Stop} (hs : s ∈ part.stops ((i + j) :: scope)) :
    s ∈ stopsFrom scope i parts := by
  induction parts generalizing i j with
  | nil => nomatch h
  | cons first rest ih =>
    rw [stopsFrom]
    cases j with
    | zero =>
      cases h
      exact List.mem_append_left _ hs
    | succ j =>
      refine List.mem_append_right _ (ih h (i + 1) ?_)
      rwa [Nat.add_right_comm]

/-- **The stops of a scope are among those of the scopes around it.** -/
theorem stopsFrom_subset {outer scope : Path} {parts parts' : Outline}
    (houter : root.scope? outer = some parts) (inside : outer <:+ scope)
    (hscope : root.scope? scope = some parts') {s : Stop} (hs : s ∈ stopsFrom scope 0 parts') :
    s ∈ stopsFrom outer 0 parts := by
  induction scope generalizing parts' with
  | nil =>
    obtain rfl := List.suffix_nil.1 inside
    cases houter.symm.trans hscope
    exact hs
  | cons i scope ih =>
    rcases List.suffix_cons_iff.1 inside with rfl | inside
    · cases houter.symm.trans hscope
      exact hs
    · obtain ⟨between, isFunction, hbetween, found⟩ := exists_outer hscope
      refine ih inside hbetween (mem_stopsFrom_of_getElem? scope found 0 ?_)
      rw [Part.stops, Nat.zero_add]
      exact List.mem_append_left _ hs

/-- Whatever lies inside a scope is passed on the way through it. -/
theorem passes_mem_stopsFrom {outer path : Path} {parts : Outline} {part : Part}
    (houter : root.scope? outer = some parts) (inside : outer <:+ path) (ne : path ≠ outer)
    (found : root.part? path = some part) (plain : part.parts? = none) :
    .passes path ∈ stopsFrom outer 0 parts := by
  cases path with
  | nil => nomatch found
  | cons i scope =>
    obtain ⟨parts', hscope, hpart⟩ := exists_scope_of_part? found
    have inside := (List.suffix_cons_iff.1 inside).resolve_left fun same => ne same.symm
    refine stopsFrom_subset houter inside hscope (mem_stopsFrom_of_getElem? scope hpart 0 ?_)
    rw [Nat.zero_add]
    cases part with
    | scope => nomatch plain
    | declaration | occurrence | ret => rw [Part.stops]; exact List.mem_singleton_self _

end Outline

/-- What a stop is at, in an outline. -/
def Stop.IsIn (root : Outline) : Stop → Prop
  | passes path => ∃ part, root.part? path = some part ∧ part.parts? = none
  | leaves scope => scope ≠ [] ∧ (root.scope? scope).isSome

mutual

/-- Whatever a part stops at is in the outline. -/
theorem Part.isIn_of_mem_stops {root : Outline} (path : Path) :
    ∀ (part : Part), root.part? path = some part → ∀ {s : Stop}, s ∈ part.stops path → s.IsIn root
  | .declaration _, found, _, h | .occurrence _ _, found, _, h | .ret _, found, _, h => by
    rw [Part.stops] at h
    rw [List.mem_singleton.1 h]
    exact ⟨_, found, rfl⟩
  | .scope isFunction parts, found, s, h => by
    have hscope := Outline.scope?_of_part? found
    rw [Part.stops] at h
    rcases List.mem_append.1 h with inner | last
    · refine isIn_of_mem_stopsFrom path 0 parts (fun j => ?_) inner
      rw [Nat.zero_add, Outline.part?_cons hscope]
    · rw [List.mem_singleton.1 last]
      refine ⟨?_, by rw [hscope]; rfl⟩
      rintro rfl
      nomatch found

theorem isIn_of_mem_stopsFrom {root : Outline} (scope : Path) (i : Nat) :
    ∀ (parts : List Part), (∀ j, root.part? ((i + j) :: scope) = parts[j]?) →
      ∀ {s : Stop}, s ∈ stopsFrom scope i parts → s.IsIn root
  | [], _, _, h => absurd h List.not_mem_nil
  | part :: rest, found, s, h => by
    rw [stopsFrom] at h
    rcases List.mem_append.1 h with first | later
    · exact part.isIn_of_mem_stops (i :: scope) (found 0) first
    · refine isIn_of_mem_stopsFrom scope (i + 1) rest (fun j => ?_) later
      rw [Nat.add_right_comm]
      exact found (j + 1)

end

/-- **Every part is passed, and every scope is left.** -/
theorem Outline.mem_stops_iff {root : Outline} {s : Stop} : s ∈ root.stops ↔ s.IsIn root := by
  constructor
  · exact isIn_of_mem_stopsFrom [] 0 root fun j => by rw [Nat.zero_add]; rfl
  · intro h
    cases s with
    | passes path =>
      obtain ⟨part, found, plain⟩ := h
      refine passes_mem_stopsFrom (rfl : root.scope? [] = some root) List.nil_suffix ?_ found plain
      rintro rfl
      nomatch found
    | leaves scope =>
      obtain ⟨ne, hscope⟩ := h
      obtain ⟨parts, hparts⟩ := Option.isSome_iff_exists.1 hscope
      cases scope with
      | nil => exact absurd rfl ne
      | cons i scope =>
        obtain ⟨outer, isFunction, houter, found⟩ := exists_outer hparts
        refine stopsFrom_subset (rfl : root.scope? [] = some root) List.nil_suffix houter
          (mem_stopsFrom_of_getElem? scope found 0 ?_)
        rw [Part.stops, Nat.zero_add]
        exact List.mem_append_right _ (List.mem_singleton_self _)

end Kix
