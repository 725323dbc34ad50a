import Mathlib.Data.List.Forall2
import Kix.Proofs.ResolvedOutline

/-!
# The rules of scoping

A `return` has to stand inside a function, a scope may declare a name only once, and the
initializer of a local variable may not read it. `Outline.Breaks` says what it is to break one
of these rules, about the outline of a program and nothing else.

If unused variables are not looked for, the reports of resolving are the broken rules, one
report for each, in the order of the program (`reports_are_broken_rules`). The checks that
resolving makes (`Outline.violation?`) go by flags: whether it is inside a function, whether
the innermost scope knows a name. Each flag is shown to mean what its rule says.
-/

namespace Kix

namespace Outline

section Rules

variable (root : Outline)

/-- **A part breaks a rule**: its path, the token to blame, and the wording of the report. -/
inductive Breaks : Path → Token → String → Prop where
  /-- None of the scopes around a `return` is that of a function. -/
  | returnsOutside {scope : Path} {i : Nat} {keyword : Token}
    (found : root.part? (i :: scope) = some (.ret keyword))
    (outside : ∀ outer parts, outer <:+ scope → root.part? outer ≠ some (.scope true parts)) :
    Breaks (i :: scope) keyword "Can't return from outside function."
  /-- The same scope, which is not the global one, has declared the name before. -/
  | redeclares {scope : Path} {i j : Nat} {d d' : Declaration} (isLocal : scope ≠ [])
    (found : root.part? (i :: scope) = some (.declaration d)) (before : j < i)
    (found' : root.part? (j :: scope) = some (.declaration d'))
    (same : d'.name.lexeme = d.name.lexeme) :
    Breaks (i :: scope) d.name "Variable with this name already declared in this scope."
  /-- The name that is read is the one of the local variable that is being initialized. -/
  | readsItself {scope : Path} {i : Nat} {o : Occurrence} {x : Token} (isLocal : scope ≠ [])
    (found : root.part? (i :: scope) = some (.occurrence o (some x))) (reads : o.reads = true)
    (same : x.lexeme = o.name.lexeme) :
    Breaks (i :: scope) o.name "Can't read local variable in its own initializer."

end Rules

variable {root : Outline} {scope path : Path} {i : Nat} {name : String}

/-- A scope is inside a function if it, or one around it, is the body of one. -/
theorem inFunction_eq_true_iff :
    root.inFunction scope = true ↔
      ∃ outer parts, outer <:+ scope ∧ root.part? outer = some (.scope true parts) := by
  induction scope with
  | nil =>
    refine iff_of_false Bool.false_ne_true ?_
    rintro ⟨outer, parts, inside, found⟩
    rw [List.suffix_nil.1 inside] at found
    nomatch found
  | cons i scope ih =>
    rw [inFunction, Bool.or_eq_true, ih, Option.any_eq_true]
    constructor
    · rintro (⟨part, found, function⟩ | ⟨outer, parts, inside, found⟩)
      · cases part with
        | scope isFunction parts =>
          obtain rfl : isFunction = true := function
          exact ⟨i :: scope, parts, List.suffix_refl _, found⟩
        | declaration | occurrence | ret => nomatch function
      · exact ⟨outer, parts, inside.trans (List.suffix_cons i scope), found⟩
    · rintro ⟨outer, parts, inside, found⟩
      rcases List.suffix_cons_iff.1 inside with rfl | inside
      · exact .inl ⟨_, found, rfl⟩
      · exact .inr ⟨outer, parts, inside, found⟩

/-- A name was declared earlier in a scope. -/
theorem isSome_latest?_iff :
    (root.latest? name scope i).isSome ↔
      ∃ j d, j < i ∧ root.part? (j :: scope) = some (.declaration d) ∧ d.name.lexeme = name := by
  constructor
  · intro h
    obtain ⟨_, latest⟩ := Option.isSome_iff_exists.1 h
    obtain ⟨j, rfl, lt, found, -⟩ := latest?_eq_some_iff.1 latest
    obtain ⟨d, found⟩ := declares_eq_true_iff.1 found
    exact ⟨j, d, lt, found⟩
  · rintro ⟨j, d, lt, found⟩
    refine Option.isSome_iff_ne_none.2 fun none => ?_
    have missing := latest?_eq_none_iff.1 none j lt
    exact Bool.false_ne_true (missing.symm.trans (declares_eq_true_iff.2 ⟨d, found⟩))

/-- **What is reported breaks a rule.** -/
theorem breaks_of_violation? {report : Report} (h : root.violation? path = some report) :
    ∃ token problem, root.Breaks path token problem.message ∧
      report = .scoping token.place problem := by
  cases path with
  | nil => nomatch h
  | cons i scope =>
    rw [violation?] at h
    split at h
    · next d found =>
      split at h
      · next duplicate =>
        cases h
        rw [Bool.and_eq_true, Bool.not_eq_true', List.isEmpty_eq_false_iff, isSome_latest?_iff]
          at duplicate
        obtain ⟨isLocal, j, d', lt, found', same⟩ := duplicate
        exact ⟨_, _, .redeclares isLocal found lt found' same, rfl⟩
      · nomatch h
    · next o initialized found =>
      split at h
      · next own =>
        cases h
        rw [Bool.and_eq_true, Bool.and_eq_true, Bool.not_eq_true', List.isEmpty_eq_false_iff,
          Option.any_eq_true] at own
        obtain ⟨reads, isLocal, x, rfl, same⟩ := own
        exact ⟨_, _, .readsItself isLocal found reads (eq_of_beq same), rfl⟩
      · nomatch h
    · next keyword found =>
      split at h
      · nomatch h
      · next outside =>
        cases h
        refine ⟨_, _, .returnsOutside found fun outer parts inside function => ?_, rfl⟩
        exact outside (inFunction_eq_true_iff.2 ⟨outer, parts, inside, function⟩)
    · nomatch h
    · nomatch h

/-- **What breaks a rule is reported.** -/
theorem Breaks.isSome_violation? {token : Token} {text : String}
    (h : root.Breaks path token text) : (root.violation? path).isSome := by
  cases h with
  | returnsOutside found outside =>
    have not : ¬ root.inFunction _ = true := fun inside => by
      obtain ⟨outer, parts, inside, function⟩ := inFunction_eq_true_iff.1 inside
      exact outside outer parts inside function
    rw [violation?, found]
    dsimp only
    rw [if_neg not]
    rfl
  | redeclares isLocal found lt found' same =>
    have duplicate := isSome_latest?_iff.2 ⟨_, _, lt, found', same⟩
    rw [violation?, found]
    dsimp only
    rw [duplicate, List.isEmpty_eq_false_iff.2 isLocal]
    rfl
  | readsItself isLocal found reads same =>
    rw [violation?, found]
    dsimp only
    rw [reads, List.isEmpty_eq_false_iff.2 isLocal, Option.any_some, beq_iff_eq.2 same]
    rfl

/-! ## The reports -/

/-- What breaks a rule is a part without parts of its own. -/
theorem Breaks.exists_part {token : Token} {text : String} (h : root.Breaks path token text) :
    ∃ part, root.part? path = some part ∧ part.parts? = none := by
  cases h with
  | returnsOutside found | redeclares _ found | readsItself _ found => exact ⟨_, found, rfl⟩

end Outline

/-- The path of the part that is passed at a stop. -/
def Stop.passed? : Stop → Option Path
  | passes path => some path
  | leaves _ => none

namespace Outline

variable {root : Outline} {path : Path}

theorem mem_filterMap_passed? :
    path ∈ root.stops.filterMap Stop.passed? ↔
      ∃ part, root.part? path = some part ∧ part.parts? = none := by
  rw [List.mem_filterMap]
  constructor
  · rintro ⟨s, hs, hp⟩
    cases s with
    | passes => cases hp; exact mem_stops_iff.1 hs
    | leaves => nomatch hp
  · intro h
    exact ⟨.passes path, mem_stops_iff.2 h, rfl⟩

/-- **The parts are passed in the order of the text.** -/
theorem pairwise_filterMap_passed? :
    (root.stops.filterMap Stop.passed?).Pairwise Path.Before := by
  rw [List.pairwise_filterMap]
  refine root.pairwise_stops.imp fun {s t} precedes p hp q hq => ?_
  cases s with
  | leaves => nomatch hp
  | passes =>
    cases t with
    | leaves => nomatch hq
    | passes =>
      cases hp
      cases hq
      obtain ⟨before⟩ := precedes
      exact before

/-- If unused variables are not looked for, leaving a scope reports nothing. -/
theorem reportsAt_off (checkFunctions : Bool) (s : Stop) :
    root.reportsAt ⟨.off, checkFunctions⟩ s = (s.passed?.bind root.violation?).toList := by
  cases s with
  | passes path => rfl
  | leaves scope =>
    refine List.filterMap_eq_nil_iff.2 fun d _ => Option.bind_eq_none_iff.2 fun b _ => ?_
    unfold Resolution.unusedReport?
    split <;> rfl

end Outline

/-- If unused variables are not looked for, the reports are the broken rules. -/
theorem reports_resolve_off (checkFunctions : Bool) (program : Program) :
    (resolve ⟨.off, checkFunctions⟩ program).reports
      = ((bodyOutline program).stops.filterMap Stop.passed?).filterMap
        (bodyOutline program).violation? := by
  rw [reports_resolve, List.filterMap_filterMap, List.filterMap_eq_flatMap_toList]
  exact congrFun (congrArg List.flatMap (funext (Outline.reportsAt_off checkFunctions))) _

/-- **The reports are the broken rules.** If unused variables are not looked for, each report
blames a part of the program that breaks a rule, and has the wording of the rule. Every part
that breaks one is blamed, once, and earlier parts are blamed first. -/
theorem reports_are_broken_rules (checkFunctions : Bool) (program : Program) :
    ∃ paths : List Path, paths.Pairwise Path.Before ∧
      (∀ path, path ∈ paths ↔ ∃ token text, (bodyOutline program).Breaks path token text) ∧
      List.Forall₂
        (fun path report => ∃ token problem,
          (bodyOutline program).Breaks path token problem.message ∧
            report = .scoping token.place problem)
        paths (resolve ⟨.off, checkFunctions⟩ program).reports := by
  rw [reports_resolve_off]
  generalize bodyOutline program = root
  refine ⟨(root.stops.filterMap Stop.passed?).filter fun path => (root.violation? path).isSome,
    Outline.pairwise_filterMap_passed?.filter _, fun path => ?_, ?_⟩
  · rw [List.mem_filter, Outline.mem_filterMap_passed?]
    constructor
    · rintro ⟨-, reported⟩
      obtain ⟨report, reported⟩ := Option.isSome_iff_exists.1 reported
      obtain ⟨token, problem, breaks, -⟩ := Outline.breaks_of_violation? reported
      exact ⟨token, problem.message, breaks⟩
    · rintro ⟨token, text, breaks⟩
      exact ⟨breaks.exists_part, breaks.isSome_violation?⟩
  · induction root.stops.filterMap Stop.passed? with
    | nil => exact .nil
    | cons path rest ih =>
      cases reported : root.violation? path with
      | none =>
        rw [List.filterMap_cons_none reported, List.filter_cons_of_neg (by simp [reported])]
        exact ih
      | some report =>
        rw [List.filterMap_cons_some reported, List.filter_cons_of_pos (by simp [reported])]
        exact .cons (Outline.breaks_of_violation? reported) ih

end Kix
