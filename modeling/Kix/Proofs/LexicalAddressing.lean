import Kix.Proofs.Identities
import Kix.Proofs.ResolvedOutline

/-!
# Lexical addressing

An occurrence has an address if some scope around it, other than the global one, declares its
name before it. The address counts the scopes to go out to the innermost one that does so, and
the declarations in that scope in front of the latest one of the name. This is what the table
of addresses holds (`address_table_is_lexical`).

`Outline.Around` says which declarations are meant, by rules that go out from a path one scope
at a time, and `Outline.LeadsTo` which of them an address has to lead to. Resolving follows
neither: it looks up what a name is bound to. So the proof shows that a name is bound to what
the rules demand (`leadsTo_of_bound?`), and that they demand it of one address only
(`LeadsTo.unique`).
-/

namespace Kix

/-- The addresses that resolving has found, as a table. -/
def Resolved.table (r : Resolved) : AddressTable := AddressTable.extend {} r.entries

namespace Outline

variable (root : Outline)

/-- **A name is declared around a path**, before it, in the scope at a distance. The global
scope does not count. -/
inductive Around (name : String) : Path → Nat → Path → Prop where
  | here {scope : Path} {i j : Nat} (isLocal : scope ≠ []) (before : j < i)
    (declared : root.declares (j :: scope) name = true) : Around name (i :: scope) 0 (j :: scope)
  | outward {scope d : Path} {distance : Nat} (i : Nat) (h : Around name scope distance d) :
    Around name (i :: scope) (distance + 1) d

/-- The declaration that an address denotes, seen from a path: the slot is its place among all
declarations of the scope at the distance. -/
def denoted? (path : Path) (a : Address) : Option Path :=
  (root.declarations (path.drop (a.distance + 1)))[a.slot]?

/-- **An address leads from a path to a declaration of a name**: into the innermost scope that
declares the name before the path, and to the latest declaration of it there. -/
structure LeadsTo (name : String) (path : Path) (a : Address) (d : Path) : Prop where
  declared : root.Around name path a.distance d
  innermost : ∀ distance d', root.Around name path distance d' → a.distance ≤ distance
  latest : ∀ d', root.Around name path a.distance d' → ¬ d.Before d'
  denoted : root.denoted? path a = some d

variable {root} {name : String} {scope path d d' : Path} {i j distance : Nat}

/-! ## Declarations and slots -/

/-- The declarations of a scope stand in the order of the text. -/
theorem pairwise_declarationsBefore : (root.declarationsBefore scope i).Pairwise Path.Before := by
  refine List.Pairwise.filter _ (List.pairwise_map.2 ?_)
  exact List.pairwise_lt_range.imp Path.before_cons_iff.2

theorem nodup_declarations : (root.declarations scope).Nodup := by
  refine List.Pairwise.imp ?_ pairwise_declarationsBefore
  rintro d _ h rfl
  exact Path.not_before_self d h

/-- The declarations before a part are the first ones of those before a later part. -/
theorem declarationsBefore_prefix (le : i ≤ j) :
    root.declarationsBefore scope i <+: root.declarationsBefore scope j := by
  induction le with
  | refl => exact List.prefix_refl _
  | step _ ih =>
    rw [declarationsBefore_succ]
    exact ih.trans (List.prefix_append _ _)

/-- **The slot of a declaration is its place** among the declarations of its scope. -/
theorem getElem?_declarations (h : (root.declaration? (j :: scope)).isSome) :
    (root.declarations scope)[root.slot (j :: scope)]? = some (j :: scope) := by
  obtain ⟨declared, found⟩ := Option.isSome_iff_exists.1 h
  obtain ⟨parts, hscope, found⟩ := exists_scope_of_part? (declaration?_eq_some_iff.1 found)
  have lt : j < parts.length := (List.getElem?_eq_some_iff.1 found).1
  obtain ⟨later, whole⟩ : root.declarationsBefore scope (j + 1)
      <+: root.declarationsBefore scope parts.length := declarationsBefore_prefix lt
  rw [declarations, hscope, Option.getD_some, ← whole, declarationsBefore_succ, if_pos h, slot,
    List.append_assoc, List.getElem?_append_right (Nat.le_refl _), Nat.sub_self]
  rfl

theorem isSome_of_declares (h : root.declares d name = true) : (root.declaration? d).isSome := by
  obtain ⟨declared, found, -⟩ := declares_eq_true_iff.1 h
  rw [declaration?_eq_some_iff.2 found]
  rfl

/-- The address of what a name is bound to denotes it. -/
theorem denoted?_of_bound? (h : root.bound? name path = some d) :
    root.denoted? path (root.addressFrom path d) = some d := by
  obtain ⟨i, j, scope, rfl, -, -, ⟨front, rfl⟩, found⟩ := of_bound?_eq_some h
  have drop : (front ++ i :: scope).drop ((front ++ i :: scope).length - (j :: scope).length + 1)
      = scope := by
    have length : (front ++ i :: scope).length - (j :: scope).length + 1
        = (front ++ [i]).length := by simp
    rw [length, show front ++ i :: scope = (front ++ [i]) ++ scope by simp, List.drop_left]
  rw [denoted?, addressFrom, drop]
  exact getElem?_declarations (isSome_of_declares found)

/-! ## What a name is bound to, by the rules -/

/-- A declaration around a path stands in a scope around it. -/
theorem Around.exists_cons (h : root.Around name path distance d) :
    ∃ j, d = j :: path.drop (distance + 1) := by
  induction h with
  | here => exact ⟨_, rfl⟩
  | outward _ _ ih => exact ih

/-- What is not bound is declared nowhere around. -/
theorem not_around_of_bound? (h : root.bound? name path = none) :
    ¬ root.Around name path distance d := by
  fun_induction bound? root name path generalizing distance with
  | case1 =>
    intro around
    cases around
  | case2 =>
    intro around
    cases around with
    | here isLocal => exact isLocal rfl
    | outward _ outer => cases outer
  | case3 i k scope ih =>
    obtain ⟨none, outer⟩ := Option.or_eq_none_iff.1 h
    intro around
    cases around with
    | here _ lt found =>
      rw [latest?_eq_none_iff.1 none _ lt] at found
      exact Bool.false_ne_true found
    | outward _ around => exact ih outer around

/-- **A name is bound to the latest declaration in the innermost scope that has one.** -/
theorem leadsTo_of_bound? (h : root.bound? name path = some d) :
    root.LeadsTo name path (root.addressFrom path d) d := by
  suffices rules : root.Around name path (path.length - d.length) d ∧
      (∀ distance d', root.Around name path distance d' → path.length - d.length ≤ distance) ∧
      ∀ d', root.Around name path (path.length - d.length) d' → ¬ d.Before d' from
    ⟨rules.1, rules.2.1, rules.2.2, denoted?_of_bound? h⟩
  fun_induction bound? root name path with
  | case1 => cases h
  | case2 => cases h
  | case3 i k scope ih =>
    rcases Option.or_eq_some_iff.1 h with here | ⟨none, outer⟩
    · obtain ⟨j, rfl, lt, found, none⟩ := latest?_eq_some_iff.1 here
      have same : (i :: k :: scope).length - (j :: k :: scope).length = 0 := Nat.sub_self _
      rw [same]
      refine ⟨.here (List.cons_ne_nil _ _) lt found, fun _ _ _ => Nat.zero_le _,
        fun d' around => ?_⟩
      cases around with
      | here _ lt' found' =>
        intro later
        rw [none _ (Path.before_cons_iff.1 later) lt'] at found'
        exact Bool.false_ne_true found'
    · obtain ⟨around, innermost, latest⟩ := ih outer
      have next : (i :: k :: scope).length - d.length = (k :: scope).length - d.length + 1 :=
        Nat.succ_sub (length_le_of_bound? outer)
      rw [next]
      refine ⟨.outward i around, fun distance d' around' => ?_, fun d' around' => ?_⟩
      · cases around' with
        | here _ lt found =>
          rw [latest?_eq_none_iff.1 none _ lt] at found
          exact absurd found Bool.false_ne_true
        | outward _ around' => exact Nat.succ_le_succ (innermost _ d' around')
      · cases around' with
        | outward _ around' => exact latest d' around'

/-- **There is one address only.** -/
theorem LeadsTo.unique {a a' : Address} (h : root.LeadsTo name path a d)
    (h' : root.LeadsTo name path a' d') : a = a' := by
  obtain ⟨distance, slot⟩ := a
  obtain ⟨distance', slot'⟩ := a'
  obtain rfl : distance = distance' :=
    Nat.le_antisymm (h.innermost _ _ h'.declared) (h'.innermost _ _ h.declared)
  obtain ⟨j, rfl⟩ := h.declared.exists_cons
  obtain ⟨j', rfl⟩ := h'.declared.exists_cons
  have notLater := mt Path.before_cons_iff.2 (h.latest _ h'.declared)
  have notEarlier := mt Path.before_cons_iff.2 (h'.latest _ h.declared)
  obtain rfl : j = j' := Nat.le_antisymm (Nat.not_lt.1 notEarlier) (Nat.not_lt.1 notLater)
  have lt := (List.getElem?_eq_some_iff.1 h.denoted).1
  have slots := (List.getElem?_inj lt nodup_declarations).1 (h.denoted.trans h'.denoted.symm)
  exact congrArg (Address.mk distance) slots

end Outline

/-! ## Occurrences -/

mutual

/-- The occurrences in a part. -/
def Part.occurrences : Part → List Occurrence
  | .occurrence o _ => [o]
  | .scope _ parts => partsOccurrences parts
  | .declaration _ | .ret _ => []

/-- The occurrences in parts. -/
def partsOccurrences : List Part → List Occurrence
  | [] => []
  | part :: rest => part.occurrences ++ partsOccurrences rest

end

/-- The occurrences in parts that are put together. -/
theorem partsOccurrences_append (parts parts' : List Part) :
    partsOccurrences (parts ++ parts') = partsOccurrences parts ++ partsOccurrences parts' := by
  induction parts with
  | nil => rfl
  | cons part rest ih =>
    rw [List.cons_append, partsOccurrences, partsOccurrences, ih, List.append_assoc]

/-- An expression and its outline have the same occurrences. -/
theorem Expr.occurrences_outline (initialized : Option Token) (e : Expr) :
    partsOccurrences (e.outline initialized) = e.occurrences := by
  rw [Expr.outline]
  induction e.occurrences with
  | nil => rfl
  | cons o rest ih => rw [List.map_cons, partsOccurrences, ih, Part.occurrences]; rfl

theorem occurrences_parameters (params : List Token) :
    partsOccurrences (params.map fun p => .declaration ⟨p, false⟩) = [] := by
  induction params with
  | nil => rfl
  | cons p rest ih => rw [List.map_cons, partsOccurrences, ih, Part.occurrences]; rfl

mutual

/-- **A statement and its outline have the same occurrences.** -/
theorem Stmt.occurrences_outline : ∀ s : Stmt, partsOccurrences s.outline = s.occurrences
  | .expression value | .print value => by
    rw [Stmt.outline, Stmt.occurrences, value.occurrences_outline]
  | .var name initializer => by
    rw [Stmt.outline, Stmt.occurrences, partsOccurrences, initializer.occurrences_outline,
      Part.occurrences, List.nil_append]
  | .block body => by
    rw [Stmt.outline, Stmt.occurrences, partsOccurrences, partsOccurrences, Part.occurrences,
      List.append_nil, occurrences_bodyOutline body]
  | .branch condition thenBranch elseBranch => by
    rw [Stmt.outline, Stmt.occurrences, partsOccurrences_append, partsOccurrences_append,
      condition.occurrences_outline, thenBranch.occurrences_outline,
      elseBranch.occurrences_outline]
  | .loop condition body => by
    rw [Stmt.outline, Stmt.occurrences, partsOccurrences_append, condition.occurrences_outline,
      body.occurrences_outline]
  | .function name params body => by
    rw [Stmt.outline, Stmt.occurrences, partsOccurrences, partsOccurrences, partsOccurrences,
      Part.occurrences, Part.occurrences, partsOccurrences_append, occurrences_parameters,
      occurrences_bodyOutline body, List.nil_append, List.nil_append, List.append_nil]
  | .ret keyword value => by
    rw [Stmt.outline, Stmt.occurrences, partsOccurrences, value.occurrences_outline,
      Part.occurrences, List.nil_append]
  | .absent => by rw [Stmt.outline, Stmt.occurrences, partsOccurrences]

/-- An outline has the occurrences of the program. -/
theorem occurrences_bodyOutline :
    ∀ body : List Stmt, partsOccurrences (bodyOutline body) = bodyOccurrences body
  | [] => by rw [bodyOutline, bodyOccurrences, partsOccurrences]
  | s :: rest => by
    rw [bodyOutline, bodyOccurrences, partsOccurrences_append, s.occurrences_outline,
      occurrences_bodyOutline rest]

end

mutual

/-- The occurrences that are passed in a part are those of the part. -/
theorem Part.map_occurrenceAt? (root : Outline) (path : Path) :
    ∀ part : Part, root.part? path = some part →
      ((part.stops path).filterMap root.occurrenceAt?).map Prod.snd = part.occurrences
  | .declaration _, found | .ret _, found | .occurrence _ _, found => by
    rw [Part.stops, List.filterMap_cons, Outline.occurrenceAt?, found, Part.occurrences]
    rfl
  | .scope _ parts, found => by
    have hscope := Outline.scope?_of_part? found
    have inner := map_occurrenceAt?_stopsFrom root path 0 parts
      fun j => by rw [Nat.zero_add, Outline.part?_cons hscope]
    rw [Part.stops, Part.occurrences, List.filterMap_append, List.map_append, inner]
    exact List.append_nil _

/-- The same for the parts of a scope. -/
theorem map_occurrenceAt?_stopsFrom (root : Outline) (scope : Path) (i : Nat) :
    ∀ parts : List Part, (∀ j, root.part? ((i + j) :: scope) = parts[j]?) →
      ((stopsFrom scope i parts).filterMap root.occurrenceAt?).map Prod.snd
        = partsOccurrences parts
  | [], _ => by
    rw [stopsFrom, partsOccurrences]
    rfl
  | part :: rest, found => by
    have later := map_occurrenceAt?_stopsFrom root scope (i + 1) rest fun j => by
      rw [Nat.add_right_comm]
      exact found (j + 1)
    rw [stopsFrom, partsOccurrences, List.filterMap_append, List.map_append, later,
      part.map_occurrenceAt? root (i :: scope) (found 0)]

end

/-- **The occurrences on the way through the outline of a program** are those of the
program. -/
theorem map_occurrences_bodyOutline (program : Program) :
    (bodyOutline program).occurrences.map Prod.snd = bodyOccurrences program := by
  rw [← occurrences_bodyOutline]
  exact map_occurrenceAt?_stopsFrom _ [] 0 _ fun j => by rw [Nat.zero_add]; rfl

/-! ## The table -/

/-- **The table holds what each name is bound to**, if occurrences have identities of their
own. -/
theorem getElem?_table (policy : Policy) {program : Program}
    (distinct : (identities program).Nodup) {path : Path} {o : Occurrence}
    (node : (path, o) ∈ (bodyOutline program).occurrences) :
    (resolve policy program).table[o.id]?
      = ((bodyOutline program).bound? o.name.lexeme path).map
        ((bodyOutline program).addressFrom path) := by
  have keys := (entries_sublist_identities policy program).nodup distinct
  unfold Resolved.table AddressTable.extend
  cases bound : (bodyOutline program).bound? o.name.lexeme path with
  | some d =>
    refine Std.HashMap.getElem?_insertMany_list_of_mem BEq.rfl ?_ ?_
    · exact (List.pairwise_map.1 keys).imp fun ne => beq_eq_false_iff_ne.2 ne
    · rw [entries_resolve]
      exact List.mem_filterMap.2 ⟨_, node, by rw [Outline.recorded?, bound]; rfl⟩
  | none =>
    rw [Std.HashMap.getElem?_insertMany_list_of_contains_eq_false, Std.HashMap.getElem?_empty]
    · rfl
    · -- an entry with this identity would be of the same occurrence
      rw [List.contains_eq_mem, decide_eq_false_iff_not]
      intro mem
      obtain ⟨entry, hentry, hid⟩ := List.mem_map.1 mem
      rw [entries_resolve] at hentry
      obtain ⟨node', hnode', hentry'⟩ := List.mem_filterMap.1 hentry
      obtain ⟨d, bound', rfl⟩ := Option.map_eq_some_iff.1 hentry'
      have ids : ((bodyOutline program).occurrences.map (·.2.id)).Nodup := by
        rw [identities, ← map_occurrences_bodyOutline, List.map_map] at distinct
        exact distinct
      have same := List.inj_on_of_nodup_map ids hnode' node hid
      rw [same] at bound'
      cases bound.symm.trans bound'

/-- **The address table is lexical addressing.** Suppose that the occurrences of a program have
different identities, and take one of them. It stands at a path of the outline. Whatever is
checked, it has an entry in the table exactly if its name is declared around that path before
it, and the entry is the address that leads to the latest declaration in the innermost scope
that has one. -/
theorem address_table_is_lexical (policy : Policy) (program : Program)
    (distinct : (identities program).Nodup) {o : Occurrence} (mem : o ∈ bodyOccurrences program) :
    (∃ path initialized, (bodyOutline program).part? path = some (.occurrence o initialized)) ∧
    ∀ path initialized, (bodyOutline program).part? path = some (.occurrence o initialized) →
      ((resolve policy program).table[o.id]?.isSome ↔
        ∃ distance d, (bodyOutline program).Around o.name.lexeme path distance d) ∧
      ∀ a, (resolve policy program).table[o.id]? = some a ↔
        ∃ d, (bodyOutline program).LeadsTo o.name.lexeme path a d := by
  refine ⟨?_, fun path initialized node => ?_⟩
  · rw [← map_occurrences_bodyOutline] at mem
    obtain ⟨⟨path, _⟩, node, rfl⟩ := List.mem_map.1 mem
    exact ⟨path, Outline.mem_occurrences_iff.1 node⟩
  · rw [getElem?_table policy distinct (Outline.mem_occurrences_iff.2 ⟨initialized, node⟩)]
    cases bound : (bodyOutline program).bound? o.name.lexeme path with
    | none =>
      have nowhere : ∀ distance d,
          ¬ (bodyOutline program).Around o.name.lexeme path distance d :=
        fun _ _ => Outline.not_around_of_bound? bound
      refine ⟨iff_of_false Bool.false_ne_true ?_, fun a => iff_of_false nofun ?_⟩
      · rintro ⟨distance, d, around⟩
        exact nowhere distance d around
      · rintro ⟨d, leads⟩
        exact nowhere _ d leads.declared
    | some d =>
      have leads := Outline.leadsTo_of_bound? bound
      refine ⟨iff_of_true rfl ⟨_, d, leads.declared⟩, fun a => ⟨?_, ?_⟩⟩
      · rintro ⟨⟩
        exact ⟨d, leads⟩
      · rintro ⟨d', leads'⟩
        rw [leads'.unique leads]
        rfl

/-- `fun f(x, x) { var y = x; { var x = y; y = x; } }`: a parameter is declared twice and
shadowed. -/
def shadowedParameter : Program :=
  [.function (.onLine 1 .identifier "f") [.onLine 1 .identifier "x", .onLine 1 .identifier "x"]
    [.var (.onLine 1 .identifier "y") (.var 0 (.onLine 1 .identifier "x")),
      .block [
        .var (.onLine 1 .identifier "x") (.var 1 (.onLine 1 .identifier "y")),
        .expression (.assign 3 (.onLine 1 .identifier "y") (.var 2 (.onLine 1 .identifier "x")))]]]

/-- The assignment leads out of the block, past both parameters. -/
theorem address_table_is_lexical_shadowed_parameter :
    (identities shadowedParameter).Nodup ∧
    ⟨3, .onLine 1 .identifier "y", false⟩ ∈ bodyOccurrences shadowedParameter ∧
    (resolve {} shadowedParameter).table[3]? = some ⟨1, 2⟩ ∧
    ∃ d, (bodyOutline shadowedParameter).LeadsTo "y" [3, 4, 1] ⟨1, 2⟩ d := by
  have distinct : (identities shadowedParameter).Nodup := by decide
  have mem : ⟨3, .onLine 1 .identifier "y", false⟩ ∈ bodyOccurrences shadowedParameter :=
    .tail _ (.tail _ (.tail _ (.head _)))
  have address : (resolve {} shadowedParameter).table[3]? = some ⟨1, 2⟩ := by
    rw [getElem?_table {} distinct (o := ⟨3, .onLine 1 .identifier "y", false⟩)
      (Outline.mem_occurrences_iff.2 ⟨none, rfl⟩ : ([3, 4, 1], _) ∈ _)]
    rfl
  have lexical := (address_table_is_lexical {} shadowedParameter distinct mem).2 [3, 4, 1] none rfl
  exact ⟨distinct, mem, address, (lexical.2 ⟨1, 2⟩).1 address⟩

end Kix
