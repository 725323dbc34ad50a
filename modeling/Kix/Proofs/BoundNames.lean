import Kix.Proofs.OutlineWalk

/-!
# What a name is bound to

A name that stands somewhere in an outline is bound to the latest declaration of it that comes
before, in the innermost scope that has one (`Outline.bound?`). The global scope is left out:
what it declares has no address.

The walk knows this from its stack of scopes. When it has come to a path, the stack holds what
the scopes around the path have declared so far, and which of these declarations have been
read (`Outline.stack`). So where a name leads in the stack is what it is bound to
(`locate_stack`), and a read adds one declaration to those that have been read
(`markUsed_stack`).
-/

namespace Kix

namespace Outline

variable (root : Outline)

/-- Whether a name is declared at a path. -/
def declares (path : Path) (name : String) : Bool :=
  (root.declaration? path).any (·.name.lexeme == name)

/-- The latest declaration of a name in a scope, before the part with the given index. -/
def latest? (name : String) (scope : Path) : Nat → Option Path
  | 0 => none
  | i + 1 => if root.declares (i :: scope) name then some (i :: scope) else latest? name scope i

/-- **What a name is bound to** where it stands. -/
def bound? (name : String) : Path → Option Path
  | [] | [_] => none
  | i :: j :: scope => (root.latest? name (j :: scope) i).or (bound? name (j :: scope))

/-- The number of declarations before a part, in its scope. -/
def slot : Path → Nat
  | [] => 0
  | i :: scope => (root.declarationsBefore scope i).length

/-- The address of a declaration, seen from inside its scope. -/
def addressFrom (path declaration : Path) : Address :=
  ⟨path.length - declaration.length, root.slot declaration⟩

/-! ## Declarations -/

variable {root} {name : String} {scope path d : Path} {i j : Nat}

/-- There is a declaration at a path exactly if the part there is one. -/
theorem declaration?_eq_some_iff {declared : Declaration} :
    root.declaration? path = some declared ↔ root.part? path = some (.declaration declared) := by
  rw [declaration?, Option.bind_eq_some_iff]
  constructor
  · rintro ⟨part, found, same⟩
    cases part with
    | declaration => cases same; exact found
    | occurrence | ret | scope => nomatch same
  · intro found
    exact ⟨_, found, rfl⟩

theorem declares_eq_true_iff :
    root.declares path name = true ↔
      ∃ declared, root.part? path = some (.declaration declared) ∧ declared.name.lexeme = name := by
  rw [declares, Option.any_eq_true]
  refine exists_congr fun declared => ?_
  rw [declaration?_eq_some_iff, beq_iff_eq]

/-- The declarations before the next part. -/
theorem declarationsBefore_succ :
    root.declarationsBefore scope (i + 1) = root.declarationsBefore scope i
      ++ if (root.declaration? (i :: scope)).isSome then [i :: scope] else [] := by
  rw [declarationsBefore, List.range_succ, List.map_append, List.filter_append]
  congr 1
  rw [List.map_singleton, List.filter_cons, List.filter_nil]

/-- The declarations before a part are the earlier parts of the scope that are
declarations. -/
theorem mem_declarationsBefore :
    d ∈ root.declarationsBefore scope i ↔
      (∃ j, j < i ∧ d = j :: scope) ∧ (root.declaration? d).isSome := by
  rw [declarationsBefore, List.mem_filter, List.mem_map]
  refine and_congr_left fun _ => exists_congr fun j => ?_
  rw [List.mem_range, eq_comm]

/-- **The latest declaration of a name** declares it, and no later one does. -/
theorem latest?_eq_some_iff :
    root.latest? name scope i = some d ↔
      ∃ j, d = j :: scope ∧ j < i ∧ root.declares d name = true ∧
        ∀ k, j < k → k < i → root.declares (k :: scope) name = false := by
  induction i with
  | zero => simp [latest?]
  | succ i ih =>
    rw [latest?]
    split
    · next found =>
      constructor
      · rintro ⟨⟩
        exact ⟨i, rfl, Nat.lt_succ_self i, found, fun k lt le =>
          absurd lt (Nat.not_lt.2 (Nat.le_of_lt_succ le))⟩
      · rintro ⟨j, rfl, le, -, none⟩
        rcases Nat.lt_succ_iff_lt_or_eq.1 le with lt | rfl
        · exact absurd found (by rw [none i lt (Nat.lt_succ_self i)]; exact Bool.false_ne_true)
        · rfl
    · next missing =>
      rw [ih]
      refine exists_congr fun j => and_congr_right fun hd => ?_
      constructor
      · rintro ⟨lt, found, none⟩
        refine ⟨Nat.lt_succ_of_lt lt, found, fun k lt le => ?_⟩
        rcases Nat.lt_succ_iff_lt_or_eq.1 le with lt' | rfl
        · exact none k lt lt'
        · exact eq_false_of_ne_true missing
      · rintro ⟨le, found, none⟩
        rcases Nat.lt_succ_iff_lt_or_eq.1 le with lt | rfl
        · exact ⟨lt, found, fun k lt' le => none k lt' (Nat.lt_succ_of_lt le)⟩
        · exact absurd (hd ▸ found) missing

/-- There is none exactly if no earlier part declares the name. -/
theorem latest?_eq_none_iff :
    root.latest? name scope i = none ↔ ∀ j, j < i → root.declares (j :: scope) name = false := by
  induction i with
  | zero => simp [latest?]
  | succ i ih =>
    rw [latest?]
    split
    · next found =>
      refine iff_of_false (fun h => nomatch h) fun none => ?_
      rw [none i (Nat.lt_succ_self i)] at found
      exact Bool.false_ne_true found
    · next missing =>
      rw [ih]
      constructor
      · intro none j le
        rcases Nat.lt_succ_iff_lt_or_eq.1 le with lt | rfl
        · exact none j lt
        · exact eq_false_of_ne_true missing
      · exact fun none j lt => none j (Nat.lt_succ_of_lt lt)

/-- A declaration stands in its scope. -/
theorem length_of_latest? (h : root.latest? name scope i = some d) :
    d.length = scope.length + 1 := by
  obtain ⟨j, rfl, -⟩ := latest?_eq_some_iff.1 h
  rfl

/-- **What a name is bound to** stands before it, in a scope around it. -/
theorem of_bound?_eq_some (h : root.bound? name path = some d) :
    ∃ i j scope, d = j :: scope ∧ scope ≠ [] ∧ j < i ∧ (i :: scope) <:+ path ∧
      root.declares d name = true := by
  fun_induction bound? root name path with
  | case1 => nomatch h
  | case2 => nomatch h
  | case3 i k scope ih =>
    rcases Option.or_eq_some_iff.1 h with here | ⟨-, outer⟩
    · obtain ⟨j, rfl, lt, found, -⟩ := latest?_eq_some_iff.1 here
      exact ⟨i, j, k :: scope, rfl, List.cons_ne_nil _ _, lt, List.suffix_refl _, found⟩
    · obtain ⟨i', j, scope', hd, ne, lt, inside, found⟩ := ih outer
      exact ⟨i', j, scope', hd, ne, lt, inside.trans (List.suffix_cons i _), found⟩

/-- What a name is bound to stands in the scope of the name or in one around it. -/
theorem length_le_of_bound? (h : root.bound? name path = some d) : d.length ≤ path.length := by
  obtain ⟨i, j, scope, rfl, -, -, inside, -⟩ := of_bound?_eq_some h
  exact inside.length_le

/-- **A name is bound to something in front of it.** -/
theorem before_of_bound? (h : root.bound? name path = some d) : d.Before path := by
  obtain ⟨i, j, scope, rfl, -, lt, inside, -⟩ := of_bound?_eq_some h
  exact ⟨scope, j, i, lt, List.suffix_refl _, inside⟩

/-! ## The stack -/

variable (root) (read : List Path)

/-- What the walk holds of a declaration, if the given ones have been read. -/
def binding? (path : Path) : Option Binding :=
  (root.declaration? path).map fun d => ⟨d.name, d.isFunction, true, decide (path ∈ read)⟩

/-- What the walk holds of a scope in front of the part with the given index. -/
def bindings (scope : Path) : Nat → Scope
  | 0 => []
  | i + 1 => (root.binding? read (i :: scope)).toList ++ bindings scope i

/-- **The stack of scopes** with which the walk comes to a path. -/
def stack : Path → List Scope
  | [] | [_] => []
  | i :: j :: scope => root.bindings read (j :: scope) i :: stack (j :: scope)

variable {root read}

theorem binding?_of_declaration? {declared : Declaration}
    (h : root.declaration? path = some declared) :
    root.binding? read path
      = some ⟨declared.name, declared.isFunction, true, decide (path ∈ read)⟩ := by
  rw [binding?, h, Option.map_some]

/-- A part that is no declaration binds nothing. -/
theorem bindings_succ_of_none (h : root.declaration? (i :: scope) = none) :
    root.bindings read scope (i + 1) = root.bindings read scope i := by
  rw [bindings, binding?, h]
  rfl

/-- A part that declares nothing leaves the stack as it is. -/
theorem stack_succ_of_none (h : root.declaration? (i :: scope) = none) :
    root.stack read ((i + 1) :: scope) = root.stack read (i :: scope) := by
  cases scope with
  | nil => rfl
  | cons j outer => rw [stack, stack, bindings_succ_of_none h]

/-- Each declaration has a binding. -/
theorem length_bindings :
    (root.bindings read scope i).length = (root.declarationsBefore scope i).length := by
  induction i with
  | zero => rfl
  | succ i ih =>
    rw [bindings, declarationsBefore_succ, List.length_append, List.length_append, ih, binding?]
    cases root.declaration? (i :: scope) with
    | none => rw [Nat.add_comm]; rfl
    | some declared => rw [Nat.add_comm]; rfl

/-- What is held of a scope is held in the order of its declarations, the latest first. -/
theorem filterMap_reverse_bindings {α : Type} (f : Binding → Option α) :
    ((root.bindings read scope i).filterMap f).reverse
      = (root.declarationsBefore scope i).filterMap fun d => (root.binding? read d).bind f := by
  induction i with
  | zero => rfl
  | succ i ih =>
    rw [bindings, declarationsBefore_succ, List.filterMap_append, List.reverse_append, ih,
      List.filterMap_append]
    congr 1
    cases declared : root.declaration? (i :: scope) with
    | none => rw [binding?, declared]; rfl
    | some declaration =>
      rw [Option.isSome_some, if_pos rfl, binding?_of_declaration? declared, Option.toList_some,
        List.filterMap_cons, List.filterMap_cons, binding?_of_declaration? declared,
        Option.bind_some]
      cases f _ <;> rfl

/-- Whatever else has been read, only the declarations of a scope show in it. -/
theorem bindings_congr {read' : List Path}
    (h : ∀ j, j < i → (j :: scope ∈ read ↔ j :: scope ∈ read')) :
    root.bindings read scope i = root.bindings read' scope i := by
  induction i with
  | zero => rfl
  | succ i ih =>
    rw [bindings, bindings, ih fun j lt => h j (Nat.lt_succ_of_lt lt), binding?, binding?]
    simp only [h i (Nat.lt_succ_self i)]

/-- A variable of another scope that is read changes no binding of this one. -/
theorem bindings_cons_of_length (h : d.length ≠ scope.length + 1) :
    root.bindings (d :: read) scope i = root.bindings read scope i := by
  refine bindings_congr fun j _ => ?_
  rw [List.mem_cons, or_iff_right]
  rintro rfl
  exact h rfl

/-- A declaration further in than a path does not show in the stack there. -/
theorem stack_cons_of_length (h : path.length < d.length) :
    root.stack (d :: read) path = root.stack read path := by
  fun_induction stack root read path with
  | case1 => rfl
  | case2 => rfl
  | case3 i j scope ih =>
    have shorter : (j :: scope).length < d.length := Nat.lt_of_succ_lt h
    rw [stack, ih shorter, bindings_cons_of_length (Nat.ne_of_gt h)]

/-- **The slot of a name** is that of its latest declaration. -/
theorem slot?_bindings :
    Scope.slot? name (root.bindings read scope i) = (root.latest? name scope i).map root.slot := by
  induction i with
  | zero => rfl
  | succ i ih =>
    cases declared : root.declaration? (i :: scope) with
    | none =>
      have missing : root.declares (i :: scope) name = false := by rw [declares, declared]; rfl
      rw [bindings_succ_of_none declared, ih, latest?, missing]
      rfl
    | some declaration =>
      have found : root.declares (i :: scope) name = (declaration.name.lexeme == name) := by
        rw [declares, declared]
        rfl
      rw [bindings, binding?_of_declaration? declared, Option.toList_some, List.singleton_append,
        Scope.slot?, ih, latest?, found, length_bindings]
      split <;> rfl

/-- From one scope further in, an address is one frame further out. -/
theorem addressFrom_cons (h : d.length ≤ path.length) :
    root.addressFrom (i :: path) d = (root.addressFrom path d).outward := by
  rw [addressFrom, List.length_cons, Nat.succ_sub h]
  rfl

/-- **Where a name leads in the stack is what it is bound to.** -/
theorem locate_stack :
    Scope.locate name (root.stack read path)
      = (root.bound? name path).map (root.addressFrom path) := by
  fun_induction bound? root name path with
  | case1 => rfl
  | case2 => rfl
  | case3 i j scope ih =>
    rw [stack, Scope.locate, slot?_bindings, ih]
    cases here : root.latest? name (j :: scope) i with
    | some d =>
      have same : (i :: j :: scope).length - d.length = 0 := by
        rw [length_of_latest? here, List.length_cons, Nat.sub_self]
      rw [Option.some_or, Option.map_some, Option.map_some, addressFrom, same]
    | none =>
      rw [Option.none_or, Option.map_none, Option.map_map]
      refine Option.map_congr fun d bound => ?_
      exact (addressFrom_cons (length_le_of_bound? bound)).symm

/-- Reading the latest declaration of a name marks it as used. -/
theorem update_bindings (h : root.latest? name scope i = some d) :
    Scope.update name ({ · with used := true }) (root.bindings read scope i)
      = root.bindings (d :: read) scope i := by
  induction i with
  | zero => nomatch h
  | succ i ih =>
    rw [latest?] at h
    cases declared : root.declaration? (i :: scope) with
    | none =>
      rw [declares, declared] at h
      rw [bindings_succ_of_none declared, bindings_succ_of_none declared]
      exact ih h
    | some declaration =>
      rw [declares, declared, Option.any_some] at h
      rw [bindings, bindings, binding?_of_declaration? declared, binding?_of_declaration? declared,
        Option.toList_some, Option.toList_some, List.singleton_append, List.singleton_append,
        Scope.update]
      split at h
      · next same =>
        cases h
        rw [if_pos same, decide_eq_true (List.mem_cons_self)]
        congr 1
        refine bindings_congr fun j lt => ?_
        rw [List.mem_cons, or_iff_right]
        rintro ⟨⟩
        exact Nat.lt_irrefl _ lt
      · next other =>
        obtain ⟨j, hd, lt, -⟩ := latest?_eq_some_iff.1 h
        have ne : i :: scope ≠ d := by
          rintro rfl
          cases hd
          exact Nat.lt_irrefl _ lt
        rw [if_neg other, ih h]
        simp only [List.mem_cons, ne, false_or]

/-- **A read adds what its name is bound to** to what has been read. -/
theorem markUsed_stack :
    Scope.markUsed name (root.stack read path)
      = root.stack ((root.bound? name path).toList ++ read) path := by
  fun_induction bound? root name path with
  | case1 => rfl
  | case2 => rfl
  | case3 i j scope ih =>
    rw [stack, Scope.markUsed, slot?_bindings, Option.isSome_map]
    cases here : root.latest? name (j :: scope) i with
    | some d =>
      have length := length_of_latest? here
      rw [Option.some_or, Option.toList_some, List.singleton_append, stack,
        if_pos Option.isSome_some, update_bindings here,
        stack_cons_of_length (by rw [length]; exact Nat.lt_succ_self _)]
    | none =>
      rw [Option.none_or, if_neg (by exact Bool.false_ne_true), ih, stack]
      congr 1
      cases outer : root.bound? name (j :: scope) with
      | none => rfl
      | some d =>
        have length := length_le_of_bound? outer
        rw [Option.toList_some, List.singleton_append, bindings_cons_of_length]
        exact Nat.ne_of_lt (Nat.lt_succ_of_le length)

end Outline

end Kix
