import Kix.Proofs.StoreLaws

/-!
# Chains of frames

Many chains of parents pass through one frame, and an assignment made along one of them is
seen along all the others. This module says exactly which reads an assignment changes, in any
store that operations on frames can lead to.

A **history** of such operations (`FrameHistory`) carries the number of frames that there are,
and an operation can only name one of these, so a parent is always older than its child
(`FrameHistory.grown`). Hence every chain of parents ends. It is the list of all ancestors
of a frame, and the ancestor at a distance is the entry of the list at that place
(`Store.Chain.ancestor?_eq`). No operation changes a parent, so what an address leads to is the
same after an assignment as before, and only the value found there can differ
(`Store.getAt?_of_assignAt?`).
-/

namespace Kix

/-- **An operation on frames** where there are `n` of them; afterwards there are `m`. -/
inductive FrameOperation (α : Type) : (n m : Nat) → Type where
  | new {n : Nat} (parent : Option (Fin n)) : FrameOperation α n (n + 1)
  | define {n : Nat} (f : Fin n) (value : α) : FrameOperation α n n
  | assign {n : Nat} (f : Fin n) (slot : Nat) (value : α) : FrameOperation α n n
  | assignAt {n : Nat} (f : Fin n) (distance slot : Nat) (value : α) : FrameOperation α n n
  | get {n : Nat} (f : Fin n) (slot : Nat) : FrameOperation α n n
  | getAt {n : Nat} (f : Fin n) (distance slot : Nat) : FrameOperation α n n
  | ancestor {n : Nat} (f : Fin n) (distance : Nat) : FrameOperation α n n

/-- What an operation on frames answers. -/
inductive FrameAnswer (α : Type) where
  | frame (f : Option FrameRef)
  | slot (slot : Nat)
  | assigned (done : Bool)
  | value (value : Option α)

namespace Store

variable {α : Type} {n m : Nat}

/-- The answer of an assignment, and the store behind it. One that fails leaves the store as it
is. -/
def attempt (s : Store α) (changed : Option (Store α)) : FrameAnswer α × Store α :=
  (.assigned changed.isSome, changed.getD s)

/-- **Performing an operation on frames**: what it answers, and the store behind it. -/
def perform (s : Store α) : FrameOperation α n m → FrameAnswer α × Store α
  | .new parent => (.frame (some s.next), s.allocate { parent := parent.map Fin.val })
  | .define f value => (.slot (s.count f), s.define f value)
  | .assign f slot value => s.attempt (s.assign? f slot value)
  | .assignAt f distance slot value => s.attempt (s.assignAt? f distance slot value)
  | .get f slot => (.value (s.get? f slot), s)
  | .getAt f distance slot => (.value (s.getAt? f distance slot), s)
  | .ancestor f distance => (.frame (s.ancestor? f distance), s)

end Store

/-- **A history of operations on frames**, from the empty store to one with `n` frames. -/
inductive FrameHistory (α : Type) : Nat → Type where
  | start : FrameHistory α 0
  | next {n m : Nat} (before : FrameHistory α n) (operation : FrameOperation α n m) :
      FrameHistory α m

namespace FrameHistory

variable {α : Type}

/-- The store that a history leads to. -/
def store {n : Nat} : FrameHistory α n → Store α
  | start => {}
  | next before operation => (before.store.perform operation).2

/-- How many definitions a history has on a frame. -/
def definitions {n : Nat} : FrameHistory α n → FrameRef → Nat
  | start, _ => 0
  | next before (.define f _), g => before.definitions g + if f = g then 1 else 0
  | next before _, g => before.definitions g

end FrameHistory

namespace Store

variable {α : Type} {s s' : Store α} {f g : FrameRef} {distance slot : Nat} {value : α}

/-! ## Ancestors -/

/-- **The ancestor of an ancestor** is at the sum of the distances. -/
theorem ancestor?_add (s : Store α) (f : FrameRef) (d₁ d₂ : Nat) :
    s.ancestor? f (d₁ + d₂) = (s.ancestor? f d₁).bind (s.ancestor? · d₂) := by
  induction d₁ generalizing f with
  | zero => rw [Nat.zero_add, ancestor?, Option.bind_some]
  | succ d₁ ih =>
    rw [Nat.succ_add, ancestor?, ancestor?]
    cases s.parent? f with
    | none => rfl
    | some parent => exact ih parent

/-- Ancestors depend on the parents alone. -/
theorem ancestor?_congr (same : ∀ g, s'.parent? g = s.parent? g) (f : FrameRef) (distance : Nat) :
    s'.ancestor? f distance = s.ancestor? f distance := by
  induction distance generalizing f with
  | zero => rfl
  | succ distance ih =>
    rw [ancestor?, ancestor?, same f]
    cases s.parent? f with
    | none => rfl
    | some parent => exact ih parent

/-- **The chain of a frame**: the frame, its parent, the parent of that, up to a frame that has
none. -/
inductive Chain (s : Store α) : FrameRef → List FrameRef → Prop where
  | outermost {f : FrameRef} (none : s.parent? f = none) : Chain s f [f]
  | inner {f parent : FrameRef} {outer : List FrameRef} (some : s.parent? f = some parent)
      (rest : Chain s parent outer) : Chain s f (f :: outer)

/-- **The ancestor at a distance is an entry of the chain.** -/
theorem Chain.ancestor?_eq {chain : List FrameRef} (h : s.Chain f chain) (distance : Nat) :
    s.ancestor? f distance = chain[distance]? := by
  induction h generalizing distance with
  | outermost none =>
    cases distance with
    | zero => rfl
    | succ distance => rw [ancestor?, none, List.getElem?_cons_succ, List.getElem?_nil]
  | inner some _ ih =>
    cases distance with
    | zero => rfl
    | succ distance => rw [ancestor?, some, List.getElem?_cons_succ, ← ih distance]

/-- If parents are older than their children then every chain ends. -/
theorem exists_chain (older : ∀ f parent, s.parent? f = some parent → parent < f) (f : FrameRef) :
    ∃ chain, s.Chain f chain := by
  induction f using Nat.strongRecOn with
  | _ f ih =>
    cases found : s.parent? f with
    | none => exact ⟨[f], .outermost found⟩
    | some parent =>
      obtain ⟨outer, rest⟩ := ih parent (older f parent found)
      exact ⟨f :: outer, .inner found rest⟩

/-! ## Assignments -/

/-- An assignment in a frame is one at no distance from it. -/
theorem assign?_eq_assignAt? (s : Store α) (f : FrameRef) (slot : Nat) (value : α) :
    s.assign? f slot value = s.assignAt? f 0 slot value := by
  rw [assign?, assignAt?, frameAt?, ancestor?, Option.filter_some]
  by_cases below : slot < s.count f
  · rw [if_pos below, if_pos (decide_eq_true below), Option.map_some]
  · rw [if_neg below, if_neg (by simpa using below), Option.map_none]

/-- An assignment succeeds where there is a value to replace. -/
theorem isSome_assignAt? :
    (s.assignAt? f distance slot value).isSome = (s.getAt? f distance slot).isSome := by
  rw [assignAt?, Option.isSome_map, frameAt?, getAt?]
  cases s.ancestor? f distance with
  | none => rfl
  | some g =>
    rw [Bool.eq_iff_iff, Option.bind_some, isSome_get?_iff, Option.isSome_filter]
    simp

/-- An assignment that succeeds replaces the value in the frame that its address leads to. -/
theorem assignAt?_eq_some (assigned : s.assignAt? f distance slot value = some s') :
    ∃ g, s.ancestor? f distance = some g ∧ slot < s.count g ∧ s' = s.set g slot value := by
  obtain ⟨g, reached, rfl⟩ := Option.map_eq_some_iff.1 assigned
  obtain ⟨reached, holds⟩ := Option.filter_eq_some_iff.1 reached
  exact ⟨g, reached, of_decide_eq_true holds, rfl⟩

/-- What an address leads to is the same after an assignment as before. -/
theorem ancestor?_of_assignAt? (assigned : s.assignAt? f distance slot value = some s')
    (f' : FrameRef) (distance' : Nat) :
    s'.ancestor? f' distance' = s.ancestor? f' distance' := by
  obtain ⟨g, -, -, rfl⟩ := assignAt?_eq_some assigned
  exact ancestor?_congr (s.parent?_set g · slot value) f' distance'

/-- **What is read after an assignment**: the new value along every address that leads to the
same slot of the same frame, and along all others what was read before. -/
theorem getAt?_of_assignAt? (assigned : s.assignAt? f distance slot value = some s')
    (f' : FrameRef) (distance' slot' : Nat) :
    s'.getAt? f' distance' slot' =
      if s.ancestor? f' distance' = s.ancestor? f distance ∧ slot' = slot then some value
      else s.getAt? f' distance' slot' := by
  rw [getAt?, getAt?, ancestor?_of_assignAt? assigned f' distance']
  obtain ⟨g, reached, below, rfl⟩ := assignAt?_eq_some assigned
  rw [reached]
  cases reached' : s.ancestor? f' distance' with
  | none => rfl
  | some g' =>
    rw [Option.bind_some, Option.bind_some]
    split
    · next same =>
      obtain ⟨heq, rfl⟩ := same
      obtain rfl := Option.some_inj.1 heq
      exact s.get?_set_self value below
    · next other =>
      refine s.get?_set_of_ne value fun same => other ⟨congrArg some same.1.symm, same.2.symm⟩

end Store

/-! ## Histories -/

/-- **What is known of a store that operations led to**: how many frames there are, that parents
are older than their children, and how many values each frame holds. -/
structure Store.Grown {α : Type} (s : Store α) (n : Nat) (definitions : FrameRef → Nat) :
    Prop where
  next : s.next = n
  older : ∀ f parent, s.parent? f = some parent → parent < f
  count : ∀ f, s.count f = definitions f

namespace Store.Grown

variable {α : Type} {s : Store α} {n : Nat} {definitions : FrameRef → Nat}

theorem allocate (h : s.Grown n definitions) (parent : Option (Fin n)) :
    (s.allocate { parent := parent.map Fin.val }).Grown (n + 1) definitions := by
  obtain ⟨rfl, older, count⟩ := h
  have beyond {g : FrameRef} (le : s.next + 1 ≤ g) :
      (s.allocate { parent := parent.map Fin.val }).frames[g]? = none :=
    Array.getElem?_eq_none (Nat.le_trans (Nat.le_of_eq (s.next_allocate _)) le)
  refine ⟨s.next_allocate _, fun g p found => ?_, fun g => ?_⟩
  · rcases Nat.lt_trichotomy g s.next with lt | rfl | gt
    · rw [s.parent?_allocate_of_lt _ lt] at found
      exact older g p found
    · rw [s.parent?_allocate_next] at found
      obtain ⟨p, -, rfl⟩ := Option.map_eq_some_iff.1 found
      exact p.isLt
    · rw [parent?, beyond gt] at found
      cases found
  · rw [← count g]
    rcases Nat.lt_trichotomy g s.next with lt | rfl | gt
    · exact s.count_allocate_of_lt _ lt
    · rw [s.count_allocate_next, s.count_of_le (Nat.le_refl _)]
      rfl
    · rw [s.count_of_le (Nat.le_of_lt gt), Store.count, beyond gt]

theorem define (h : s.Grown n definitions) (f : Fin n) (value : α) :
    (s.define f value).Grown n fun g => definitions g + if f = g then 1 else 0 where
  next := (s.next_define f value).trans h.next
  older g p found := h.older g p ((s.parent?_define f g value).symm.trans found)
  count g := by
    rw [← h.count g]
    split
    · next same =>
      subst same
      exact s.count_define_self value (h.next ▸ f.isLt)
    · next other => exact s.count_define_of_ne value other

theorem set (h : s.Grown n definitions) (f : FrameRef) (slot : Nat) (value : α) :
    (s.set f slot value).Grown n definitions where
  next := (s.next_set f slot value).trans h.next
  older g p found := h.older g p ((s.parent?_set f g slot value).symm.trans found)
  count g := (s.count_set f g slot value).trans (h.count g)

theorem attempt (h : s.Grown n definitions) {changed : Option (Store α)}
    (keeps : ∀ s', changed = some s' → s'.Grown n definitions) :
    (s.attempt changed).2.Grown n definitions := by
  cases changed with
  | none => exact h
  | some s' => exact keeps s' rfl

end Store.Grown

/-- Every history leads to such a store. -/
theorem FrameHistory.grown {α : Type} {n : Nat} (h : FrameHistory α n) :
    h.store.Grown n h.definitions := by
  induction h with
  | start =>
    refine ⟨rfl, fun f parent found => ?_, fun f => ?_⟩
    · simp [FrameHistory.store, Store.parent?] at found
    · simp [FrameHistory.store, Store.count, FrameHistory.definitions]
  | next before operation ih =>
    cases operation with
    | new parent => exact ih.allocate parent
    | define f value => exact ih.define f value
    | assign f slot value =>
      refine ih.attempt fun s' assigned => ?_
      rw [Store.assign?_eq_assignAt?] at assigned
      obtain ⟨g, -, -, rfl⟩ := Store.assignAt?_eq_some assigned
      exact ih.set g slot value
    | assignAt f distance slot value =>
      refine ih.attempt fun s' assigned => ?_
      obtain ⟨g, -, -, rfl⟩ := Store.assignAt?_eq_some assigned
      exact ih.set g slot value
    | get | getAt | ancestor => exact ih

/-- **Assignments are seen along every chain that leads to the frame, and nowhere else.** After
any history of operations:

* a definition appends, and answers how many definitions its frame has had;
* an assignment in a frame is one at no distance, and one that fails changes nothing;
* one that succeeds is read along exactly the addresses that lead to the same slot of the same
  frame, and all other reads are as before;
* distances add up, and an ancestor is missing exactly if the chain is too short for its
  distance. -/
theorem assignments_alias_along_chains {α : Type} {n : Nat} (h : FrameHistory α n) :
    (∀ (f : Fin n) (value : α),
      (h.store.perform (.define f value)).1 = .slot (h.definitions f)
      ∧ ∀ (g : FrameRef) (slot : Nat), (h.store.perform (.define f value)).2.get? g slot =
          if g = f ∧ slot = h.definitions f then some value else h.store.get? g slot)
    ∧ (∀ (f : Fin n) (slot : Nat) (value : α),
      h.store.perform (.assign f slot value) = h.store.perform (.assignAt f 0 slot value))
    ∧ (∀ (f : Fin n) (distance slot : Nat) (value : α) (done : Bool) (s' : Store α),
      h.store.perform (.assignAt f distance slot value) = (.assigned done, s') →
      done = (h.store.getAt? f distance slot).isSome
      ∧ (done = false → s' = h.store)
      ∧ (done = true → ∀ (f' : FrameRef) (distance' slot' : Nat),
          s'.ancestor? f' distance' = h.store.ancestor? f' distance'
          ∧ s'.getAt? f' distance' slot' =
            if h.store.ancestor? f' distance' = h.store.ancestor? f distance ∧ slot' = slot
            then some value else h.store.getAt? f' distance' slot'))
    ∧ ∀ f : Fin n,
      (∀ d₁ d₂ : Nat,
        h.store.ancestor? f (d₁ + d₂) = (h.store.ancestor? f d₁).bind (h.store.ancestor? · d₂))
      ∧ ∃ chain, h.store.Chain f chain
        ∧ ∀ distance : Nat, h.store.ancestor? f distance = none ↔ chain.length < distance + 1 := by
  have grown := h.grown
  refine ⟨fun f value => ⟨congrArg FrameAnswer.slot (grown.count f), fun g slot => ?_⟩,
    fun f slot value => congrArg h.store.attempt (h.store.assign?_eq_assignAt? f slot value),
    ?_, fun f => ⟨h.store.ancestor?_add f, ?_⟩⟩
  · show (h.store.define f value).get? g slot = _
    by_cases same : g = f
    · subst same
      rw [h.store.get?_define_self value (Nat.lt_of_lt_of_eq f.isLt grown.next.symm), grown.count]
      simp only [true_and]
    · rw [h.store.get?_define_of_ne value (Ne.symm same), if_neg fun both => same both.1]
  · intro f distance slot value done s' performed
    have answer : (h.store.assignAt? f distance slot value).isSome = done :=
      FrameAnswer.assigned.inj (congrArg Prod.fst performed)
    have behind : (h.store.assignAt? f distance slot value).getD h.store = s' :=
      congrArg Prod.snd performed
    refine ⟨answer.symm.trans Store.isSome_assignAt?, ?_, ?_⟩
    · rintro rfl
      rw [Option.isSome_eq_false_iff, Option.isNone_iff_eq_none] at answer
      rw [← behind, answer, Option.getD_none]
    · rintro rfl f' distance' slot'
      obtain ⟨changed, assigned⟩ := Option.isSome_iff_exists.1 answer
      rw [assigned, Option.getD_some] at behind
      subst behind
      exact ⟨Store.ancestor?_of_assignAt? assigned f' distance',
        Store.getAt?_of_assignAt? assigned f' distance' slot'⟩
  · obtain ⟨chain, leads⟩ := Store.exists_chain grown.older f
    refine ⟨chain, leads, fun distance => ?_⟩
    rw [leads.ancestor?_eq, List.getElem?_eq_none_iff, Nat.lt_succ_iff]

/-- Two frames with one parent: what is assigned from the first is read from the second. -/
theorem assignments_alias_along_chains_siblings :
    let h : FrameHistory Nat 3 :=
      .next (.next (.next (.next .start (.new none)) (.define 0 5)) (.new (some 0))) (.new (some 0))
    ∃ s', h.store.perform (.assignAt (1 : Fin 3) 1 0 7) = (.assigned true, s')
      ∧ s'.getAt? 2 1 0 = some 7 ∧ h.store.getAt? 2 1 0 = some 5 := by
  intro h
  obtain ⟨-, -, assign, -⟩ := assignments_alias_along_chains h
  refine ⟨_, rfl, ?_, by decide⟩
  obtain ⟨-, -, seen⟩ := assign 1 1 0 7 true _ rfl
  rw [(seen rfl 2 1 0).2]
  decide

end Kix
