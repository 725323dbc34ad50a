import Kix.Proofs.FrameChains
import Kix.Proofs.Correspondence

/-!
# Rooted machines

A frame that was made once is never taken away, never hung under another parent, and never loses a
value. So a store only ever grows (`Store.GrowsInto`), and an address that leads to a value leads to
one ever after (`Store.GrowsInto.isSome_getAt?`).

New frames come from blocks and from calls. The parent of a frame for a call is the frame that the
function was made in, and this may be any frame at all. That it is an older frame is known only
if all functions that can be found anywhere were made in frames that exist. A machine of which
this is true is **rooted** (`Machine.Rooted`). Each operation on frames makes of a rooted machine
another one, whose store has grown (`Machine.Becomes`).
-/

namespace Kix

/-! ## Stores -/

namespace Store

variable {α : Type} {s s' s'' : Store α} {f : FrameRef}

/-- Frames that are not there have no parent. -/
theorem parent?_of_le (h : s.next ≤ f) : s.parent? f = none := by
  rw [parent?, Array.getElem?_eq_none h]
  rfl

/-- **What a store can grow into**: a store that has all its frames, with the parents that they
have, and with as many values or more. -/
structure GrowsInto (s s' : Store α) : Prop where
  next_le : s.next ≤ s'.next
  parent?_eq : ∀ f < s.next, s'.parent? f = s.parent? f
  count_le : ∀ f < s.next, s.count f ≤ s'.count f

namespace GrowsInto

theorem refl (s : Store α) : s.GrowsInto s :=
  ⟨Nat.le_refl _, fun _ _ => rfl, fun _ _ => Nat.le_refl _⟩

/-- Growing twice is growing. -/
theorem trans (h : s.GrowsInto s') (h' : s'.GrowsInto s'') : s.GrowsInto s'' where
  next_le := Nat.le_trans h.next_le h'.next_le
  parent?_eq f there := by
    rw [h'.parent?_eq f (Nat.lt_of_lt_of_le there h.next_le), h.parent?_eq f there]
  count_le f there := by
    have later := h'.count_le f (Nat.lt_of_lt_of_le there h.next_le)
    exact Nat.le_trans (h.count_le f there) later

/-- A new frame leaves the parents and the values of the others alone. -/
theorem allocate (s : Store α) (frame : Frame α) : s.GrowsInto (s.allocate frame) where
  next_le := by
    rw [next_allocate]
    exact Nat.le_succ _
  parent?_eq _ there := s.parent?_allocate_of_lt frame there
  count_le _ there := Nat.le_of_eq (s.count_allocate_of_lt frame there).symm

/-- Defining a variable adds a value. -/
theorem define (s : Store α) (f : FrameRef) (value : α) : s.GrowsInto (s.define f value) where
  next_le := Nat.le_of_eq (s.next_define f value).symm
  parent?_eq g _ := s.parent?_define f g value
  count_le g there := by
    by_cases same : f = g
    · subst same
      rw [s.count_define_self value there]
      exact Nat.le_succ _
    · exact Nat.le_of_eq (s.count_define_of_ne value same).symm

/-- Assigning to a slot adds none. -/
theorem set (s : Store α) (f : FrameRef) (slot : Nat) (value : α) :
    s.GrowsInto (s.set f slot value) where
  next_le := Nat.le_of_eq (s.next_set f slot value).symm
  parent?_eq g _ := s.parent?_set f g slot value
  count_le g _ := Nat.le_of_eq (s.count_set f g slot value).symm

variable (h : s.GrowsInto s')

include h

/-- Whatever is at a distance stays there. -/
theorem ancestor?_eq {distance : Nat} {g : FrameRef} (reached : s.ancestor? f distance = some g) :
    s'.ancestor? f distance = some g := by
  induction distance generalizing f with
  | zero => exact reached
  | succ distance ih =>
    rw [ancestor?] at reached ⊢
    cases found : s.parent? f with
    | none =>
      rw [found] at reached
      cases reached
    | some parent =>
      rw [found] at reached
      have there : f < s.next := by
        refine Nat.lt_of_not_le fun beyond => ?_
        rw [parent?_of_le beyond] at found
        cases found
      rw [h.parent?_eq f there, found]
      exact ih reached

/-- **An address that leads to a value** leads to one ever after. -/
theorem isSome_getAt? {distance slot : Nat} (found : (s.getAt? f distance slot).isSome) :
    (s'.getAt? f distance slot).isSome := by
  unfold getAt? at found ⊢
  cases reached : s.ancestor? f distance with
  | none =>
    rw [reached] at found
    cases found
  | some g =>
    rw [reached, Option.bind_some, isSome_get?_iff] at found
    rw [h.ancestor?_eq reached, Option.bind_some, isSome_get?_iff]
    exact Nat.lt_of_lt_of_le found (h.count_le g (s.lt_next_of_lt_count g found))

end GrowsInto

/-- Where parents are older than their children, a chain goes from younger frames to older ones. -/
theorem Chain.pairwise (older : ∀ f parent, s.parent? f = some parent → parent < f)
    {chain : List FrameRef} (leads : s.Chain f chain) : chain.Pairwise (· > ·) := by
  suffices chain.Pairwise (· > ·) ∧ ∀ g ∈ chain, g ≤ f from this.1
  induction leads with
  | outermost => simp
  | @inner f parent outer found _ ih =>
    have below : ∀ g ∈ outer, g < f := fun g mem =>
      Nat.lt_of_le_of_lt (ih.2 g mem) (older f parent found)
    refine ⟨List.pairwise_cons.2 ⟨below, ih.1⟩, fun g mem => ?_⟩
    rcases List.mem_cons.1 mem with rfl | mem
    · exact Nat.le_refl g
    · exact Nat.le_of_lt (below g mem)

end Store

/-! ## Rooted machines -/

/-- A value among `n` frames: if it is a function, it was made in one of them or in the global
scope. -/
def Value.Among (n : Nat) : Value → Prop
  | .closure f => ∀ scope ∈ f.scope, scope < n
  | _ => True

/-- What a statement may return among `n` frames. -/
def Flow.Among (n : Nat) : Flow → Prop
  | .normal => True
  | .returned value => value.Among n

/-- A value among some frames is one among more frames. -/
theorem Value.Among.mono {value : Value} {n n' : Nat} (h : value.Among n) (le : n ≤ n') :
    value.Among n' := by
  cases value with
  | closure f => exact fun scope mem => Nat.lt_of_lt_of_le (h scope mem) le
  | _ => trivial

theorem Value.among_ofLiteral (n : Nat) (literal : Literal) :
    (Value.ofLiteral literal).Among n := by
  cases literal <;> trivial

/-- **A machine in which every frame has an older parent or none**, and whatever refers to a frame
refers to one that there is: the machine itself, and the functions that globals and frames hold. -/
structure Machine.Rooted (m : Machine) : Prop where
  older : ∀ f parent, m.store.parent? f = some parent → parent < f
  current : ∀ f ∈ m.current, f < m.store.next
  globals : ∀ (name : String) (value : Value), m.globals[name]? = some value →
    value.Among m.store.next
  slots : ∀ (f : FrameRef) (slot : Nat) (value : Value), m.store.get? f slot = some value →
    value.Among m.store.next

/-- **What a machine can become**: it is rooted, and its store has grown. -/
structure Machine.Becomes (m m' : Machine) : Prop where
  rooted : m'.Rooted
  grows : m.store.GrowsInto m'.store

namespace Machine

variable {m m' m'' : Machine}

theorem Rooted.becomes (h : m.Rooted) : m.Becomes m := ⟨h, .refl _⟩

/-- Becoming twice is becoming. -/
theorem Becomes.trans (h : m.Becomes m') (h' : m'.Becomes m'') : m.Becomes m'' :=
  ⟨h'.rooted, h.grows.trans h'.grows⟩

/-! ### One operation at a time -/

namespace Rooted

variable (h : m.Rooted)

include h

/-- What is no concern of the frames may change. -/
theorem of_eq (store : m'.store = m.store) (current : m'.current = m.current)
    (globals : m'.globals = m.globals) : m.Becomes m' := by
  refine ⟨⟨?_, ?_, ?_, ?_⟩, ?_⟩ <;> rw [store]
  · exact h.older
  · rw [current]
    exact h.current
  · rw [globals]
    exact h.globals
  · exact h.slots
  · exact .refl _

/-- A global variable set to a value that refers to a frame that there is. -/
theorem insertGlobal (name : String) {value : Value} (among : value.Among m.store.next) :
    m.Becomes { m with globals := m.globals.insert name value } := by
  refine ⟨⟨h.older, h.current, fun other found known => ?_, h.slots⟩, .refl _⟩
  rw [Std.HashMap.getElem?_insert] at known
  split at known
  · cases known
    exact among
  · exact h.globals other found known

/-- A slot set to such a value. -/
theorem set (f : FrameRef) (slot : Nat) {value : Value} (among : value.Among m.store.next) :
    m.Becomes { m with store := m.store.set f slot value } := by
  have next : (m.store.set f slot value).next = m.store.next := m.store.next_set f slot value
  refine ⟨⟨fun g parent found => ?_, ?_, ?_, fun g slot' found known => ?_⟩, .set _ _ _ _⟩
  · exact h.older g parent ((m.store.parent?_set f g slot value).symm.trans found)
  · rw [next]
    exact h.current
  · rw [next]
    exact h.globals
  · rw [next]
    by_cases same : f = g ∧ slot = slot'
    · obtain ⟨rfl, rfl⟩ := same
      have holds := (Store.isSome_get?_iff _ f).1 (Option.isSome_iff_exists.2 ⟨found, known⟩)
      rw [m.store.count_set] at holds
      rw [m.store.get?_set_self value holds] at known
      cases known
      exact among
    · rw [m.store.get?_set_of_ne value same] at known
      exact h.slots g slot' found known

/-- Such a value added to a frame. -/
theorem define {f : FrameRef} {value : Value} (there : f < m.store.next)
    (among : value.Among m.store.next) :
    m.Becomes { m with store := m.store.define f value } := by
  have next : (m.store.define f value).next = m.store.next := m.store.next_define f value
  refine ⟨⟨fun g parent found => ?_, ?_, ?_, fun g slot found known => ?_⟩, .define _ _ _⟩
  · exact h.older g parent ((m.store.parent?_define f g value).symm.trans found)
  · rw [next]
    exact h.current
  · rw [next]
    exact h.globals
  · rw [next]
    by_cases same : f = g
    · subst same
      rw [m.store.get?_define_self value there] at known
      split at known
      · cases known
        exact among
      · exact h.slots f slot found known
    · rw [m.store.get?_define_of_ne value same] at known
      exact h.slots g slot found known

/-- **A new frame** hangs under one that there is. -/
theorem enter {frame : Frame Value} (parent : ∀ f ∈ frame.parent, f < m.store.next)
    (values : ∀ value ∈ frame.values, value.Among m.store.next) : m.Becomes (m.enter frame) := by
  have next : (m.store.allocate frame).next = m.store.next + 1 := m.store.next_allocate frame
  have wider {value : Value} (among : value.Among m.store.next) :
      value.Among (m.store.allocate frame).next :=
    among.mono (next ▸ Nat.le_succ _)
  have beyond {g : FrameRef} (gt : m.store.next < g) : (m.store.allocate frame).next ≤ g :=
    next ▸ gt
  refine ⟨⟨fun g p found => ?_, ?_, fun name value known => wider (h.globals name value known),
    fun g slot value known => wider ?_⟩, .allocate _ _⟩
  · replace found : (m.store.allocate frame).parent? g = some p := found
    rcases Nat.lt_trichotomy g m.store.next with lt | rfl | gt
    · rw [m.store.parent?_allocate_of_lt frame lt] at found
      exact h.older g p found
    · rw [m.store.parent?_allocate_next] at found
      exact parent p found
    · rw [Store.parent?_of_le (beyond gt)] at found
      cases found
  · rintro f ⟨⟩
    exact next ▸ Nat.lt_succ_self _
  · replace known : (m.store.allocate frame).get? g slot = some value := known
    rcases Nat.lt_trichotomy g m.store.next with lt | rfl | gt
    · rw [m.store.get?_allocate_of_lt frame lt] at known
      exact h.slots g slot value known
    · rw [m.store.get?_allocate_next] at known
      exact values value (Array.mem_of_getElem? known)
    · have empty : (m.store.allocate frame).count g ≤ slot := by
        rw [Store.count_of_le _ (beyond gt)]
        exact Nat.zero_le slot
      rw [Store.get?_eq_none _ g empty] at known
      cases known

/-- A new frame for a block, whose parent is the current one. -/
theorem enterBlock : m.Becomes (m.enter { parent := m.current }) :=
  h.enter h.current fun _ mem => absurd mem (Array.not_mem_empty _)

/-- The frame of a call hangs under the frame that the function was made in. -/
theorem enterCall {f : Closure} {given : List Value}
    (among : (Value.closure f).Among m.store.next)
    (all : ∀ value ∈ given, value.Among m.store.next) :
    m.Becomes (m.enter ⟨given.toArray, f.scope⟩) :=
  h.enter among fun value mem => all value (List.mem_toArray.1 mem)

end Rooted

/-- Coming back to a frame that was there before. -/
theorem Becomes.leave (h : m.Becomes m') {current : Option FrameRef}
    (there : ∀ f ∈ current, f < m.store.next) : m.Becomes { m' with current } := by
  refine ⟨⟨h.rooted.older, fun f mem => ?_, h.rooted.globals, h.rooted.slots⟩, h.grows⟩
  exact Nat.lt_of_lt_of_le (there f mem) h.grows.next_le

/-- The only values in a table of built-in functions are those. -/
theorem native_of_insertMany {natives : List Native} {table : Std.HashMap String Value}
    (before : ∀ (name : String) (value : Value), table[name]? = some value →
      ∃ n, value = .native n) {name : String} {value : Value}
    (known : (table.insertMany (natives.map fun n => (n.name, Value.native n)))[name]?
      = some value) : ∃ n, value = .native n := by
  induction natives generalizing table with
  | nil =>
    rw [List.map_nil, Std.HashMap.insertMany_nil] at known
    exact before name value known
  | cons n rest ih =>
    rw [List.map_cons, Std.HashMap.insertMany_cons] at known
    refine ih (fun other found inserted => ?_) known
    rw [Std.HashMap.getElem?_insert] at inserted
    split at inserted
    · cases inserted
      exact ⟨n, rfl⟩
    · exact before other found inserted

/-- At the start there are no frames, and all globals are native. -/
theorem rooted_fresh (out : Sink) (clock : Nat → Nat) : Rooted { out, clock } where
  older f parent found := by
    rw [Store.parent?_of_le (Nat.zero_le f)] at found
    cases found
  current f mem := by cases mem
  globals name value known := by
    replace known : (Std.HashMap.ofList (Native.all.map _))[name]? = some value := known
    rw [Std.HashMap.ofList_eq_insertMany_empty] at known
    obtain ⟨n, rfl⟩ := native_of_insertMany (fun other found inserted => by
      rw [Std.HashMap.getElem?_empty] at inserted
      cases inserted) known
    trivial
  slots f slot value known := by cases known

end Machine

end Kix
