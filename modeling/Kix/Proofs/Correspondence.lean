import Kix.Proofs.Standpoints

/-!
# Machines that hold the same variables

Two values are `Like` each other when they are equal but for the frame and the
environment that a closure keeps, and these spell out the same cells. Two
machines are `Alike` under a placement when slots and cells that stand for each
other hold like values, and likewise the globals, and when all else that they
share is equal.

The lemmas here say what one operation does to machines that are alike: an
operator, an assignment, a new variable, a new frame. Running programs
(`Kix.Proofs.Simulation`) is a matter of putting them in sequence.
-/

namespace Kix

open Lexical (CellRef Env)

variable {L : Legend} {σ σ' : Store Value} {w w' : Placement} {own : Option FrameRef}

/-! ## Like values -/

/-- **Like values.** The body of a closure is code that the legend describes at
the place where its frame and its environment stand. -/
inductive Like (L : Legend) (σ : Store Value) (w : Placement) : Value → Lexical.Value → Prop where
  | nil : Like L σ w .nil .nil
  | bool (b : Bool) : Like L σ w (.bool b) (.bool b)
  | number (x : Float) : Like L σ w (.number x) (.number x)
  | string (s : String) : Like L σ w (.string s) (.string s)
  | native (f : Native) : Like L σ w (.native f) (.native f)
  | closure {id : Nat} {name : String} {params : List Token} {body : List Stmt}
    {scope : Option FrameRef} {env : Env} {Γ : Context} :
    Chain σ w Γ scope env → BodyKnown L ((params.map Token.lexeme).reverse :: Γ) body →
    Like L σ w (.closure ⟨id, name, params, body, scope⟩) (.closure ⟨id, name, params, body, env⟩)

namespace Like

variable {a b : Value} {a' b' : Lexical.Value}

/-- Like values stay alike while frames are made. -/
theorem mono (g : Grows own σ w σ' w') (h : Like L σ w a a') : Like L σ' w' a a' := by
  cases h with
  | nil => exact .nil
  | bool b => exact .bool b
  | number x => exact .number x
  | string s => exact .string s
  | native f => exact .native f
  | closure chain known => exact .closure (chain.mono g) known

/-- They stay alike when more code is described. -/
theorem extend {L' : Legend} (hL : L.Extends L') (h : Like L σ w a a') : Like L' σ w a a' := by
  cases h with
  | nil => exact .nil
  | bool b => exact .bool b
  | number x => exact .number x
  | string s => exact .string s
  | native f => exact .native f
  | closure chain known => exact .closure chain ⟨known.placed, known.covered.mono hL⟩

/-- Like values are displayed alike, closures by their names. -/
theorem display (h : Like L σ w a a') : a'.face.display = a.display := by
  cases h <;> rfl

theorem isTruthy (h : Like L σ w a a') : a'.face.isTruthy = a.isTruthy := by
  cases h <;> rfl

/-- Like values take as many arguments. -/
theorem arity? (h : Like L σ w a a') : a'.face.arity? = a.arity? := by
  cases h <;> rfl

/-- **Equality is the same on both sides**, also for closures, which have numbers. -/
theorem equals (h : Like L σ w a a') (h' : Like L σ w b b') :
    a'.face.equals b'.face = a.equals b := by
  cases h <;> cases h' <;> rfl

/-- Whether a value decides `and` or `or` is a matter of its truth. -/
theorem decides (kind : Kind) (h : Like L σ w a a') :
    Operator.decides kind a'.face = Operator.decides kind a := by
  unfold Operator.decides
  rw [h.isTruthy]

/-- Operators in front of an operand do not look into closures. -/
theorem unary (kind : Kind) (h : Like L σ w a a') :
    Operator.unary kind a'.face = Operator.unary kind a := by
  cases kind with
  | bang =>
    show Except.ok (Value.bool (!a'.face.isTruthy)) = Except.ok (Value.bool (!a.isTruthy))
    rw [h.isTruthy]
  | minus => cases h <;> rfl
  | _ => rfl

/-- Adding does not look into closures. -/
theorem plus (h : Like L σ w a a') (h' : Like L σ w b b') :
    Operator.plus a'.face b'.face = Operator.plus a b := by
  cases h <;> cases h' <;> rfl

/-- **Operators do not look into closures.** -/
theorem binary (kind : Kind) (h : Like L σ w a a') (h' : Like L σ w b b') :
    Operator.binary kind a'.face b'.face = Operator.binary kind a b := by
  unfold Operator.binary
  split
  · exact h.plus h'
  · rw [h.equals h']
  · rw [h.equals h']
  · cases Operator.arithmetic? kind <;> cases h <;> cases h' <;> rfl

/-- A value that is no closure is like the value with the same face. -/
theorem ofFace {v : Value} (h : ∀ c, v ≠ .closure c) : Like L σ w v (.ofFace v) := by
  cases v with
  | nil => exact .nil
  | bool b => exact .bool b
  | number x => exact .number x
  | string s => exact .string s
  | native f => exact .native f
  | closure c => exact absurd rfl (h c)

end Like

namespace Operator

/-- An operator in front of an operand makes no closure. -/
theorem unary_ne_closure {kind : Kind} {a v : Value} (h : unary kind a = .ok v) (c : Closure) :
    v ≠ .closure c := by
  unfold unary at h
  split at h
  · cases h
    nofun
  · split at h
    · cases h
      nofun
    · nomatch h
  · nomatch h

/-- Adding makes no closure. -/
theorem plus_ne_closure {a b v : Value} (h : plus a b = .ok v) (c : Closure) :
    v ≠ .closure c := by
  unfold plus at h
  split at h <;> cases h <;> nofun

/-- Arithmetic makes no closure. -/
theorem arithmetic?_ne_closure {kind : Kind} {operate : Float → Float → Value}
    (h : arithmetic? kind = some operate) (x y : Float) (c : Closure) :
    operate x y ≠ .closure c := by
  unfold arithmetic? at h
  split at h <;> cases h <;> nofun

/-- Operators never make closures. -/
theorem binary_ne_closure {kind : Kind} {a b v : Value} (h : binary kind a b = .ok v)
    (c : Closure) : v ≠ .closure c := by
  unfold binary at h
  split at h
  · exact plus_ne_closure h c
  · cases h
    nofun
  · cases h
    nofun
  · split at h
    · next operate x y hop =>
      cases h
      exact arithmetic?_ne_closure hop x y c
    · nomatch h
    · nomatch h

end Operator

theorem Value.ofLiteral_ne_closure (l : Literal) (c : Closure) :
    Value.ofLiteral l ≠ .closure c := by
  cases l <;> nofun

/-- Two lists of values that are like each other, position by position. -/
def LikeAll (L : Legend) (σ : Store Value) (w : Placement) (vs : List Value)
    (vs' : List Lexical.Value) : Prop :=
  ∀ i : Nat, Option.Rel (Like L σ w) vs[i]? vs'[i]?

/-- What is possibly there and like stays so. -/
theorem Like.rel_mono {a : Option Value} {a' : Option Lexical.Value} (g : Grows own σ w σ' w')
    (h : Option.Rel (Like L σ w) a a') : Option.Rel (Like L σ' w') a a' := by
  cases h with
  | none => exact .none
  | some h => exact .some (h.mono g)

/-- A slot is filled exactly if its cell is. -/
theorem Like.rel_isSome {a : Option Value} {a' : Option Lexical.Value}
    (h : Option.Rel (Like L σ w) a a') : a.isSome = a'.isSome := by
  cases h <;> rfl

/-- Tables that hold like values hold like values after an insertion. -/
theorem Like.rel_insert {t : Std.HashMap String Value} {t' : Std.HashMap String Lexical.Value}
    (h : ∀ x : String, Option.Rel (Like L σ w) t[x]? t'[x]?) (name : String) {v : Value}
    {v' : Lexical.Value} (hv : Like L σ w v v') (x : String) :
    Option.Rel (Like L σ w) (t.insert name v)[x]? (t'.insert name v')[x]? := by
  rw [Std.HashMap.getElem?_insert, Std.HashMap.getElem?_insert]
  by_cases hx : (name == x) = true
  · rw [if_pos hx, if_pos hx]
    exact .some hv
  · rw [if_neg hx, if_neg hx]
    exact h x

namespace LikeAll

variable {vs : List Value} {vs' : List Lexical.Value}

theorem nil : LikeAll L σ w [] [] := fun _ => .none

theorem cons {v : Value} {v' : Lexical.Value} (h : Like L σ w v v') (hs : LikeAll L σ w vs vs') :
    LikeAll L σ w (v :: vs) (v' :: vs')
  | 0 => .some h
  | i + 1 => hs i

/-- Values that are alike stay so while frames are made. -/
theorem mono (g : Grows own σ w σ' w') (h : LikeAll L σ w vs vs') : LikeAll L σ' w' vs vs' :=
  fun i => Like.rel_mono g (h i)

theorem head {v : Value} {v' : Lexical.Value} (h : LikeAll L σ w (v :: vs) (v' :: vs')) :
    Like L σ w v v' := by
  cases h 0 with
  | some like => exact like

/-- There are as many values on both sides. -/
theorem length_eq (h : LikeAll L σ w vs vs') : vs'.length = vs.length := by
  have same (i : Nat) : vs[i]?.isSome = vs'[i]?.isSome := Like.rel_isSome (h i)
  refine Nat.le_antisymm (Nat.le_of_not_lt fun hlt => ?_) (Nat.le_of_not_lt fun hlt => ?_)
  · have := same vs.length
    rw [List.getElem?_eq_none (Nat.le_refl _), List.getElem?_eq_getElem hlt] at this
    exact nomatch this
  · have := same vs'.length
    rw [List.getElem?_eq_none (Nat.le_refl _), List.getElem?_eq_getElem hlt] at this
    exact nomatch this

end LikeAll

/-! ## Machines that are alike -/

/-- **Machines that are alike** under a placement. No two slots share a cell, and
frames that were not made yet have no cells. -/
structure Alike (L : Legend) (w : Placement) (m : Machine) (n : Lexical.Machine) : Prop where
  addresses : ∀ id : OccurrenceId, m.addresses[id]? = L.address? id
  globals : ∀ name : String, Option.Rel (Like L m.store w) m.globals[name]? n.globals[name]?
  contents : ∀ {f : FrameRef} {slot : Nat} {cell : CellRef}, (w f)[slot]? = some cell →
    Option.Rel (Like L m.store w) (m.store.get? f slot) n.cells[cell]?.join
  bounded : ∀ {f : FrameRef} {slot : Nat} {cell : CellRef}, (w f)[slot]? = some cell →
    cell < n.cells.size
  injective : ∀ {f g : FrameRef} {i j : Nat} {cell : CellRef},
    (w f)[i]? = some cell → (w g)[j]? = some cell → f = g ∧ i = j
  unplaced : ∀ f, m.store.next ≤ f → w f = []
  nextClosure : n.nextClosure = m.nextClosure
  out : n.out = m.out
  clock : n.clock = m.clock
  readings : n.readings = m.readings

namespace Alike

variable {m : Machine} {n : Lexical.Machine}

/-- Only frames that were made have cells. -/
theorem lt_next (h : Alike L w m n) {f : FrameRef} {slot : Nat} {cell : CellRef}
    (hcell : (w f)[slot]? = some cell) : f < m.store.next := by
  refine Nat.lt_of_not_le fun hle => ?_
  rw [h.unplaced f hle] at hcell
  exact nomatch hcell

/-- Which frame is current does not matter. -/
theorem at_frame (h : Alike L w m n) (current : Option FrameRef) :
    Alike L w { m with current } n :=
  { h with }

theorem put (h : Alike L w m n) (text : String) :
    Alike L w { m with out := m.out.put text } { n with out := n.out.put text } :=
  { h with out := by rw [h.out] }

theorem readClock (h : Alike L w m n) :
    Alike L w { m with readings := m.readings + 1 } { n with readings := n.readings + 1 } :=
  { h with readings := by rw [h.readings] }

theorem countClosure (h : Alike L w m n) :
    Alike L w { m with nextClosure := m.nextClosure + 1 }
      { n with nextClosure := n.nextClosure + 1 } :=
  { h with nextClosure := by rw [h.nextClosure] }

/-- Setting a global variable to like values. -/
theorem setGlobal (h : Alike L w m n) (name : String) {v : Value} {v' : Lexical.Value}
    (hv : Like L m.store w v v') :
    Alike L w { m with globals := m.globals.insert name v }
      { n with globals := n.globals.insert name v' } :=
  { h with globals := Like.rel_insert h.globals name hv }

end Alike

/-! ## Assignments -/

/-- **A slot and its cell get a value**, and no other slot changes. -/
theorem Alike.fill {m : Machine} {n : Lexical.Machine} (h : Alike L w m n) {f : FrameRef}
    {slot : Nat} {cell : CellRef} (hcell : (w f)[slot]? = some cell)
    (grows : Grows own m.store w σ' w) (same_next : σ'.next = m.store.next)
    {v : Value} {v' : Lexical.Value} (hv : Like L σ' w v v') (here : σ'.get? f slot = some v)
    (elsewhere : ∀ {f' : FrameRef} {slot' : Nat}, ¬(f = f' ∧ slot = slot') →
      σ'.get? f' slot' = m.store.get? f' slot') :
    Alike L w { m with store := σ' }
      { n with cells := n.cells.setIfInBounds cell (some v') } := by
  exact { h with
    globals := fun name => Like.rel_mono grows (h.globals name)
    contents := fun {f' slot' cell'} hcell' => by
      show Option.Rel _ (σ'.get? f' slot') (n.cells.setIfInBounds cell (some v'))[cell']?.join
      rw [Array.getElem?_setIfInBounds]
      by_cases same : cell = cell'
      · obtain ⟨rfl, rfl⟩ := h.injective hcell (same ▸ hcell')
        rw [if_pos same, if_pos (h.bounded hcell), here]
        exact .some hv
      · -- another cell stands for another slot
        have other : ¬(f = f' ∧ slot = slot') := by
          rintro ⟨rfl, rfl⟩
          exact same (Option.some.inj (hcell.symm.trans hcell'))
        rw [if_neg same, elsewhere other]
        exact Like.rel_mono grows (h.contents hcell')
    bounded := fun hcell' => by
      show _ < (n.cells.setIfInBounds cell (some v')).size
      rw [Array.size_setIfInBounds]
      exact h.bounded hcell'
    unplaced := fun f' hle => h.unplaced f' (same_next ▸ hle) }

/-- Assigning to a slot makes no frame longer. -/
theorem Grows.set (σ : Store Value) (w : Placement) (f : FrameRef) (slot : Nat) (v : Value) :
    Grows none σ w (σ.set f slot v) w where
  next_le := Nat.le_of_eq (σ.next_set f slot v).symm
  parent g _ := σ.parent?_set f g slot v
  count_le g _ := Nat.le_of_eq (σ.count_set f g slot v).symm
  count_eq g _ _ := σ.count_set f g slot v
  cells_prefix _ _ := List.prefix_rfl
  cells_eq _ _ _ := rfl

/-- **Assigning to a slot and to its cell.** No other slot has this cell. -/
theorem Alike.set {m : Machine} {n : Lexical.Machine} (h : Alike L w m n) {f : FrameRef}
    {slot : Nat} {cell : CellRef} (hcell : (w f)[slot]? = some cell)
    (hslot : slot < m.store.count f) {v : Value} {v' : Lexical.Value}
    (hv : Like L m.store w v v') :
    Alike L w { m with store := m.store.set f slot v }
      { n with cells := n.cells.setIfInBounds cell (some v') } := by
  have grows := Grows.set m.store w f slot v
  exact h.fill hcell grows (m.store.next_set f slot v) (hv.mono grows)
    (m.store.get?_set_self v hslot) fun other => m.store.get?_set_of_ne v other

/-! ## New variables -/

/-- A placement with other cells for one frame. -/
def Placement.put (w : Placement) (f : FrameRef) (cells : List CellRef) : Placement :=
  fun g => if g = f then cells else w g

@[simp] theorem Placement.put_self (w : Placement) (f : FrameRef) (cells : List CellRef) :
    w.put f cells f = cells :=
  if_pos rfl

/-- The cells of the other frames stay. -/
theorem Placement.put_of_ne (w : Placement) {f g : FrameRef} (cells : List CellRef) (h : g ≠ f) :
    w.put f cells g = w g :=
  if_neg h

/-- With one more cell for a frame: the slots that were there, and a new one. -/
theorem Placement.of_put_concat {w : Placement} {f f' : FrameRef} {slot : Nat}
    {cell new : CellRef} (hcell : (w.put f (w f ++ [new]) f')[slot]? = some cell) :
    (w f')[slot]? = some cell ∨ f' = f ∧ slot = (w f).length ∧ cell = new := by
  by_cases hne : f' = f
  · subst hne
    rw [w.put_self, List.getElem?_append] at hcell
    split at hcell
    · exact .inl hcell
    · next hslot =>
      rw [List.getElem?_singleton] at hcell
      split at hcell
      · next hzero => exact .inr ⟨rfl, by omega, (Option.some.inj hcell).symm⟩
      · exact nomatch hcell
  · rw [w.put_of_ne _ hne] at hcell
    exact .inl hcell

/-- With cells in a row for a frame: the slots of other frames, and the new ones. -/
theorem Placement.of_put_range' {w : Placement} {f f' : FrameRef} {slot first count : Nat}
    {cell : CellRef} (hcell : (w.put f (List.range' first count) f')[slot]? = some cell) :
    (w f')[slot]? = some cell ∨ f' = f ∧ slot < count ∧ cell = first + slot := by
  by_cases hne : f' = f
  · subst hne
    rw [w.put_self] at hcell
    have hlt : slot < count := by
      simpa using (List.getElem?_eq_some_iff.1 hcell).1
    rw [List.getElem?_range' hlt, Nat.one_mul] at hcell
    exact .inr ⟨rfl, hlt, (Option.some.inj hcell).symm⟩
  · rw [w.put_of_ne _ hne] at hcell
    exact .inl hcell

/-- A frame gets a cell for a variable that it has no value for yet. -/
theorem Grows.reserve (σ : Store Value) (w : Placement) (f : FrameRef) (cell : CellRef) :
    Grows (some f) σ w σ (w.put f (w f ++ [cell])) where
  next_le := Nat.le_refl _
  parent _ _ := rfl
  count_le _ _ := Nat.le_refl _
  count_eq _ _ _ := rfl
  cells_prefix g _ := by
    by_cases hg : g = f
    · subst hg
      rw [w.put_self]
      exact List.prefix_append _ _
    · rewrite [w.put_of_ne _ hg]
      exact List.prefix_rfl
  cells_eq g _ hne := w.put_of_ne _ fun hg => hne (congrArg some hg.symm)

/-- A cell that is still empty belongs to no slot yet: the frame has no value for it. -/
theorem Alike.reserve {m : Machine} {n : Lexical.Machine} (h : Alike L w m n) {f : FrameRef}
    (hf : f < m.store.next) (hcells : m.store.count f ≤ (w f).length) :
    Alike L (w.put f (w f ++ [n.cells.size])) m { n with cells := n.cells.push none } := by
  have g := Grows.reserve m.store w f n.cells.size
  exact { h with
    globals := fun name => Like.rel_mono g (h.globals name)
    contents := fun {f' slot cell} hcell => by
      show Option.Rel _ _ (n.cells.push none)[cell]?.join
      rw [Array.getElem?_push]
      obtain old | ⟨rfl, rfl, rfl⟩ := Placement.of_put_concat hcell
      · rw [if_neg (Nat.ne_of_lt (h.bounded old))]
        exact Like.rel_mono g (h.contents old)
      · rw [if_pos rfl, m.store.get?_eq_none f' hcells]
        exact .none
    bounded := fun {f' slot cell} hcell => by
      show cell < (n.cells.push none).size
      rw [Array.size_push]
      obtain old | ⟨-, -, rfl⟩ := Placement.of_put_concat hcell
      · exact Nat.lt_succ_of_lt (h.bounded old)
      · exact Nat.lt_succ_self _
    injective := fun {f₁ f₂ i j cell} hi hj => by
      obtain old | ⟨rfl, rfl, rfl⟩ := Placement.of_put_concat hi <;>
        obtain old' | ⟨rfl, rfl, hc⟩ := Placement.of_put_concat hj
      · exact h.injective old old'
      · exact absurd (h.bounded old) (hc ▸ Nat.lt_irrefl _)
      · exact absurd (h.bounded old') (Nat.lt_irrefl _)
      · exact ⟨rfl, rfl⟩
    unplaced := fun f' hle => by
      rw [w.put_of_ne _ (Nat.ne_of_gt (Nat.lt_of_lt_of_le hf hle))]
      exact h.unplaced f' hle }

/-- Only the frame that a value is defined in gets longer. -/
theorem Grows.define (σ : Store Value) (w : Placement) {f : FrameRef} (hf : f < σ.next)
    (v : Value) : Grows (some f) σ w (σ.define f v) w where
  next_le := Nat.le_of_eq (σ.next_define f v).symm
  parent g _ := σ.parent?_define f g v
  count_le g _ := by
    by_cases hg : f = g
    · subst hg
      rw [σ.count_define_self v hf]
      exact Nat.le_succ _
    · rewrite [σ.count_define_of_ne v hg]
      exact Nat.le_refl _
  count_eq g _ hne := σ.count_define_of_ne v fun hg => hne (congrArg some hg)
  cells_prefix _ _ := List.prefix_rfl
  cells_eq _ _ _ := rfl

/-- The variable gets its value, on both sides. -/
theorem Alike.define {m : Machine} {n : Lexical.Machine} (h : Alike L w m n) {f : FrameRef}
    {cell : CellRef} (hcell : (w f)[m.store.count f]? = some cell) {v : Value} {v' : Lexical.Value}
    (hv : Like L (m.store.define f v) w v v') :
    Alike L w { m with store := m.store.define f v }
      { n with cells := n.cells.setIfInBounds cell (some v') } := by
  have hf := h.lt_next hcell
  refine h.fill hcell (Grows.define m.store w hf v) (m.store.next_define f v) hv ?_ ?_
  · rw [m.store.get?_define_self v hf, if_pos rfl]
  · intro f' slot' other
    by_cases hff : f = f'
    · subst hff
      rw [m.store.get?_define_self v hf, if_neg fun heq => other ⟨rfl, heq.symm⟩]
    · exact m.store.get?_define_of_ne v hff slot'

/-- Inside the initializer of a local variable: the variable has a cell. -/
theorem Standpoint.reserve {names : List String} {outer : Context} {f : FrameRef} {env : Env}
    (h : Running σ w (names :: outer) (some f) (some env)) (x : String) (cell : CellRef) :
    Standpoint σ (w.put f (w f ++ [cell])) ((x :: names) :: outer) (some x) (some f)
      ((x, cell) :: env) := by
  cases h with
  | @inFrame _ _ _ rest hf hcount hcells hrest =>
    have grows := Grows.reserve σ w f cell
    have put := w.put_self f (w f ++ [cell])
    have spelled : bindings (w.put f (w f ++ [cell]) f) (x :: names) ++ rest
        = (x, cell) :: (bindings (w f) names ++ rest) := by
      rw [put, bindings, bindings_of_prefix (List.prefix_append _ _) (Nat.le_of_eq hcells.symm),
        ← hcells, List.getElem?_concat_length]
      rfl
    rw [← spelled]
    refine .pending hf hcount ?_ (hrest.mono grows)
    rw [put, List.length_append, hcells]
    rfl

/-- The cell of the variable stands for the next slot of the frame. -/
theorem Standpoint.reserved {Γ : Context} {f : FrameRef} {x : String} {cell : CellRef} {env : Env}
    (h : Standpoint σ w Γ (some x) (some f) ((x, cell) :: env)) :
    (w f)[σ.count f]? = some cell := by
  generalize hfull : (x, cell) :: env = full at h
  cases h with
  | @pending _ names _ _ _ hf hcount hcells hrest =>
    have hcell : cell = (w f)[names.length]?.getD 0 := congrArg Prod.snd (List.cons.inj hfull).1
    rw [hcell, hcount, List.getElem?_eq_getElem (hcells ▸ Nat.lt_succ_self _)]
    rfl

/-- Behind the initializer the variable has its value. -/
theorem Standpoint.define {Γ : Context} {f : FrameRef} {x : String} {env : Env}
    (h : Standpoint σ w Γ (some x) (some f) env) (v : Value) :
    Running (σ.define f v) w Γ (some f) (some env) := by
  cases h with
  | pending hf hcount hcells hrest =>
    refine .inFrame ?_ ?_ hcells ?_
    · rw [σ.next_define]
      exact hf
    · rw [σ.count_define_self v hf, hcount]
      rfl
    · rw [σ.parent?_define]
      exact hrest.mono (Grows.define σ w hf v)

/-! ## New frames -/

/-- A new frame leaves the older ones alone. -/
theorem Grows.allocate (σ : Store Value) (w : Placement) (frame : Frame Value)
    (cells : List CellRef) : Grows none σ w (σ.allocate frame) (w.put σ.next cells) where
  next_le := by
    rw [σ.next_allocate]
    exact Nat.le_succ _
  parent _ hf := σ.parent?_allocate_of_lt frame hf
  count_le _ hf := Nat.le_of_eq (σ.count_allocate_of_lt frame hf).symm
  count_eq _ hf _ := σ.count_allocate_of_lt frame hf
  cells_prefix _ hf := by
    rewrite [w.put_of_ne cells (Nat.ne_of_lt hf)]
    exact List.prefix_rfl
  cells_eq _ hf _ := w.put_of_ne cells (Nat.ne_of_lt hf)

/-- **Entering a scope**: a new frame with a value for each of its names, under
a frame that spells out what is around. -/
theorem Running.allocate {names : List String} {Γ : Context} {parent : Option FrameRef} {env : Env}
    (chain : Chain σ w Γ parent env) {vs : List Value} {cells : List CellRef}
    (hvs : vs.length = names.length) (hcells : cells.length = names.length) :
    Running (σ.allocate ⟨vs.toArray, parent⟩) (w.put σ.next cells) (names :: Γ) (some σ.next)
      (some (bindings cells names ++ env)) := by
  have put := w.put_self σ.next cells
  suffices h : Running (σ.allocate ⟨vs.toArray, parent⟩) (w.put σ.next cells) (names :: Γ)
      (some σ.next) (some (bindings (w.put σ.next cells σ.next) names ++ env)) by
    rwa [put] at h
  refine .inFrame ?_ ?_ ?_ ?_
  · rw [σ.next_allocate]
    exact Nat.lt_succ_self _
  · rw [σ.count_allocate_next]
    exact hvs
  · rw [put, hcells]
  · rw [σ.parent?_allocate_next]
    exact chain.mono (Grows.allocate σ w ⟨vs.toArray, parent⟩ cells)

/-- A new frame with values in it, and as many new cells. -/
theorem Alike.allocate {m : Machine} {n : Lexical.Machine} (h : Alike L w m n) {vs : List Value}
    {vs' : List Lexical.Value} (hvs : LikeAll L m.store w vs vs') (parent : Option FrameRef) :
    Alike L (w.put m.store.next (List.range' n.cells.size vs'.length))
      { m with store := m.store.allocate ⟨vs.toArray, parent⟩ }
      { n with cells := n.cells ++ (vs'.map some).toArray } := by
  have g := Grows.allocate m.store w ⟨vs.toArray, parent⟩ (List.range' n.cells.size vs'.length)
  exact { h with
    globals := fun name => Like.rel_mono g (h.globals name)
    contents := fun {f slot cell} hcell => by
      show Option.Rel _ ((m.store.allocate ⟨vs.toArray, parent⟩).get? f slot)
        (n.cells ++ (vs'.map some).toArray)[cell]?.join
      rw [Array.getElem?_append]
      obtain old | ⟨rfl, hlt, rfl⟩ := Placement.of_put_range' hcell
      · rw [if_pos (h.bounded old), m.store.get?_allocate_of_lt _ (h.lt_next old)]
        exact Like.rel_mono g (h.contents old)
      · rw [if_neg (Nat.not_lt.2 (Nat.le_add_right _ _)), Nat.add_sub_cancel_left,
          m.store.get?_allocate_next]
        have value : (vs'.map some).toArray[slot]?.join = vs'[slot]? := by
          rw [List.getElem?_toArray, List.getElem?_map, List.getElem?_eq_getElem hlt]
          rfl
        rw [value, List.getElem?_toArray]
        exact Like.rel_mono g (hvs slot)
    bounded := fun {f slot cell} hcell => by
      show cell < (n.cells ++ (vs'.map some).toArray).size
      have size : (vs'.map some).toArray.size = vs'.length := List.length_map _
      rw [Array.size_append, size]
      obtain old | ⟨-, hlt, rfl⟩ := Placement.of_put_range' hcell
      · exact Nat.lt_of_lt_of_le (h.bounded old) (Nat.le_add_right _ _)
      · exact Nat.add_lt_add_left hlt _
    injective := fun {f₁ f₂ i j cell} hi hj => by
      -- The cells in use lie below `n.cells.size`, the new ones from there on.
      obtain old | ⟨rfl, -, rfl⟩ := Placement.of_put_range' hi <;>
        obtain old' | ⟨rfl, -, hc⟩ := Placement.of_put_range' hj
      · exact h.injective old old'
      · exact absurd (h.bounded old) (hc ▸ Nat.not_lt.2 (Nat.le_add_right _ _))
      · exact absurd (h.bounded old') (Nat.not_lt.2 (Nat.le_add_right _ _))
      · exact ⟨rfl, Nat.add_left_cancel hc⟩
    unplaced := fun f hle => by
      have hlt : m.store.next < f := by
        rwa [m.store.next_allocate] at hle
      rw [w.put_of_ne _ (Nat.ne_of_gt hlt)]
      exact h.unplaced f (Nat.le_of_lt hlt) }

/-- The machine inside a new frame. -/
def Machine.enter (m : Machine) (frame : Frame Value) : Machine :=
  { m with store := m.store.allocate frame, current := some m.store.next }

/-- **Entering a scope on machines that are alike.** -/
theorem Alike.enter {m : Machine} {n : Lexical.Machine} (h : Alike L w m n) {vs : List Value}
    {vs' : List Lexical.Value} (hvs : LikeAll L m.store w vs vs') {parent : Option FrameRef}
    {Γ : Context} {env : Env} (chain : Chain m.store w Γ parent env) {names : List String}
    (fits : vs.length = names.length) :
    ∃ w', Grows none m.store w (m.enter ⟨vs.toArray, parent⟩).store w'
      ∧ Alike L w' (m.enter ⟨vs.toArray, parent⟩)
        { n with cells := n.cells ++ (vs'.map some).toArray }
      ∧ Running (m.enter ⟨vs.toArray, parent⟩).store w' (names :: Γ)
        (m.enter ⟨vs.toArray, parent⟩).current
        (some (bindings (List.range' n.cells.size vs'.length) names ++ env)) := by
  have cells : (List.range' n.cells.size vs'.length).length = names.length := by
    rw [List.length_range', hvs.length_eq, fits]
  exact ⟨_, .allocate _ _ _ _, (h.allocate hvs parent).at_frame _, .allocate chain fits cells⟩

/-- Entering a block, which brings no cells. -/
theorem Alike.enterBlock {m : Machine} {n : Lexical.Machine} (h : Alike L w m n)
    {parent : Option FrameRef} {Γ : Context} {env : Env} (chain : Chain m.store w Γ parent env) :
    ∃ w', Grows none m.store w (m.enter { parent }).store w'
      ∧ Alike L w' (m.enter { parent }) n
      ∧ Running (m.enter { parent }).store w' ([] :: Γ) (m.enter { parent }).current
        (some env) := by
  have same : { n with cells := n.cells ++ #[] } = n := by rw [Array.append_empty]
  have entered := h.enter LikeAll.nil chain
    (show ([] : List Value).length = ([] : List String).length from rfl)
  rw [List.map_nil, same] at entered
  exact entered

/-- The oldest name of a scope has its first cell. -/
theorem bindings_concat (cell : CellRef) (cells : List CellRef) (x : String) :
    ∀ names : List String,
      bindings (cell :: cells) (names ++ [x]) = bindings cells names ++ [(x, cell)]
  | [] => rfl
  | y :: older => by
    rw [List.cons_append, bindings, bindings_concat cell cells x older, List.length_append]
    rfl

/-- **Binding parameters** puts their names in front of the environment, the last
one first, and their arguments into new cells. -/
theorem Lexical.bindAll_eq :
    ∀ (params : List Token) (given : List Lexical.Value) (env : Env) (n : Lexical.Machine),
      given.length = params.length →
      Lexical.Eval.bindAll (params.zip given) env n
        = .ok (bindings (List.range' n.cells.size given.length) (params.map Token.lexeme).reverse
            ++ env)
          { n with cells := n.cells ++ (given.map some).toArray }
  | [], [], env, n, _ => by
    show EStateM.Result.ok env n = .ok env { n with cells := n.cells ++ #[] }
    rw [Array.append_empty]
  | p :: params, v :: given, env, n, hlen => by
    show Lexical.Eval.bindAll (params.zip given) ((p.lexeme, n.cells.size) :: env)
      { n with cells := n.cells.push (some v) } = _
    rw [Lexical.bindAll_eq params given _ _ (Nat.succ.inj hlen), List.length_cons,
      List.range'_succ, List.map_cons, List.reverse_cons, bindings_concat, Array.size_push,
      List.append_assoc]
    have cells : n.cells.push (some v) ++ (given.map some).toArray
        = n.cells ++ ((v :: given).map some).toArray := by
      simp
    rw [cells]
    rfl

end Kix
