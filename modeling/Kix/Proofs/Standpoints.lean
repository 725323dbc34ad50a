import Kix.Proofs.Lexical
import Kix.Proofs.Sites
import Kix.Proofs.StoreLaws

/-!
# Frames and environments

Running with addresses and evaluating by name keep their variables in two
shapes: a tree of frames, found by counting, and a list of cells, found by
name. This module says when the two shapes show the same variables to a place
in a program.

A **placement** names the cell that stands for each slot of each frame. Under a
placement a frame and its parents spell out a list of cells with names, and
`Chain` says that an environment is that list. `Standpoint` does the same for
the initializer of a local variable too, where the environment already has a
cell that the frame has no value for. `Standpoint.find` is what all of this is
for: the address of a name leads to the slot that stands for the first cell of
that name.

What a program may rely on about its occurrences is collected in a `Legend`, so
that nothing here depends on how addresses were computed.
-/

namespace Kix

open Lexical (CellRef Env)

/-! ## Legends -/

/-- **What a machine relies on about occurrences**: their addresses, which of
them assign a variable in its own initializer, and a number that is larger than
all identities in use. -/
structure Legend where
  address? : OccurrenceId → Option Address
  isSelfAssignment : OccurrenceId → Prop
  bound : OccurrenceId

/-- **A site as a legend describes it.** It is no read of a variable in its own
initializer. -/
structure Site.Known (L : Legend) (s : Site) : Prop where
  below : s.occurrence.id < L.bound
  address : L.address? s.occurrence.id = s.address?
  reads : s.occurrence.reads = true → s.isOwn = false
  assigns : s.occurrence.reads = false → (L.isSelfAssignment s.occurrence.id ↔ s.isOwn = true)

namespace Legend

/-- All of some sites are as the legend describes them. -/
def Covers (L : Legend) (sites : List Site) : Prop := ∀ s ∈ sites, s.Known L

variable {L : Legend} {sites sites' : List Site}

/-- Code is described if its parts are. -/
theorem covers_append :
    L.Covers (sites ++ sites') ↔ L.Covers sites ∧ L.Covers sites' :=
  List.forall_mem_append

/-- A legend that goes further and keeps what another one says. -/
structure Extends (L L' : Legend) : Prop where
  bound_le : L.bound ≤ L'.bound
  address : ∀ id < L.bound, L'.address? id = L.address? id
  isSelfAssignment : ∀ id < L.bound, (L'.isSelfAssignment id ↔ L.isSelfAssignment id)

/-- Code that is described stays so when more is. -/
theorem Covers.mono {L' : Legend} (h : L.Covers sites) (hL : L.Extends L') : L'.Covers sites := by
  intro s hs
  have known := h s hs
  exact {
    below := Nat.lt_of_lt_of_le known.below hL.bound_le
    address := (hL.address _ known.below).trans known.address
    reads := known.reads
    assigns := fun hr => (hL.isSelfAssignment _ known.below).trans (known.assigns hr) }

end Legend

/-- The sites in the arguments of a call. -/
def argumentSites (Γ : Context) (hidden : Option String) (es : List Expr) : List Site :=
  (argumentOccurrences es).map fun o => ⟨o, Γ, hidden⟩

namespace Expr

variable (Γ : Context) (hidden : Option String)

theorem sites_group (inner : Expr) : (group inner).sites Γ hidden = inner.sites Γ hidden := by
  rw [sites, occurrences, sites]

theorem sites_unary (operator : Token) (operand : Expr) :
    (unary operator operand).sites Γ hidden = operand.sites Γ hidden := by
  rw [sites, occurrences, sites]

theorem sites_binary (left : Expr) (operator : Token) (right : Expr) :
    (binary left operator right).sites Γ hidden
      = left.sites Γ hidden ++ right.sites Γ hidden := by
  rw [sites, occurrences, List.map_append, sites, sites]

theorem sites_logical (left : Expr) (operator : Token) (right : Expr) :
    (logical left operator right).sites Γ hidden
      = left.sites Γ hidden ++ right.sites Γ hidden := by
  rw [sites, occurrences, List.map_append, sites, sites]

theorem sites_conditional (condition thenBranch elseBranch : Expr) :
    (conditional condition thenBranch elseBranch).sites Γ hidden
      = condition.sites Γ hidden ++ (thenBranch.sites Γ hidden ++ elseBranch.sites Γ hidden) := by
  rw [sites, occurrences, List.map_append, List.map_append, sites, sites, sites]

/-- A variable is the only site of its expression. -/
theorem sites_var (id : OccurrenceId) (name : Token) :
    (var id name).sites Γ hidden = [⟨⟨id, name, true⟩, Γ, hidden⟩] := by
  rw [sites, occurrences]
  rfl

/-- An assignment is a site of its own, behind those of the value. -/
theorem sites_assign (id : OccurrenceId) (name : Token) (value : Expr) :
    (assign id name value).sites Γ hidden
      = value.sites Γ hidden ++ [⟨⟨id, name, false⟩, Γ, hidden⟩] := by
  rw [sites, occurrences, List.map_append, sites]
  rfl

theorem sites_call (callee : Expr) (paren : Token) (arguments : List Expr) :
    (call callee paren arguments).sites Γ hidden
      = callee.sites Γ hidden ++ argumentSites Γ hidden arguments := by
  rw [sites, occurrences, List.map_append, sites, argumentSites]

/-- The sites of arguments are those of each. -/
theorem argumentSites_cons (e : Expr) (rest : List Expr) :
    argumentSites Γ hidden (e :: rest) = e.sites Γ hidden ++ argumentSites Γ hidden rest := by
  rw [argumentSites, argumentOccurrences, List.map_append, sites, argumentSites]

end Expr

/-- A body whose sites a legend describes, with declarations only where bodies
have them. -/
structure BodyKnown (L : Legend) (Γ : Context) (body : List Stmt) : Prop where
  placed : bodyPlaced body
  covered : L.Covers (bodySites Γ body)

/-- A statement whose sites a legend describes. -/
structure Stmt.Known (L : Legend) (Γ : Context) (s : Stmt) : Prop where
  placed : s.Placed
  covered : L.Covers (s.sites Γ)

/-- The first statement of a body is described. -/
theorem BodyKnown.head {L : Legend} {Γ : Context} {s : Stmt} {rest : List Stmt}
    (h : BodyKnown L Γ (s :: rest)) : s.Known L Γ :=
  ⟨h.placed.1, (Legend.covers_append.1 h.covered).1⟩

/-- The others are described behind what it declares. -/
theorem BodyKnown.tail {L : Legend} {Γ : Context} {s : Stmt} {rest : List Stmt}
    (h : BodyKnown L Γ (s :: rest)) : BodyKnown L (s.extend Γ) rest :=
  ⟨h.placed.2, (Legend.covers_append.1 h.covered).2⟩

/-! ## Placements -/

/-- **A placement**: the cells that stand for the slots of each frame. -/
abbrev Placement := FrameRef → List CellRef

/-- The environment that a scope spells out: its names, the latest first, each
with the cell of its slot. -/
def bindings (cells : List CellRef) : List String → Env
  | [] => []
  | x :: older => (x, cells[older.length]?.getD 0) :: bindings cells older

/-- Cells behind those of the names bind nothing. -/
theorem bindings_of_prefix {cells cells' : List CellRef} (h : cells <+: cells') :
    ∀ {names : List String}, names.length ≤ cells.length →
      bindings cells' names = bindings cells names
  | [], _ => rfl
  | x :: older, hlen => by
    obtain ⟨more, rfl⟩ := h
    rw [bindings, bindings, bindings_of_prefix ⟨more, rfl⟩ (Nat.le_of_succ_le hlen),
      List.getElem?_append_left hlen]

/-- A slot is one of those there are. -/
theorem Context.slot?_lt {name : String} {slot : Nat} :
    ∀ {names : List String}, Context.slot? name names = some slot → slot < names.length
  | [], h => nomatch h
  | x :: older, h => by
    rw [Context.slot?] at h
    split at h
    · cases h
      exact Nat.lt_succ_self _
    · exact Nat.lt_succ_of_lt (slot?_lt h)

/-- A name means its slot in the scope, or else what it means outside. -/
theorem lookup_bindings (cells : List CellRef) (rest : Env) (name : String) :
    ∀ names : List String, (bindings cells names ++ rest).lookup name
      = match Context.slot? name names with
        | some slot => some (cells[slot]?.getD 0)
        | none => rest.lookup name
  | [] => rfl
  | x :: older => by
    rw [bindings, List.cons_append, List.lookup_cons, Context.slot?]
    by_cases h : x = name
    · subst h
      rw [beq_self_eq_true, if_pos rfl]
    · rw [beq_false_of_ne (Ne.symm h), if_neg (by simpa using h),
        lookup_bindings cells rest name older]

section Growth

variable {σ σ' σ'' : Store Value} {w w' w'' : Placement} {own : Option FrameRef}

/-- **How frames and their cells change while something runs**: frames are made,
and none but the frame that runs gets more values. -/
structure Grows (own : Option FrameRef) (σ : Store Value) (w : Placement) (σ' : Store Value)
    (w' : Placement) : Prop where
  next_le : σ.next ≤ σ'.next
  parent : ∀ f < σ.next, σ'.parent? f = σ.parent? f
  count_le : ∀ f < σ.next, σ.count f ≤ σ'.count f
  count_eq : ∀ f < σ.next, own ≠ some f → σ'.count f = σ.count f
  cells_prefix : ∀ f < σ.next, w f <+: w' f
  cells_eq : ∀ f < σ.next, own ≠ some f → w' f = w f

namespace Grows

/-- Nothing has changed yet. -/
theorem refl (own : Option FrameRef) (σ : Store Value) (w : Placement) : Grows own σ w σ w where
  next_le := Nat.le_refl _
  parent _ _ := rfl
  count_le _ _ := Nat.le_refl _
  count_eq _ _ _ := rfl
  cells_prefix _ _ := List.prefix_rfl
  cells_eq _ _ _ := rfl

/-- What runs inside may fill a frame of its own, if that frame is new. -/
theorem transFrom {inner : Option FrameRef} (h : Grows own σ w σ' w')
    (h' : Grows inner σ' w' σ'' w'')
    (hinner : ∀ f, inner = some f → own = some f ∨ σ.next ≤ f) : Grows own σ w σ'' w'' := by
  have kept (f : FrameRef) (hf : f < σ.next) (hown : own ≠ some f) : inner ≠ some f := by
    intro hi
    cases hinner f hi with
    | inl same => exact hown same
    | inr new => exact absurd hf (Nat.not_lt.2 new)
  have later (f : FrameRef) (hf : f < σ.next) : f < σ'.next := Nat.lt_of_lt_of_le hf h.next_le
  exact {
    next_le := Nat.le_trans h.next_le h'.next_le
    parent := fun f hf => (h'.parent f (later f hf)).trans (h.parent f hf)
    count_le := fun f hf => Nat.le_trans (h.count_le f hf) (h'.count_le f (later f hf))
    count_eq := fun f hf hown =>
      (h'.count_eq f (later f hf) (kept f hf hown)).trans (h.count_eq f hf hown)
    cells_prefix := fun f hf => (h.cells_prefix f hf).trans (h'.cells_prefix f (later f hf))
    cells_eq := fun f hf hown =>
      (h'.cells_eq f (later f hf) (kept f hf hown)).trans (h.cells_eq f hf hown) }

/-- Growing twice is growing. -/
theorem trans (h : Grows own σ w σ' w') (h' : Grows own σ' w' σ'' w'') :
    Grows own σ w σ'' w'' :=
  h.transFrom h' fun _ => .inl

/-- What changes no old frame changes no frame but the one that runs. -/
theorem weaken (h : Grows none σ w σ' w') (own : Option FrameRef) : Grows own σ w σ' w' :=
  { h with
    count_eq := fun f hf _ => h.count_eq f hf nofun
    cells_eq := fun f hf _ => h.cells_eq f hf nofun }

end Grows

/-! ## Chains of frames -/

/-- **A frame and its parents spell out an environment** under a context. A
frame may hold more values than its scope declares before the place in
question. -/
def Chain (σ : Store Value) (w : Placement) : Context → Option FrameRef → Env → Prop
  | [], current, env => current = none ∧ env = []
  | names :: outer, current, env =>
    ∃ f rest, current = some f ∧ f < σ.next ∧ names.length ≤ σ.count f
      ∧ names.length ≤ (w f).length ∧ env = bindings (w f) names ++ rest
      ∧ Chain σ w outer (σ.parent? f) rest

/-- Frames that were made stay what they are. -/
theorem Chain.mono (g : Grows own σ w σ' w') :
    ∀ {Γ : Context} {current : Option FrameRef} {env : Env},
      Chain σ w Γ current env → Chain σ' w' Γ current env
  | [], _, _, h => h
  | names :: outer, _, _, ⟨f, rest, hcur, hf, hcount, hcells, henv, hrest⟩ => by
    refine ⟨f, rest, hcur, Nat.lt_of_lt_of_le hf g.next_le, ?_, ?_, ?_, ?_⟩
    · exact Nat.le_trans hcount (g.count_le f hf)
    · exact Nat.le_trans hcells (g.cells_prefix f hf).length_le
    · rw [henv, bindings_of_prefix (g.cells_prefix f hf) hcells]
    · rw [g.parent f hf]
      exact hrest.mono g

/-- **A place in a program that is running**, from which names are looked up.
In the initializer of a local variable the running frame has no value for that
variable, though the environment has a cell. -/
inductive Standpoint (σ : Store Value) (w : Placement) :
    Context → Option String → Option FrameRef → Env → Prop where
  | settled {Γ : Context} {current : Option FrameRef} {env : Env} :
    Chain σ w Γ current env → Standpoint σ w Γ none current env
  | pending {x : String} {names : List String} {outer : Context} {f : FrameRef} {rest : Env} :
    f < σ.next → σ.count f = names.length → (w f).length = names.length + 1 →
    Chain σ w outer (σ.parent? f) rest →
    Standpoint σ w ((x :: names) :: outer) (some x) (some f) (bindings (w f) (x :: names) ++ rest)

/-- **A standpoint stays** while other frames are made. -/
theorem Standpoint.mono (g : Grows none σ w σ' w') {Γ : Context} {hidden : Option String}
    {current : Option FrameRef} {env : Env} (h : Standpoint σ w Γ hidden current env) :
    Standpoint σ' w' Γ hidden current env := by
  cases h with
  | settled chain => exact .settled (chain.mono g)
  | pending hf hcount hcells hrest =>
    rename_i f _
    rw [← g.cells_eq f hf nofun] at hcells ⊢
    refine .pending (Nat.lt_of_lt_of_le hf g.next_le) ?_ hcells ?_
    · rw [g.count_eq f hf nofun, hcount]
    · rw [g.parent f hf]
      exact hrest.mono g

/-- **What a name leads to**: nowhere on either side, or to a slot of a frame and
to the cell that stands for it. The slot has a value unless it is that of the
variable whose initializer is being evaluated, which always leads somewhere. -/
inductive Found (σ : Store Value) (w : Placement) (name : String) (hidden : Option String)
    (current : Option FrameRef) : Option Address → Option CellRef → Prop where
  | nowhere : hidden ≠ some name → Found σ w name hidden current none none
  | slot {a : Address} {g : FrameRef} {cell : CellRef} :
    current.bind (σ.ancestor? · a.distance) = some g → (w g)[a.slot]? = some cell →
    (a.slot < σ.count g ↔ hidden ≠ some name) →
    Found σ w name hidden current (some a) (some cell)

/-- **Along a chain a name is found on both sides or on neither**, by recursion on the
scopes. -/
theorem Chain.find (name : String) :
    ∀ {Γ : Context} {current : Option FrameRef} {env : Env}, Chain σ w Γ current env →
      Found σ w name none current (Γ.locate name) (env.lookup name)
  | [], _, _, ⟨_, henv⟩ => by
    subst henv
    exact .nowhere nofun
  | names :: outer, _, _, ⟨f, rest, hcur, hf, hcount, hcells, henv, hrest⟩ => by
    subst hcur henv
    rw [lookup_bindings, Context.locate]
    cases hslot : Context.slot? name names with
    | some slot =>
      have hlt := Context.slot?_lt hslot
      refine .slot (g := f) rfl ?_ (iff_of_true (Nat.lt_of_lt_of_le hlt hcount) nofun)
      rw [List.getElem?_eq_getElem (Nat.lt_of_lt_of_le hlt hcells)]
      rfl
    | none =>
      -- one frame further out, and the address counts that frame
      have outside := hrest.find name
      show Found σ w name none (some f) ((Context.locate name outer).map Address.outward)
        (rest.lookup name)
      generalize Context.locate name outer = address?, rest.lookup name = cell? at outside ⊢
      cases outside with
      | nowhere => exact .nowhere nofun
      | slot hg hcell hlt =>
        refine .slot ?_ hcell hlt
        rw [Option.bind_some, Address.outward, Store.ancestor?]
        cases hp : σ.parent? f with
        | none =>
          rw [hp] at hg
          cases hg
        | some p =>
          rw [hp] at hg
          exact hg

/-- **The address of a name leads to the slot that stands for its first
cell.** -/
theorem Standpoint.find {Γ : Context} {hidden : Option String} {current : Option FrameRef}
    {env : Env} (h : Standpoint σ w Γ hidden current env) (name : String) :
    Found σ w name hidden current (Γ.locate name) (env.lookup name) := by
  cases h with
  | settled chain => exact chain.find name
  | pending hf hcount hcells hrest =>
    rename_i x names outer f rest
    have hcell : (w f)[names.length]? = some ((w f)[names.length]?.getD 0) := by
      rw [List.getElem?_eq_getElem (hcells ▸ Nat.lt_succ_self _)]
      rfl
    by_cases hx : x = name
    · -- the variable itself: its cell is there, and its slot comes next
      subst hx
      rw [bindings, List.cons_append, List.lookup_cons, beq_self_eq_true, Context.locate,
        Context.slot?, if_pos (beq_self_eq_true x)]
      refine .slot (g := f) rfl hcell (iff_of_false ?_ fun hne => hne rfl)
      exact hcount ▸ Nat.lt_irrefl _
    · -- any other name: as if the variable were not declared yet
      have below : Chain σ w (names :: outer) (some f) (bindings (w f) names ++ rest) :=
        ⟨f, rest, rfl, hf, Nat.le_of_eq hcount.symm, hcells ▸ Nat.le_succ _, rfl, hrest⟩
      have found := below.find name
      have visible : some x ≠ some name := fun heq => hx (Option.some.inj heq)
      rw [bindings, List.cons_append, List.lookup_cons, beq_false_of_ne (Ne.symm hx)]
      show Found σ w name (some x) (some f) (Context.locate name ((x :: names) :: outer)) _
      rw [Context.locate, Context.slot?, if_neg (by simpa using hx), ← Context.locate]
      generalize Context.locate name (names :: outer) = address?,
        (bindings (w f) names ++ rest).lookup name = cell? at found ⊢
      cases found with
      | nowhere => exact .nowhere visible
      | slot hg hcell' hlt => exact .slot hg hcell' (hlt.trans (iff_of_true nofun visible))

/-! ## The scope of the statement that runs -/

/-- **The scope in which a statement is executed**: the global one, or a frame
that holds what was declared before the statement and nothing else. -/
inductive Running (σ : Store Value) (w : Placement) :
    Context → Option FrameRef → Option Env → Prop where
  | atTop : Running σ w [] none none
  | inFrame {names : List String} {outer : Context} {f : FrameRef} {rest : Env} :
    f < σ.next → σ.count f = names.length → (w f).length = names.length →
    Chain σ w outer (σ.parent? f) rest →
    Running σ w (names :: outer) (some f) (some (bindings (w f) names ++ rest))

namespace Running

variable {Γ : Context} {current : Option FrameRef} {scope : Option Env}

theorem chain (h : Running σ w Γ current scope) : Chain σ w Γ current (scope.getD []) := by
  cases h with
  | atTop => exact ⟨rfl, rfl⟩
  | inFrame hf hcount hcells hrest =>
    exact ⟨_, _, rfl, hf, Nat.le_of_eq hcount.symm, Nat.le_of_eq hcells.symm, rfl, hrest⟩

/-- Between statements no name is hidden. -/
theorem standpoint (h : Running σ w Γ current scope) :
    Standpoint σ w Γ none current (scope.getD []) :=
  .settled h.chain

/-- Evaluating an expression leaves the scope of its statement as it is. -/
theorem mono (h : Running σ w Γ current scope) (g : Grows none σ w σ' w') :
    Running σ' w' Γ current scope := by
  cases h with
  | atTop => exact .atTop
  | inFrame hf hcount hcells hrest =>
    rename_i f _
    rw [← g.cells_eq f hf nofun] at hcells ⊢
    refine .inFrame (Nat.lt_of_lt_of_le hf g.next_le) ?_ hcells ?_
    · rw [g.count_eq f hf nofun, hcount]
    · rw [g.parent f hf]
      exact hrest.mono g

end Running

end Growth

end Kix
