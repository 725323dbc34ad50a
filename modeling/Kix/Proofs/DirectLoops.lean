import Kix.Proofs.ProgramRuns
import Kix.Proofs.Visits

/-!
# Loops over their clauses

A `for` loop is read as a block with a `while` loop in it, whose body is another block, of the
body of the `for` loop and its increment. This module gives the loop a meaning of its own,
`ForLoop.run`, which knows of no blocks: a scope is opened for the loop, the initializer is
executed in it once, and then the condition, the body and the increment take turns in that scope.
Variables are looked up by name there, as in `Kix.Proofs.Lexical`.

That executing the block does the same is `ForLoop.follows`. The block that stands around body and
increment brings a frame of its own in every round, so the frames of the machine and the
environment of the direct loop are related as everywhere, by a chain of frames that spells the
environment out; the frame of the round spells out nothing.

## Different numbers of steps

The block is nested more deeply than the loop, and uses up its steps faster. So the two are not
compared for one number of steps. One of them is taken as the **leader**: unless its steps do not
suffice, the other one, which has steps enough, ends alike (`Follows`). With the frames as the
leader this says that whatever executing the block does, the direct loop does too, and with the
names as the leader the converse.
-/

namespace Kix

open Lexical (Env)

/-! ## The direct loop -/

/-- **A `for` loop.** Condition and increment may be absent, and the body is no declaration. -/
structure ForLoop where
  initializer : Stmt
  condition : Option Expr
  increment : Option Expr
  body : Stmt
  undeclared : body.declared? = none

namespace ForLoop

variable (loop : ForLoop)

/-- What the condition is read as. -/
def conditionExpr : Expr := loop.condition.getD (.literal (.bool true))

/-- What the increment is read as. -/
def incrementExpr : Expr := loop.increment.getD .absent

/-- The block that is executed in each round. -/
def iteration : Stmt := .block [loop.body, .expression loop.incrementExpr]

/-- The statement that the loop is read as. -/
def statement : Stmt :=
  .forLoop loop.initializer loop.conditionExpr loop.incrementExpr loop.body

/-- Whether there is another round. An absent condition is true. -/
def test (steps : Nat) (env : Env) : Lexical.Eval Bool :=
  match loop.condition with
  | some condition => do
    let a ← Lexical.evaluate steps env condition
    pure a.face.isTruthy
  | none => pure true

/-- Evaluating the increment, if there is one. -/
def advance (steps : Nat) (env : Env) : Lexical.Eval Unit :=
  match loop.increment with
  | some increment => do
    let _ ← Lexical.evaluate steps env increment
    pure ()
  | none => pure ()

/-- **One round**: the body, and then the increment, unless the body has returned. What the body
declares is out of scope by then. -/
def turn (steps : Nat) (env : Env) : Lexical.Eval Lexical.Flow := do
  let flow ← Lexical.execute steps (some env) loop.body
  match flow with
  | .normal _ => do
    loop.advance steps env
    pure (.normal (some env))
  | .returned value => pure (.returned value)

/-- **Rounds**, all in one environment, for as long as the condition holds. -/
def rounds (env : Env) : Nat → Lexical.Eval Lexical.Flow
  | 0 => throw .exhausted
  | steps + 1 => do
    let goesOn ← loop.test steps env
    if goesOn then do
      let flow ← loop.turn steps env
      match flow with
      | .normal _ => rounds env steps
      | .returned value => pure (.returned value)
    else pure (.normal (some env))

/-- The initializer, once, and then the rounds in the environment that it leaves. -/
def runInside (steps : Nat) (env : Env) : Lexical.Eval Lexical.Flow := do
  let flow ← Lexical.execute steps (some env) loop.initializer
  match flow with
  | .normal inner => loop.rounds (inner.getD []) steps
  | .returned value => pure (.returned value)

/-- **Running the loop** in a scope of its own, which is left behind when the loop ends. -/
def run (steps : Nat) (scope : Option Env) : Lexical.Eval Lexical.Flow := do
  let flow ← loop.runInside steps (scope.getD [])
  match flow with
  | .normal _ => pure (.normal scope)
  | .returned value => pure (.returned value)

end ForLoop

/-! ## Leaders -/

/-- Which of two evaluations is the one whose end is followed: the one with frames and addresses
or the one by name. -/
inductive Leader where
  | frames
  | names

namespace Leader

variable {α β : Type}

/-- The steps of the leader did not suffice. -/
def Starved (leader : Leader) (r : EStateM.Result Halt Machine α)
    (r' : EStateM.Result Halt Lexical.Machine β) : Prop :=
  match leader with
  | frames => ∃ m, r = .error .exhausted m
  | names => ∃ n, r' = .error .exhausted n

/-- The evaluation that follows has steps enough. With frames it needs some more. -/
def Allows (leader : Leader) (more steps steps' : Nat) : Prop :=
  match leader with
  | frames => steps ≤ steps'
  | names => steps' + more ≤ steps

theorem Allows.inner {leader : Leader} {more steps steps' : Nat}
    (h : leader.Allows (more + 1) (steps + 1) steps') : leader.Allows more steps steps' := by
  cases leader with
  | frames => exact Nat.le_of_succ_le h
  | names => exact Nat.le_of_succ_le_succ h

theorem Allows.next {leader : Leader} {more steps steps' : Nat}
    (h : leader.Allows more (steps + 1) (steps' + 1)) : leader.Allows more steps steps' := by
  cases leader with
  | frames => exact Nat.le_of_succ_le_succ h
  | names =>
    have le : steps' + 1 + more ≤ steps + 1 := h
    show steps' + more ≤ steps
    omega

theorem Allows.fewer {leader : Leader} {more fewer steps steps' : Nat}
    (h : leader.Allows more steps steps') (le : fewer ≤ more) :
    leader.Allows fewer steps steps' := by
  cases leader with
  | frames => exact h
  | names => exact Nat.le_trans (Nat.add_le_add_left le _) h

end Leader

/-- **One evaluation follows the other**: unless the steps of the leader do not suffice, both end
alike. -/
def Follows (leader : Leader) (L : Legend) (own : Option FrameRef) (m : Machine) (w : Placement)
    {α β : Type} (post : Store Value → Placement → α → β → Prop)
    (r : EStateM.Result Halt Machine α) (r' : EStateM.Result Halt Lexical.Machine β) : Prop :=
  leader.Starved r r' ∨ Ends L own m w post r r'

namespace Follows

variable {leader : Leader} {L : Legend} {own : Option FrameRef} {m : Machine} {w : Placement}
  {n : Lexical.Machine} {α β γ δ : Type} {post : Store Value → Placement → α → β → Prop}
  {post' : Store Value → Placement → γ → δ → Prop} {steps steps' more : Nat}

/-- **One evaluation after another.** The first one may change fewer frames. -/
theorem bind {own' : Option FrameRef} {x : Eval α} {y : Lexical.Eval β} {k : α → Eval γ}
    {k' : β → Lexical.Eval δ}
    (weaken : ∀ {σ : Store Value} {w' : Placement}, Grows own' m.store w σ w' →
      Grows own m.store w σ w')
    (first : Follows leader L own' m w post (x m) (y n))
    (next : ∀ {a : α} {b : β} {m' : Machine} {n' : Lexical.Machine} {w' : Placement},
      Alike L w' m' n' → Grows own' m.store w m'.store w' → m'.current = m.current →
      post m'.store w' a b → Follows leader L own m' w' post' (k a m') (k' b n')) :
    Follows leader L own m w post' ((x >>= k) m) ((y >>= k') n) := by
  rcases first with starved | ends
  · refine .inl ?_
    cases leader with
    | frames =>
      obtain ⟨m', h⟩ := starved
      exact ⟨m', bind_of_error h k⟩
    | names =>
      obtain ⟨n', h⟩ := starved
      exact ⟨n', bind_of_error h k'⟩
  · generalize hx : x m = r, hy : y n = r' at ends
    cases ends with
    | ok alike grows current related =>
      rw [bind_of_ok hx, bind_of_ok hy]
      exact (next alike grows current related).imp_right fun ends =>
        ends.since (weaken grows) current
    | halted alike =>
      rw [bind_of_error hx, bind_of_error hy]
      exact .inr (.halted alike)

/-- Running in a new frame. -/
theorem within {frame : Frame Value} {x : Eval α} {w' : Placement}
    {r' : EStateM.Result Halt Lexical.Machine β}
    (grows : Grows none m.store w (m.enter frame).store w')
    (inside : Follows leader L (m.enter frame).current (m.enter frame) w' post
      (x (m.enter frame)) r') :
    Follows leader L none m w post (Eval.within frame x m) r' := by
  rcases inside with starved | ends
  · refine .inl ?_
    cases leader with
    | frames =>
      obtain ⟨m', h⟩ := starved
      exact ⟨_, Eval.within_of_error h⟩
    | names => exact starved
  · exact .inr (ends.within grows)

/-- An evaluation with frames that has no steps has nothing to follow, and does not lead. -/
theorem zero (allows : leader.Allows (more + 1) 0 steps') {m₁ : Machine}
    {r' : EStateM.Result Halt Lexical.Machine β} :
    Follows leader L own m w post (.error .exhausted m₁) r' := by
  cases leader with
  | frames => exact .inl ⟨m₁, rfl⟩
  | names => exact absurd allows (Nat.not_succ_le_zero _)

/-- **Evaluations that simulate each other with equal numbers of steps follow each other** with
different ones, because more steps make no difference to the one with frames. -/
theorem of_ends {x : Nat → Eval α} {y : Nat → Lexical.Eval β}
    (allows : leader.Allows more steps steps')
    (simulates : ∀ j, Ends L own m w post (x j m) (y j n))
    (lasts : ∀ {j j'}, j ≤ j' → Eval.Lasts (x j) (x j')) :
    Follows leader L own m w post (x steps m) (y steps' n) := by
  cases leader with
  | frames =>
    have longer := lasts allows
    have ends := simulates steps'
    cases first : x steps m with
    | ok a m' =>
      rw [longer.of_ok first] at ends
      exact .inr ends
    | error halt m' =>
      cases halt with
      | fault report =>
        rw [longer.of_fault first] at ends
        exact .inr ends
      | exhausted => exact .inl ⟨m', rfl⟩
  | names =>
    have longer := lasts (Nat.le_trans (Nat.le_add_right steps' more) allows)
    have ends := simulates steps'
    generalize first : x steps' m = r at ends
    cases second : y steps' n with
    | ok b n' =>
      rw [second] at ends
      cases ends with
      | ok alike grows current related =>
        rw [longer.of_ok first]
        exact .inr (.ok alike grows current related)
    | error halt n' =>
      rw [second] at ends
      cases halt with
      | fault report =>
        cases ends with
        | halted alike =>
          rw [longer.of_fault first]
          exact .inr (.halted alike)
      | exhausted => exact .inl ⟨n', rfl⟩

theorem evaluate {e : Expr} {Γ : Context} {hidden : Option String} {env : Env}
    (allows : leader.Allows more steps steps') (alike : Alike L w m n)
    (stands : Standpoint m.store w Γ hidden m.current env)
    (covered : L.Covers (e.sites Γ hidden)) :
    Follows leader L none m w (Like L) (Kix.evaluate steps e m)
      (Lexical.evaluate steps' env e n) :=
  of_ends (x := fun j => Kix.evaluate j e) (y := fun j => Lexical.evaluate j env e) allows
    (fun j => (simulates L j).evaluate alike stands covered) fun le => (lasting le).evaluate e

theorem execute {s : Stmt} {Γ : Context} {scope : Option Env}
    (allows : leader.Allows more steps steps') (alike : Alike L w m n)
    (running : Running m.store w Γ m.current scope) (known : s.Known L Γ) :
    Follows leader L m.current m w (Flows L (s.extend Γ) m.current) (Kix.execute steps s m)
      (Lexical.execute steps' scope s n) :=
  of_ends (x := fun j => Kix.execute j s) (y := fun j => Lexical.execute j scope s) allows
    (fun j => (simulates L j).execute alike running known) fun le => (lasting le).execute s

end Follows

/-! ## Clauses in their place -/

namespace ForLoop

variable (loop : ForLoop)

/-- The context of the clauses behind the initializer. -/
def context (Γ : Context) : Context := loop.initializer.extend ([] :: Γ)

/-- **The clauses of a loop, each in its place.** Body and increment stand inside the block of a
round, which declares nothing. -/
structure Clauses (L : Legend) (Γ : Context) : Prop where
  initializer : loop.initializer.Known L ([] :: Γ)
  condition : L.Covers (loop.conditionExpr.sites (loop.context Γ) none)
  body : loop.body.Known L ([] :: loop.context Γ)
  increment : L.Covers (loop.incrementExpr.sites ([] :: loop.context Γ) none)

variable {loop} {L : Legend} {Γ : Context}

/-- The body declares nothing in the block of its round. -/
theorem extend_body (placed : loop.body.Placed) (Γ : Context) : loop.body.extend Γ = Γ :=
  Stmt.extend_of_placed placed Γ loop.undeclared

theorem clauses_of_known (known : loop.statement.Known L Γ) : loop.Clauses L Γ := by
  have inside : BodyKnown L ([] :: Γ)
      [loop.initializer, .loop loop.conditionExpr loop.iteration] := ⟨known.placed, known.covered⟩
  have rounds := inside.tail.head
  obtain ⟨condition, covered⟩ := Legend.covers_append.1 rounds.covered
  have round : BodyKnown L ([] :: loop.context Γ) [loop.body, .expression loop.incrementExpr] :=
    ⟨rounds.placed.2, covered⟩
  have increment := round.tail.head.covered
  rw [extend_body round.head.placed] at increment
  exact ⟨inside.head, condition, round.head, increment⟩

end ForLoop

/-- Behind a statement in a frame the scope is that of the frame still. -/
theorem Running.inner {σ : Store Value} {w : Placement} {s : Stmt} {names : List String}
    {outer : Context} {current : Option FrameRef} {scope : Option Env}
    (h : Running σ w (s.extend (names :: outer)) current scope) :
    Running σ w (s.extend (names :: outer)) current (some (scope.getD [])) := by
  obtain ⟨names', extended⟩ := s.exists_extend_cons names outer
  rw [extended] at h ⊢
  cases h with
  | inFrame hf hcount hcells hrest => exact .inFrame hf hcount hcells hrest

/-! ## The block does what the loop does -/

namespace ForLoop

variable {loop : ForLoop} {leader : Leader} {L : Legend} {m : Machine} {w : Placement}
  {n : Lexical.Machine} {Γ : Context} {env : Env} {steps steps' : Nat}

theorem test_follows (allows : leader.Allows 1 steps steps') (alike : Alike L w m n)
    (stands : Standpoint m.store w Γ none m.current env)
    (covered : L.Covers (loop.conditionExpr.sites Γ none)) :
    Follows leader L none m w (fun _ _ a goesOn => goesOn = a.isTruthy)
      (evaluate steps loop.conditionExpr m) (loop.test steps' env n) := by
  unfold conditionExpr at covered ⊢
  unfold test
  generalize loop.condition = condition? at covered ⊢
  cases condition? with
  | some condition =>
    rw [← bind_pure (evaluate steps _)]
    refine (Follows.evaluate allows alike stands covered).bind id fun alike _ _ like => ?_
    exact .inr (.pure alike like.isTruthy)
  | none =>
    cases steps with
    | zero => exact .zero allows
    | succ steps => exact .inr (.pure alike rfl)

theorem advance_follows (allows : leader.Allows 1 steps steps') (alike : Alike L w m n)
    (stands : Standpoint m.store w Γ none m.current env)
    (covered : L.Covers (loop.incrementExpr.sites Γ none)) :
    Follows leader L none m w (fun _ _ _ _ => True) (evaluate steps loop.incrementExpr m)
      (loop.advance steps' env n) := by
  unfold incrementExpr at covered ⊢
  unfold advance
  generalize loop.increment = increment? at covered ⊢
  cases increment? with
  | some increment =>
    rw [← bind_pure (evaluate steps _)]
    refine (Follows.evaluate allows alike stands covered).bind id fun alike _ _ _ => ?_
    exact .inr (.pure alike trivial)
  | none =>
    cases steps with
    | zero => exact .zero allows
    | succ steps => exact .inr (.pure alike trivial)

/-- The end of a round: the increment is evaluated in the frame of the round, in the environment
of the loop. -/
theorem increment_follows {own : Option FrameRef} (allows : leader.Allows 3 steps steps')
    (alike : Alike L w m n) (stands : Standpoint m.store w Γ none m.current env)
    (covered : L.Covers (loop.incrementExpr.sites Γ none)) :
    Follows leader L own m w (Stops L) (executeAll steps [.expression loop.incrementExpr] m)
      ((do
        loop.advance steps' env
        pure (.normal (some env)) : Lexical.Eval Lexical.Flow) n) := by
  cases steps with
  | zero => exact .zero allows
  | succ steps =>
    have allows := allows.inner
    cases steps with
    | zero => exact .zero allows
    | succ steps =>
      rw [executeAll, execute, bind_assoc]
      refine (advance_follows allows.inner alike stands covered).bind (fun grows => grows.weaken _)
        fun alike _ _ _ => ?_
      exact .inr (.pure alike (.normal _))

/-- **One round.** -/
theorem turn_follows (allows : leader.Allows 5 steps steps') (clauses : loop.Clauses L Γ)
    (alike : Alike L w m n)
    (running : Running m.store w (loop.context Γ) m.current (some env)) :
    Follows leader L none m w (Stops L) (execute steps loop.iteration m)
      (loop.turn steps' env n) := by
  cases steps with
  | zero => exact .zero allows
  | succ steps =>
    have allows := allows.inner
    obtain ⟨w', grows', alike', running'⟩ := alike.enterBlock running.chain
    show Follows leader L none m w _ (Eval.within { parent := m.current } (executeAll steps _) m) _
    refine Follows.within grows' ?_
    cases steps with
    | zero => exact .zero allows
    | succ steps =>
      rw [executeAll]
      refine (Follows.execute allows.inner alike' running' clauses.body).bind id
        fun alike grows current flows => ?_
      cases flows with
      | normal =>
        -- the body has changed the frame of the round at most, which the chain does not mind
        have stands := Standpoint.settled (running'.chain.mono grows)
        rw [← current] at stands
        exact increment_follows allows.inner alike stands clauses.increment
      | returned like => exact .inr (.pure alike (.returned like))

/-- **All rounds**, by induction on the steps of the evaluation with frames: each round leaves the
frame of the loop as it is, so that the next one begins in the same scope. -/
theorem rounds_follow (allows : leader.Allows 5 steps steps') (clauses : loop.Clauses L Γ)
    (alike : Alike L w m n)
    (running : Running m.store w (loop.context Γ) m.current (some env)) :
    Follows leader L none m w (Stops L)
      (execute steps (.loop loop.conditionExpr loop.iteration) m) (loop.rounds env steps' n) := by
  induction steps generalizing steps' m n w with
  | zero => exact .zero allows
  | succ steps ih =>
    cases steps' with
    | zero =>
      cases leader with
      | frames => exact absurd allows (Nat.not_succ_le_zero _)
      | names => exact .inl ⟨n, rfl⟩
    | succ steps' =>
      have allows := allows.next
      rw [execute, rounds]
      refine (test_follows (allows.fewer (by decide)) alike running.standpoint
        clauses.condition).bind id fun {a _ _ _ _} alike grows current goesOn => ?_
      subst goesOn
      have running := current ▸ running.mono grows
      by_cases truthy : a.isTruthy = true
      · rw [if_pos truthy, if_pos truthy]
        refine (turn_follows allows clauses alike running).bind id
          fun alike grows current stops => ?_
        cases stops with
        | normal => exact ih allows alike (current ▸ running.mono grows)
        | returned like => exact .inr (.pure alike (.returned like))
      · rw [if_neg truthy, if_neg truthy]
        exact .inr (.pure alike (.normal _))

/-- The rounds as the last statement of the block. -/
theorem lastRounds_follow {own : Option FrameRef} (allows : leader.Allows 6 steps steps')
    (clauses : loop.Clauses L Γ) (alike : Alike L w m n)
    (running : Running m.store w (loop.context Γ) m.current (some env)) :
    Follows leader L own m w (Stops L)
      (executeAll steps [.loop loop.conditionExpr loop.iteration] m)
      (loop.rounds env steps' n) := by
  match steps, allows with
  | 0, allows => exact .zero allows
  | 1, allows => exact .zero allows.inner
  | steps + 2, allows =>
    rw [executeAll, ← bind_pure (loop.rounds env steps')]
    refine (rounds_follow allows.inner clauses alike running).bind (fun grows => grows.weaken _)
      fun alike _ _ stops => ?_
    cases stops with
    | normal => exact .inr (.pure alike (.normal _))
    | returned like => exact .inr (.pure alike (.returned like))

/-- Initializer and rounds, in the frame of the loop. -/
theorem runInside_follows (allows : leader.Allows 7 steps steps') (clauses : loop.Clauses L Γ)
    (alike : Alike L w m n) (running : Running m.store w ([] :: Γ) m.current (some env)) :
    Follows leader L m.current m w (Stops L)
      (executeAll steps [loop.initializer, .loop loop.conditionExpr loop.iteration] m)
      (loop.runInside steps' env n) := by
  cases steps with
  | zero => exact .zero allows
  | succ steps =>
    have allows := allows.inner
    rw [executeAll]
    refine (Follows.execute allows alike running clauses.initializer).bind id
      fun alike _ current flows => ?_
    cases flows with
    | @normal scope running =>
      have running : Running _ _ (loop.context Γ) _ (some (scope.getD [])) := running.inner
      rw [← current] at running
      exact lastRounds_follow allows clauses alike running
    | returned like => exact .inr (.pure alike (.returned like))

/-- **The block does what the loop does**, and the other way round. -/
theorem follows {scope : Option Env} (allows : leader.Allows 8 steps steps')
    (clauses : loop.Clauses L Γ) (alike : Alike L w m n)
    (running : Running m.store w Γ m.current scope) :
    Follows leader L m.current m w (Flows L Γ m.current) (execute steps loop.statement m)
      (loop.run steps' scope n) := by
  cases steps with
  | zero => exact .zero allows
  | succ steps =>
    obtain ⟨w', grows', alike', running'⟩ := alike.enterBlock running.chain
    have inside := runInside_follows allows.inner clauses alike' running'
    show Follows leader L m.current m w _
      (Eval.within { parent := m.current } (executeAll steps _) m) _
    rw [← bind_pure (Eval.within { parent := m.current } (executeAll steps _))]
    refine (inside.within grows').bind (fun grows => grows.weaken _) fun alike grows _ stops => ?_
    cases stops with
    | normal => exact .inr (.pure alike (.normal (running.mono grows)))
    | returned like => exact .inr (.pure alike (.returned like))

end ForLoop

end Kix
