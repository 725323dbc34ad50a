import Kix.Proofs.RelabeledResolution
import Kix.Proofs.Simulation

/-!
# Programs one after the other

What a run does not depend on, and what it leaves as it was. An evaluation that ends
within some number of steps ends in the same way when it is given more of them, back in
the frame where it began, with the table of addresses that it found and, if at all, with a
report that ends a run (`lasting`). A
program in which resolving blames no `return` does not return: a `return` outside all
functions is reported (`bodyReturns_eq_false_of_silent`), and nothing else ends a body early
(`settling`).

So running two programs written as one is running one after the other
(`Machine.run?_append`).
-/

namespace Kix

/-! ## More steps -/

/-- **Where a machine is left**: in the frame where it was, with the table it had. -/
structure Machine.Stays (m m' : Machine) : Prop where
  current : m'.current = m.current
  addresses : m'.addresses = m.addresses

theorem Machine.Stays.refl (m : Machine) : m.Stays m := ⟨rfl, rfl⟩

/-- Staying twice is staying. -/
theorem Machine.Stays.trans {m m' m'' : Machine} (h : m.Stays m') (h' : m'.Stays m'') :
    m.Stays m'' :=
  ⟨h'.current.trans h.current, h'.addresses.trans h.addresses⟩

namespace Eval

variable {α β : Type}

/-- **The second evaluation ended as the first one did**, unless the first had too few
steps. -/
inductive Lasted (m : Machine) :
    EStateM.Result Halt Machine α → EStateM.Result Halt Machine α → Prop where
  | ok {a : α} {m' : Machine} (stays : m.Stays m') : Lasted m (.ok a m') (.ok a m')
  | fault {report : Report} {m' : Machine} (stays : m.Stays m')
      (endsRun : report.isRuntime = true) :
    Lasted m (.error (.fault report) m') (.error (.fault report) m')
  | exhausted {m' : Machine} {r : EStateM.Result Halt Machine α} :
    Lasted m (.error .exhausted m') r

/-- **The second evaluation has more steps**, so that it ends as the first one does. -/
def Lasts (x y : Eval α) : Prop := ∀ m : Machine, Lasted m (x m) (y m)

namespace Lasts

theorem pure (a : α) : Lasts (Pure.pure a) (Pure.pure a) := fun m => .ok (.refl m)

/-- A fault is a runtime report, however many steps there are. -/
theorem faultAt (t : Token) (problem : Problem) :
    Lasts (α := α) (Eval.faultAt t problem) (Eval.faultAt t problem) :=
  fun m => .fault (.refl m) rfl

/-- A run that had too few steps says nothing about the other one. -/
theorem exhausted (y : Eval α) : Lasts (throw .exhausted) y := fun _ => .exhausted

/-- What yields a result within fewer steps yields it within more. -/
theorem of_ok {x y : Eval α} (h : Lasts x y) {m m' : Machine} {a : α} (ok : x m = .ok a m') :
    y m = .ok a m' := by
  have ended := h m
  rw [ok] at ended
  generalize y m = r at ended
  cases ended with
  | ok => rfl

/-- What faults within fewer steps faults within more. -/
theorem of_fault {x y : Eval α} (h : Lasts x y) {m m' : Machine} {report : Report}
    (fault : x m = .error (.fault report) m') : y m = .error (.fault report) m' := by
  have ended := h m
  rw [fault] at ended
  generalize y m = r at ended
  cases ended with
  | fault => rfl

/-- **One evaluation after another.** -/
theorem bind {x y : Eval α} {k k' : α → Eval β} (first : Lasts x y)
    (next : ∀ a, Lasts (k a) (k' a)) : Lasts (x >>= k) (y >>= k') := by
  intro m
  have ended := first m
  generalize hx : x m = r, hy : y m = r' at ended
  cases ended with
  | @ok a m' stays =>
    rw [bind_of_ok hx, bind_of_ok hy]
    have later := next a m'
    generalize k a m' = r, k' a m' = r' at later
    cases later with
    | ok stays' => exact .ok (stays.trans stays')
    | fault stays' endsRun => exact .fault (stays.trans stays') endsRun
    | exhausted => exact .exhausted
  | fault stays endsRun =>
    rw [bind_of_error hx, bind_of_error hy]
    exact .fault stays endsRun
  | exhausted =>
    rw [bind_of_error hx]
    exact .exhausted

/-- Both take the same branch. -/
theorem ite {x x' y y' : Eval α} {p : Prop} [Decidable p] (h : Lasts x y) (h' : Lasts x' y') :
    Lasts (if p then x else x') (if p then y else y') := by
  by_cases hp : p
  · rw [if_pos hp, if_pos hp]
    exact h
  · rw [if_neg hp, if_neg hp]
    exact h'

/-- Running in a new frame. -/
theorem within {x y : Eval α} (inside : Lasts x y) (frame : Frame Value) :
    Lasts (Eval.within frame x) (Eval.within frame y) := by
  intro m
  have ended := inside
    { m with store := m.store.allocate frame, current := some m.store.next }
  unfold Eval.within
  dsimp only
  generalize x _ = r, y _ = r' at ended ⊢
  cases ended with
  | ok stays => exact .ok ⟨rfl, stays.addresses⟩
  | fault stays endsRun => exact .fault ⟨rfl, stays.addresses⟩ endsRun
  | exhausted => exact .exhausted

end Lasts

/-! ## Single operations -/

theorem currentFrame_lasts : Lasts currentFrame currentFrame := fun _ => .ok ⟨rfl, rfl⟩

theorem readClock_lasts : Lasts readClock readClock := fun _ => .ok ⟨rfl, rfl⟩

/-- Making a function takes no steps. -/
theorem close_lasts (name : Token) (params : List Token) (body : List Stmt) :
    Lasts (close name params body) (close name params body) := fun _ => .ok ⟨rfl, rfl⟩

/-- A write that fails ends the run, by the report that it is given. -/
theorem write_lasts (text : String) {report : String → Report}
    (endsRun : ∀ reason, (report reason).isRuntime = true) :
    Lasts (write text report) (write text report) := by
  intro m
  unfold write
  by_cases fits : m.out.fits text = true
  · rw [if_pos fits]
    exact .ok ⟨rfl, rfl⟩
  · rw [if_neg fits]
    exact .fault ⟨rfl, rfl⟩ (endsRun _)

/-- Defining a variable needs no step, and leaves the frame that is current. -/
theorem define_lasts (name : Token) (value : Value) :
    Lasts (define name value) (define name value) := by
  intro m
  unfold define
  cases current : m.current with
  | some frame => exact .ok ⟨current.symm, rfl⟩
  | none => exact .ok ⟨current.symm, rfl⟩

/-- Looking a variable up needs no step. -/
theorem lookup_lasts (id : OccurrenceId) (name : Token) :
    Lasts (lookup id name) (lookup id name) := by
  intro m
  unfold lookup
  cases m.addresses[id]? with
  | some a =>
    dsimp only
    cases m.current.bind (m.store.getAt? · a.distance a.slot) with
    | some value => exact .ok (.refl m)
    | none => exact .fault (.refl m) rfl
  | none =>
    dsimp only
    cases m.globals[name.lexeme]? with
    | some value => exact .ok (.refl m)
    | none => exact .fault (.refl m) rfl

/-- Assigning to a variable needs no step, and the table stays. -/
theorem assign_lasts (id : OccurrenceId) (name : Token) (value : Value) :
    Lasts (assign id name value) (assign id name value) := by
  intro m
  unfold assign
  cases m.addresses[id]? with
  | some a =>
    dsimp only
    cases m.current.bind (m.store.frameAt? · a.distance a.slot) with
    | some frame => exact .ok ⟨rfl, rfl⟩
    | none => exact .fault (.refl m) rfl
  | none =>
    dsimp only
    by_cases known : m.globals.contains name.lexeme = true
    · rw [if_pos known]
      exact .ok ⟨rfl, rfl⟩
    · rw [if_neg known]
      exact .fault (.refl m) rfl

/-- What an operator gives depends on its operands alone. -/
theorem ofOperator_lasts (operator : Token) (r : Except Problem Value) :
    Lasts (ofOperator operator r) (ofOperator operator r) := by
  cases r with
  | ok value => exact .pure value
  | error problem => exact .faultAt operator problem

theorem checkCall_lasts (callee : Value) (paren : Token) (given : Nat) :
    Lasts (checkCall callee paren given) (checkCall callee paren given) := by
  unfold checkCall
  cases callee.arity? with
  | none => exact .faultAt paren .notCallable
  | some arity => exact .ite (.pure ()) (.faultAt paren (.wrongArgumentCount arity given))

/-- Built-in functions call no other, so they need no step. -/
theorem callNative_lasts (native : Native) (paren : Token) (given : List Value) :
    Lasts (callNative native paren given) (callNative native paren given) := by
  match native, given with
  | .clock, _ => exact readClock_lasts.bind fun _ => .pure _
  | .print, [] | .println, [] => exact .pure Value.nil
  | .print, value :: _ | .println, value :: _ =>
    exact (write_lasts _ fun _ => rfl).bind fun _ => .pure Value.nil

end Eval

/-! ## Evaluation -/

open Eval

/-- **More steps make no difference** to evaluations that end. -/
structure Lasting (steps steps' : Nat) : Prop where
  evaluate : ∀ e : Expr, Lasts (evaluate steps e) (evaluate steps' e)
  evaluateAll : ∀ es : List Expr, Lasts (evaluateAll steps es) (evaluateAll steps' es)
  call : ∀ (callee : Value) (paren : Token) (given : List Value),
    Lasts (call steps callee paren given) (call steps' callee paren given)
  execute : ∀ s : Stmt, Lasts (execute steps s) (execute steps' s)
  executeAll : ∀ body : List Stmt, Lasts (executeAll steps body) (executeAll steps' body)

namespace Lasting

variable {steps steps' : Nat}

/-- **An expression with one step more on both sides.** -/
theorem evaluate_succ (h : Lasting steps steps') (e : Expr) :
    Lasts (Kix.evaluate (steps + 1) e) (Kix.evaluate (steps' + 1) e) := by
  cases e with
  | literal value => exact .pure (Value.ofLiteral value)
  | absent => exact .pure Value.nil
  | group inner => exact h.evaluate inner
  | unary operator operand =>
    exact (h.evaluate operand).bind fun _ => ofOperator_lasts operator _
  | binary left operator right =>
    exact (h.evaluate left).bind fun _ => (h.evaluate right).bind fun _ =>
      ofOperator_lasts operator _
  | logical left operator right =>
    exact (h.evaluate left).bind fun a => .ite (.pure a) (h.evaluate right)
  | conditional condition thenBranch elseBranch =>
    exact (h.evaluate condition).bind fun _ =>
      .ite (h.evaluate thenBranch) (h.evaluate elseBranch)
  | var id name => exact lookup_lasts id name
  | assign id name value =>
    exact (h.evaluate value).bind fun a => (assign_lasts id name a).bind fun _ => .pure a
  | call callee paren arguments =>
    exact (h.evaluate callee).bind fun f => (h.evaluateAll arguments).bind fun given =>
      h.call f paren given

theorem evaluateAll_succ (h : Lasting steps steps') (es : List Expr) :
    Lasts (Kix.evaluateAll (steps + 1) es) (Kix.evaluateAll (steps' + 1) es) := by
  cases es with
  | nil => exact .pure []
  | cons e rest =>
    exact (h.evaluate e).bind fun value => (h.evaluateAll rest).bind fun others =>
      .pure (value :: others)

/-- A call returns to the frame that it was made from. -/
theorem call_succ (h : Lasting steps steps') (callee : Value) (paren : Token)
    (given : List Value) :
    Lasts (Kix.call (steps + 1) callee paren given) (Kix.call (steps' + 1) callee paren given) := by
  refine (checkCall_lasts callee paren given.length).bind fun _ => ?_
  cases callee with
  | native native => exact callNative_lasts native paren given
  | closure f =>
    refine ((h.executeAll f.body).within ⟨given.toArray, f.scope⟩).bind fun flow => ?_
    cases flow with
    | returned value => exact .pure value
    | normal => exact .pure Value.nil
  | _ => exact .faultAt paren .notCallable

/-- **A statement with one step more on both sides.** -/
theorem execute_succ (h : Lasting steps steps') (s : Stmt) :
    Lasts (Kix.execute (steps + 1) s) (Kix.execute (steps' + 1) s) := by
  cases s with
  | expression value => exact (h.evaluate value).bind fun _ => .pure Flow.normal
  | print value =>
    exact (h.evaluate value).bind fun _ =>
      (write_lasts _ fun _ => rfl).bind fun _ => .pure Flow.normal
  | var name initializer =>
    exact (h.evaluate initializer).bind fun value => (define_lasts name value).bind fun _ =>
      .pure Flow.normal
  | block body =>
    exact currentFrame_lasts.bind fun parent => (h.executeAll body).within { parent }
  | branch condition thenBranch elseBranch =>
    exact (h.evaluate condition).bind fun _ => .ite (h.execute thenBranch) (h.execute elseBranch)
  | loop condition body =>
    refine (h.evaluate condition).bind fun _ => .ite ?_ (.pure Flow.normal)
    refine (h.execute body).bind fun flow => ?_
    cases flow with
    | normal => exact h.execute (.loop condition body)
    | returned value => exact .pure (Flow.returned value)
  | function name params body =>
    exact (close_lasts name params body).bind fun f => (define_lasts name f).bind fun _ =>
      .pure Flow.normal
  | ret keyword value => exact (h.evaluate value).bind fun a => .pure (Flow.returned a)
  | absent => exact .pure Flow.normal

/-- Statements up to the first that returns. -/
theorem executeAll_succ (h : Lasting steps steps') (body : List Stmt) :
    Lasts (Kix.executeAll (steps + 1) body) (Kix.executeAll (steps' + 1) body) := by
  cases body with
  | nil => exact .pure Flow.normal
  | cons s rest =>
    refine (h.execute s).bind fun flow => ?_
    cases flow with
    | normal => exact h.executeAll rest
    | returned value => exact .pure (Flow.returned value)

end Lasting

/-- **More steps make no difference.** -/
theorem lasting {steps steps' : Nat} (le : steps ≤ steps') : Lasting steps steps' := by
  induction steps generalizing steps' with
  | zero =>
    exact ⟨fun _ => .exhausted _, fun _ => .exhausted _, fun _ _ _ => .exhausted _,
      fun _ => .exhausted _, fun _ => .exhausted _⟩
  | succ steps ih =>
    obtain ⟨steps', rfl⟩ := Nat.exists_eq_add_of_lt (Nat.lt_of_succ_le le)
    have h := ih (Nat.le_add_right steps steps')
    exact ⟨h.evaluate_succ, h.evaluateAll_succ, h.call_succ, h.execute_succ, h.executeAll_succ⟩

section Runs

variable {m : Machine} {steps steps' : Nat} {program : Program}

/-- A run that ends, ends in the same way when it is given more steps. -/
theorem Machine.run?_of_le (le : steps ≤ steps') {r : Option Report × Machine}
    (ran : m.run? steps program = some r) : m.run? steps' program = some r := by
  have ended := (lasting le).executeAll program m
  unfold Machine.run? at ran ⊢
  generalize executeAll steps program m = r, executeAll steps' program m = r' at ended ran
  cases ended with
  | ok => exact ran
  | fault => exact ran
  | exhausted => exact nomatch ran

/-- A run leaves the table as it was, and what it reports ends it. -/
theorem Machine.of_run? {report : Option Report} {m' : Machine}
    (ran : m.run? steps program = some (report, m')) :
    m'.addresses = m.addresses ∧ ∀ r ∈ report, r.isRuntime = true := by
  have ended := (lasting (Nat.le_refl steps)).executeAll program m
  unfold Machine.run? at ran
  generalize executeAll steps program m = r at ended ran
  cases ended with
  | @ok _ m' stays =>
    cases ran
    refine ⟨stays.addresses, fun r hr => ?_⟩
    obtain ⟨reason, -, rfl⟩ := Option.map_eq_some_iff.1 hr
    rfl
  | fault stays endsRun =>
    cases ran
    refine ⟨stays.addresses, fun r hr => ?_⟩
    cases hr
    exact endsRun
  | exhausted => exact nomatch ran

end Runs

/-! ## Programs do not return -/

mutual

/-- Whether there is a `return` in a statement outside all functions. -/
def Stmt.returns : Stmt → Bool
  | .ret _ _ => true
  | .block body => bodyReturns body
  | .branch _ thenBranch elseBranch => thenBranch.returns || elseBranch.returns
  | .loop _ body => body.returns
  | .expression _ | .print _ | .var _ _ | .function _ _ _ | .absent => false

/-- The same for the statements of a body. -/
def bodyReturns : List Stmt → Bool
  | [] => false
  | s :: rest => s.returns || bodyReturns rest

end

section Reporting

variable (policy : Policy)

/-- The walk only adds reports. -/
theorem Stmt.reports_suffix (inFunction : Bool) (s : Stmt) (r : Resolution) :
    r.reports <:+ (s.resolve policy inFunction r).reports := by
  have whole : ({ scopes := r.scopes } : Resolution).onto {} r.entries r.reports = r := by
    have binding : Scope.relabel {} = id := funext List.map_id
    show Resolution.mk (r.scopes.map _) r.entries r.reports = r
    rw [binding, List.map_id]
  have walked := s.resolve_onto {} r.entries r.reports policy inFunction { scopes := r.scopes }
  rw [whole, s.relabel_nothing] at walked
  rw [walked]
  exact List.suffix_append _ _

/-- Resolving an expression only adds reports. -/
theorem Expr.reports_suffix (e : Expr) (r : Resolution) :
    r.reports <:+ (e.resolve r).reports := by
  have walked := (Stmt.expression e).reports_suffix {} false r
  rwa [Stmt.resolve] at walked

/-- Resolving a body only adds reports. -/
theorem reports_suffix_resolveBody (inFunction : Bool) (body : List Stmt) (r : Resolution) :
    r.reports <:+ (resolveBody policy inFunction body r).reports := by
  induction body generalizing r with
  | nil => exact List.suffix_refl _
  | cons s rest ih => exact (s.reports_suffix policy inFunction r).trans (ih _)

/-- Leaving a scope only adds reports. -/
theorem Resolution.reports_suffix_closeScope (r : Resolution) :
    r.reports <:+ (r.closeScope policy).reports := by
  unfold closeScope
  split
  · exact List.suffix_refl _
  · exact List.suffix_append _ _

/-- Whether the walk has blamed a `return` for standing outside all functions. -/
def Resolution.BlamesReturn (r : Resolution) : Prop :=
  ∃ keyword : Token, Report.scoping keyword.place .returnOutsideFunction ∈ r.reports

/-- What was blamed once stays blamed. -/
theorem Resolution.BlamesReturn.later {r r' : Resolution} (h : r.BlamesReturn)
    (grows : r.reports <:+ r'.reports) : r'.BlamesReturn := by
  obtain ⟨keyword, mem⟩ := h
  exact ⟨keyword, grows.subset mem⟩

mutual

/-- **A `return` outside all functions is blamed**, however deep in the statement it
stands. -/
theorem Stmt.blamesReturn_of_returns : ∀ (s : Stmt) (r : Resolution), s.returns = true →
    (s.resolve policy false r).BlamesReturn
  | .ret keyword e, r, _ => by
    rw [Stmt.resolve]
    have reported : (r.report (.scoping keyword.place .returnOutsideFunction)).BlamesReturn :=
      ⟨keyword, List.mem_cons_self⟩
    exact reported.later (e.reports_suffix _)
  | .block body, r, h => by
    rw [Stmt.returns] at h
    rw [Stmt.resolve]
    exact (blamesReturn_of_bodyReturns body r.openScope h).later
      (Resolution.reports_suffix_closeScope policy _)
  | .branch e s s', r, h => by
    rw [Stmt.returns, Bool.or_eq_true] at h
    rw [Stmt.resolve]
    rcases h with h | h
    · exact (s.blamesReturn_of_returns _ h).later (s'.reports_suffix policy false _)
    · exact s'.blamesReturn_of_returns _ h
  | .loop e s, r, h => by
    rw [Stmt.returns] at h
    rw [Stmt.resolve]
    exact s.blamesReturn_of_returns _ h
  | .expression _, _, h | .print _, _, h | .var _ _, _, h | .function _ _ _, _, h
  | .absent, _, h => by
    rw [Stmt.returns] at h
    exact nomatch h

/-- The same for a body. -/
theorem blamesReturn_of_bodyReturns : ∀ (body : List Stmt) (r : Resolution),
    bodyReturns body = true → (resolveBody policy false body r).BlamesReturn
  | s :: rest, r, h => by
    rw [bodyReturns, Bool.or_eq_true] at h
    rw [resolveBody]
    rcases h with h | h
    · exact (s.blamesReturn_of_returns r h).later (reports_suffix_resolveBody policy false rest _)
    · exact blamesReturn_of_bodyReturns rest _ h

end

/-- **A program in which no `return` is blamed has none** outside functions. -/
theorem bodyReturns_eq_false_of_silent {program : Program}
    (silent : ∀ keyword : Token,
      Report.scoping keyword.place .returnOutsideFunction ∉ (resolve policy program).reports) :
    bodyReturns program = false := by
  refine eq_false_of_ne_true fun returns => ?_
  obtain ⟨keyword, mem⟩ := blamesReturn_of_bodyReturns policy program {} returns
  exact silent keyword (List.mem_reverse.2 mem)

/-- So a program without static reports has no `return` outside of functions. -/
theorem bodyReturns_eq_false {program : Program}
    (clean : (resolve policy program).reports.any Report.isStatic = false) :
    bodyReturns program = false :=
  bodyReturns_eq_false_of_silent policy fun _ mem => List.any_eq_false.1 clean _ mem rfl

end Reporting

/-! ## Bodies that end normally -/

namespace Eval

/-- **An evaluation that never returns.** -/
def Settles (x : Eval Flow) : Prop := ∀ m flow m', x m = .ok flow m' → flow = .normal

namespace Settles

variable {α : Type}

theorem normal : Settles (pure .normal) := by
  intro m flow m' ended
  cases ended
  rfl

theorem exhausted : Settles (throw .exhausted) := fun _ _ _ ended => nomatch ended

/-- Only the last part of an evaluation can return. -/
theorem bind {x : Eval α} {k : α → Eval Flow} (next : ∀ a, Settles (k a)) :
    Settles (x >>= k) := by
  intro m flow m' ended
  cases first : x m with
  | ok a m₁ =>
    rw [bind_of_ok first] at ended
    exact next a m₁ flow m' ended
  | error halt m₁ =>
    rw [bind_of_error first] at ended
    exact nomatch ended

/-- Going on behind an evaluation that does not return. -/
theorem andThen {x y : Eval Flow} (first : Settles x) (next : Settles y) :
    Settles (x >>= fun flow =>
      match flow with
      | .normal => y
      | .returned value => pure (.returned value)) := by
  intro m flow m' ended
  cases here : x m with
  | ok a m₁ =>
    rw [bind_of_ok here, first m a m₁ here] at ended
    exact next m₁ flow m' ended
  | error halt m₁ =>
    rw [bind_of_error here] at ended
    exact nomatch ended

theorem ite {x y : Eval Flow} {p : Prop} [Decidable p] (h : Settles x) (h' : Settles y) :
    Settles (if p then x else y) := by
  by_cases hp : p
  · rw [if_pos hp]
    exact h
  · rw [if_neg hp]
    exact h'

/-- What does not return in a frame does not return outside of it. -/
theorem within {x : Eval Flow} (inside : Settles x) (frame : Frame Value) :
    Settles (Eval.within frame x) := by
  intro m flow m' ended
  unfold Eval.within at ended
  dsimp only at ended
  split at ended
  · next here =>
    cases ended
    exact inside _ _ _ here
  · exact nomatch ended

end Settles

end Eval

/-- **What has no `return` does not return**, within a number of steps. -/
structure Settling (steps : Nat) : Prop where
  execute : ∀ s : Stmt, s.returns = false → Settles (execute steps s)
  executeAll : ∀ body : List Stmt, bodyReturns body = false → Settles (executeAll steps body)

/-- **A statement without a `return`**, with one step more. -/
theorem Settling.execute_succ {steps : Nat} (h : Settling steps) (s : Stmt)
    (none : s.returns = false) : Settles (Kix.execute (steps + 1) s) := by
  cases s with
  | expression value => exact .bind fun _ => .normal
  | print value | var name initializer | function name params body =>
    exact .bind fun _ => .bind fun _ => .normal
  | block body =>
    rw [Stmt.returns] at none
    exact .bind fun parent => (h.executeAll body none).within { parent }
  | branch condition thenBranch elseBranch =>
    rw [Stmt.returns, Bool.or_eq_false_iff] at none
    exact .bind fun _ => .ite (h.execute thenBranch none.1) (h.execute elseBranch none.2)
  | loop condition body =>
    have again := h.execute (.loop condition body) none
    rw [Stmt.returns] at none
    exact .bind fun _ => .ite ((h.execute body none).andThen again) .normal
  | ret keyword value =>
    rw [Stmt.returns] at none
    exact nomatch none
  | absent => exact .normal

/-- Statements without a `return`, with one step more. -/
theorem Settling.executeAll_succ {steps : Nat} (h : Settling steps) (body : List Stmt)
    (none : bodyReturns body = false) : Settles (Kix.executeAll (steps + 1) body) := by
  cases body with
  | nil => exact .normal
  | cons s rest =>
    rw [bodyReturns, Bool.or_eq_false_iff] at none
    exact (h.execute s none.1).andThen (h.executeAll rest none.2)

/-- **Whatever the steps, what has no `return` does not return.** -/
theorem settling (steps : Nat) : Settling steps := by
  induction steps with
  | zero => exact ⟨fun _ _ => .exhausted, fun _ _ => .exhausted⟩
  | succ steps ih => exact ⟨ih.execute_succ, ih.executeAll_succ⟩

/-! ## Programs in a row -/

/-- **A body in two parts**: the second has the steps that the first leaves. -/
theorem executeAll_append (p q : List Stmt) (steps : Nat) :
    executeAll (steps + p.length) (p ++ q)
      = (executeAll (steps + p.length) p >>= fun flow =>
          match flow with
          | .normal => executeAll steps q
          | .returned value => pure (.returned value)) := by
  induction p with
  | nil =>
    cases steps with
    | zero => rfl
    | succ steps => rfl
  | cons s rest ih =>
    rw [List.length_cons, ← Nat.add_assoc, List.cons_append, executeAll, ih, executeAll, bind_assoc]
    congr 1
    funext flow
    cases flow <;> rfl

/-- **Running two programs written as one** is running the second behind the first, if
the first has no `return` and ends without a report. -/
theorem Machine.run?_append {m m₁ : Machine} {p : Program} {n : Nat} (top : m.current = none)
    (settled : bodyReturns p = false) (ran : m.run? n p = some (none, m₁)) (q : Program)
    {steps : Nat} (le : n ≤ steps) :
    m.run? (steps + p.length) (p ++ q) = m₁.run? steps q := by
  have ended := (lasting (Nat.le_trans le (Nat.le_add_right steps p.length))).executeAll p m
  have normal := (settling n).executeAll p settled m
  unfold Machine.run? at ran
  generalize executeAll n p m = r at ended ran normal
  generalize longer : executeAll (steps + p.length) p m = r' at ended
  cases ended with
  | @ok flow m' stays =>
    cases normal flow m' rfl
    have here : m₁ = m' := by
      obtain ⟨-, same⟩ := Prod.mk.inj (Option.some.inj ran)
      have unmoved : m'.current = none := stays.current.trans top
      rw [← same]
      show { m' with current := none } = m'
      rw [← unmoved]
    have after : executeAll (steps + p.length) (p ++ q) m = executeAll steps q m' := by
      rw [executeAll_append, bind_of_ok longer]
    unfold Machine.run?
    rw [after, here]
  | fault => exact nomatch ran
  | exhausted => exact nomatch ran

end Kix
