import Kix.Proofs.Visits

/-!
# What a run leaves as it was

Evaluation changes a machine in few ways: it writes, reads the clock, makes closures, assigns,
opens frames and leaves them again, and declares. To know that something about a machine is the
same after an evaluation as before, it is enough to look at these operations one by one.

An **aspect** is something about machines that only a declaration can change, and only in some
frames: which names are global, say, or how many values a given frame holds. For an aspect it is
proved once, by induction on the number of steps, that evaluation keeps it
(`Aspect.undisturbed`), and that it is the same at every task that is performed on the way
(`Aspect.visit`). Whether an evaluation ends with a result, with a `return`, with a fault or for
want of steps makes no difference.

Expressions declare nothing themselves, nor do statements that are not declarations; both can
call functions and execute blocks that declare, but these run in frames of their own. A
declaration evaluates first, and declares as the last thing that it does (`execute_declares`).

The same induction shows that every evaluation comes back to the frame in which it began, which
needs no aspect at all (`current_frame_restored`).
-/

namespace Kix

open Eval

/-! ## Aspects -/

/-- **Something about machines that only declarations can change.** -/
structure Aspect where
  /-- The second machine is as the first one was. -/
  Same : Machine → Machine → Prop
  /-- The current frame is one where a declaration changes nothing. -/
  Inert : Option FrameRef → Prop
  /-- What the aspect is about is there. -/
  Here : Machine → Prop
  refl : ∀ m, Same m m
  trans : ∀ {m m' m''}, Same m m' → Same m' m'' → Same m m''
  here : ∀ {m m'}, Here m → Same m m' → Here m'
  put : ∀ (m : Machine) (text : String), Same m { m with out := m.out.put text }
  readClock : ∀ m : Machine, Same m { m with readings := m.readings + 1 }
  close : ∀ m : Machine, Same m { m with nextClosure := m.nextClosure + 1 }
  set : ∀ (m : Machine) (f : FrameRef) (slot : Nat) (value : Value),
    Same m { m with store := m.store.set f slot value }
  setGlobal : ∀ (m : Machine) (name : String) (value : Value), m.globals.contains name = true →
    Same m { m with globals := m.globals.insert name value }
  define : ∀ (m : Machine) (name : Token) (value : Value), Here m → Inert m.current →
    Same m (left (define name value m))
  enter : ∀ (m : Machine) (frame : Frame Value), Here m →
    Same m (m.enter frame) ∧ Inert (m.enter frame).current
  leave : ∀ (m : Machine) (current : Option FrameRef), Same m { m with current }

namespace Aspect

variable (A : Aspect)

/-- **What an evaluation keeps**: the current frame, and the aspect if the evaluation is quiet,
which is to say that it declares nothing itself, or if a declaration makes no difference. -/
structure Kept (quiet : Prop) (m m' : Machine) : Prop where
  current : m'.current = m.current
  same : A.Here m → quiet ∨ A.Inert m.current → A.Same m m'

/-- An evaluation that keeps the aspect, however it ends. -/
def Keeps {α : Type} (quiet : Prop) (x : Eval α) : Prop := ∀ m, A.Kept quiet m (left (x m))

variable {A} {quiet : Prop}

namespace Kept

variable {m m' m'' : Machine}

theorem refl (m : Machine) : A.Kept quiet m m := ⟨rfl, fun _ _ => A.refl m⟩

/-- What is kept twice is kept. The current frame is the same in between, so it is still
inert. -/
theorem trans (h : A.Kept quiet m m') (h' : A.Kept quiet m' m'') : A.Kept quiet m m'' where
  current := h'.current.trans h.current
  same there settled := by
    have same := h.same there settled
    refine A.trans same (h'.same (A.here there same) ?_)
    rwa [h.current]

end Kept

namespace Keeps

variable {α β : Type}

/-- An evaluation that declares nothing may stand in for one that may declare. -/
theorem mono {x : Eval α} {loud : Prop} (h : A.Keeps quiet x) (weaker : loud → quiet) :
    A.Keeps loud x :=
  fun m => ⟨(h m).current, fun there settled => (h m).same there (settled.imp_left weaker)⟩

theorem pure (a : α) : A.Keeps quiet (Pure.pure a : Eval α) := fun m => .refl m

theorem throw (halt : Halt) : A.Keeps quiet (MonadExcept.throw halt : Eval α) := fun m => .refl m

/-- A fault changes nothing. -/
theorem faultAt (t : Token) (problem : Problem) : A.Keeps quiet (Eval.faultAt (α := α) t problem) :=
  fun m => .refl m

/-- **One evaluation after another.** -/
theorem bind {x : Eval α} {k : α → Eval β} (first : A.Keeps quiet x)
    (next : ∀ a, A.Keeps quiet (k a)) : A.Keeps quiet (x >>= k) := by
  intro m
  have begun := first m
  cases h : x m with
  | ok a m' =>
    rw [h] at begun
    rw [bind_of_ok h]
    exact begun.trans (next a m')
  | error halt m' =>
    rw [h] at begun
    rw [bind_of_error h]
    exact begun

/-- Whichever branch is taken. -/
theorem ite {x y : Eval α} {p : Prop} [Decidable p] (h : A.Keeps quiet x) (h' : A.Keeps quiet y) :
    A.Keeps quiet (if p then x else y) := by
  by_cases hp : p
  · rw [if_pos hp]
    exact h
  · rw [if_neg hp]
    exact h'

/-- **Running in a new frame**, where declarations make no difference, and coming back. -/
theorem within {x : Eval α} (inside : A.Keeps False x) (frame : Frame Value) :
    A.Keeps quiet (Eval.within frame x) := by
  intro m
  have kept := inside (m.enter frame)
  rw [left_within]
  refine ⟨rfl, fun there _ => ?_⟩
  obtain ⟨entered, inert⟩ := A.enter m frame there
  exact A.trans entered (A.trans (kept.same (A.here there entered) (.inr inert)) (A.leave _ _))

end Keeps

/-! ## Single operations -/

section Operations

theorem keeps_currentFrame : A.Keeps quiet currentFrame := fun m => .refl m

theorem keeps_readClock : A.Keeps quiet Eval.readClock := fun m => ⟨rfl, fun _ _ => A.readClock m⟩

/-- Making a function counts it, which no aspect is about. -/
theorem keeps_close (name : Token) (params : List Token) (body : List Stmt) :
    A.Keeps quiet (Eval.close name params body) :=
  fun m => ⟨rfl, fun _ _ => A.close m⟩

/-- Writing changes the output, whether it succeeds or not. -/
theorem keeps_write (text : String) (report : String → Report) :
    A.Keeps quiet (write text report) := by
  intro m
  unfold write
  by_cases fits : m.out.fits text = true
  · rw [if_pos fits]
    exact ⟨rfl, fun _ _ => A.put m text⟩
  · rw [if_neg fits]
    exact ⟨rfl, fun _ _ => A.put m text⟩

/-- **Defining a variable is loud**: the aspect is kept only where declarations change
nothing. -/
theorem keeps_define (name : Token) (value : Value) : A.Keeps False (Eval.define name value) := by
  intro m
  refine ⟨?_, fun there settled => A.define m name value there (settled.resolve_left id)⟩
  unfold Eval.define
  cases m.current <;> rfl

/-- Looking a variable up changes nothing. -/
theorem keeps_lookup (id : OccurrenceId) (name : Token) : A.Keeps quiet (lookup id name) := by
  intro m
  have unchanged : left (lookup id name m) = m := by
    unfold lookup
    repeat' split
    all_goals rfl
  rw [unchanged]
  exact .refl m

/-- Assigning changes a slot or a global variable that is there. -/
theorem keeps_assign (id : OccurrenceId) (name : Token) (value : Value) :
    A.Keeps quiet (assign id name value) := by
  intro m
  unfold assign
  split
  · split
    · exact ⟨rfl, fun _ _ => A.set m _ _ value⟩
    · exact .refl m
  · split
    · next known => exact ⟨rfl, fun _ _ => A.setGlobal m name.lexeme value known⟩
    · exact .refl m

/-- The result of an operator, or its fault. -/
theorem keeps_ofOperator (operator : Token) (r : Except Problem Value) :
    A.Keeps quiet (ofOperator operator r) := by
  cases r with
  | ok value => exact .pure value
  | error problem => exact .faultAt operator problem

theorem keeps_checkCall (callee : Value) (paren : Token) (given : Nat) :
    A.Keeps quiet (checkCall callee paren given) := by
  unfold checkCall
  cases callee.arity? with
  | none => exact .faultAt paren .notCallable
  | some arity => exact .ite (.pure ()) (.faultAt paren (.wrongArgumentCount arity given))

/-- Built-in functions write and read the clock. -/
theorem keeps_callNative (native : Native) (paren : Token) (given : List Value) :
    A.Keeps quiet (callNative native paren given) := by
  match native, given with
  | .clock, _ => exact keeps_readClock.bind fun _ => .pure _
  | .print, [] | .println, [] => exact .pure Value.nil
  | .print, value :: _ | .println, value :: _ =>
    exact (keeps_write _ _).bind fun _ => .pure Value.nil

end Operations

end Aspect

/-! ## Evaluation -/

/-- A statement that is no declaration and holds none but in the bodies inside it. -/
def Stmt.Quiet (s : Stmt) : Prop := s.declared? = none ∧ s.Placed

namespace Aspect

/-- **Evaluation with a number of steps keeps an aspect.** -/
structure Undisturbed (A : Aspect) (steps : Nat) : Prop where
  evaluate : ∀ e : Expr, A.Keeps True (evaluate steps e)
  evaluateAll : ∀ es : List Expr, A.Keeps True (evaluateAll steps es)
  call : ∀ (callee : Value) (paren : Token) (given : List Value),
    A.Keeps True (call steps callee paren given)
  execute : ∀ s : Stmt, A.Keeps s.Quiet (execute steps s)
  executeAll : ∀ body : List Stmt, A.Keeps (∀ s ∈ body, s.Quiet) (executeAll steps body)

namespace Undisturbed

variable {A : Aspect} {steps : Nat}

/-- **Evaluating an expression is quiet.** -/
theorem evaluate_succ (h : A.Undisturbed steps) (e : Expr) :
    A.Keeps True (Kix.evaluate (steps + 1) e) := by
  cases e with
  | literal value => exact .pure (Value.ofLiteral value)
  | absent => exact .pure Value.nil
  | group inner => exact h.evaluate inner
  | unary operator operand =>
    exact (h.evaluate operand).bind fun _ => keeps_ofOperator operator _
  | binary left operator right =>
    exact (h.evaluate left).bind fun _ => (h.evaluate right).bind fun _ =>
      keeps_ofOperator operator _
  | logical left operator right =>
    exact (h.evaluate left).bind fun a => .ite (.pure a) (h.evaluate right)
  | conditional condition thenBranch elseBranch =>
    exact (h.evaluate condition).bind fun _ =>
      .ite (h.evaluate thenBranch) (h.evaluate elseBranch)
  | var id name => exact keeps_lookup id name
  | assign id name value =>
    exact (h.evaluate value).bind fun a => (keeps_assign id name a).bind fun _ => .pure a
  | call callee paren arguments =>
    exact (h.evaluate callee).bind fun f => (h.evaluateAll arguments).bind fun given =>
      h.call f paren given

theorem evaluateAll_succ (h : A.Undisturbed steps) (es : List Expr) :
    A.Keeps True (Kix.evaluateAll (steps + 1) es) := by
  cases es with
  | nil => exact .pure []
  | cons e rest =>
    exact (h.evaluate e).bind fun value => (h.evaluateAll rest).bind fun others =>
      .pure (value :: others)

/-- A call enters a frame in which declarations change nothing outside. -/
theorem call_succ (h : A.Undisturbed steps) (callee : Value) (paren : Token)
    (given : List Value) : A.Keeps True (Kix.call (steps + 1) callee paren given) := by
  refine (keeps_checkCall callee paren given.length).bind fun _ => ?_
  cases callee with
  | native native => exact keeps_callNative native paren given
  | closure f =>
    have inside : A.Keeps False (Kix.executeAll steps f.body) :=
      (h.executeAll f.body).mono False.elim
    refine (inside.within ⟨given.toArray, f.scope⟩).bind fun flow => ?_
    cases flow with
    | returned value => exact .pure value
    | normal => exact .pure Value.nil
  | _ => exact .faultAt paren .notCallable

/-- **Executing a statement is as quiet as the statement is.** A block has a frame of its
own, so what it declares does not count. -/
theorem execute_succ (h : A.Undisturbed steps) (s : Stmt) :
    A.Keeps s.Quiet (Kix.execute (steps + 1) s) := by
  have evaluated (e : Expr) : A.Keeps s.Quiet (Kix.evaluate steps e) :=
    (h.evaluate e).mono fun _ => trivial
  cases s with
  | expression value => exact (evaluated value).bind fun _ => .pure Flow.normal
  | print value =>
    exact (evaluated value).bind fun _ => (keeps_write _ _).bind fun _ => .pure Flow.normal
  | var name initializer =>
    refine (evaluated initializer).bind fun value => ?_
    exact ((keeps_define name value).mono fun quiet => nomatch quiet.1).bind fun _ =>
      .pure Flow.normal
  | block body =>
    have inside : A.Keeps False (Kix.executeAll steps body) := (h.executeAll body).mono False.elim
    exact keeps_currentFrame.bind fun parent => inside.within { parent }
  | branch condition thenBranch elseBranch =>
    refine (evaluated condition).bind fun _ => .ite ?_ ?_
    · exact (h.execute thenBranch).mono fun quiet => quiet.2.1
    · exact (h.execute elseBranch).mono fun quiet => quiet.2.2
  | loop condition body =>
    refine (evaluated condition).bind fun _ => .ite ?_ (.pure Flow.normal)
    refine ((h.execute body).mono fun quiet => quiet.2).bind fun flow => ?_
    cases flow with
    | normal => exact h.execute (.loop condition body)
    | returned value => exact .pure (Flow.returned value)
  | function name params body =>
    refine (keeps_close name params body).bind fun f => ?_
    exact ((keeps_define name f).mono fun quiet => nomatch quiet.1).bind fun _ => .pure Flow.normal
  | ret keyword value => exact (evaluated value).bind fun a => .pure (Flow.returned a)
  | absent => exact .pure Flow.normal

/-- Statements are quiet if each of them is. -/
theorem executeAll_succ (h : A.Undisturbed steps) (body : List Stmt) :
    A.Keeps (∀ s ∈ body, s.Quiet) (Kix.executeAll (steps + 1) body) := by
  cases body with
  | nil => exact .pure Flow.normal
  | cons s rest =>
    refine ((h.execute s).mono fun quiet => quiet s List.mem_cons_self).bind fun flow => ?_
    cases flow with
    | normal =>
      exact (h.executeAll rest).mono fun quiet s hs => quiet s (List.mem_cons_of_mem _ hs)
    | returned value => exact .pure (Flow.returned value)

end Undisturbed

/-- **Evaluation keeps every aspect**, whatever the number of steps. -/
theorem undisturbed (A : Aspect) (steps : Nat) : A.Undisturbed steps := by
  induction steps with
  | zero =>
    exact ⟨fun _ => .throw _, fun _ => .throw _, fun _ _ _ => .throw _, fun _ => .throw _,
      fun _ => .throw _⟩
  | succ steps h =>
    exact ⟨h.evaluate_succ, h.evaluateAll_succ, h.call_succ, h.execute_succ, h.executeAll_succ⟩

end Aspect

/-! ## Declarations -/

/-- **What a declaration does**: after evaluations that declare nothing it adds a value to the
current scope, unless it halts before. -/
inductive Declares (name : Token) (m : Machine) : EStateM.Result Halt Machine Flow → Prop where
  | declared {value : Value} {m₁ m' : Machine} (before : ∀ A : Aspect, A.Kept True m m₁)
    (defined : Eval.define name value m₁ = .ok () m') : Declares name m (.ok .normal m')
  | halted {halt : Halt} {m₁ : Machine} (before : ∀ A : Aspect, A.Kept True m m₁) :
    Declares name m (.error halt m₁)

/-- **A declaration declares its name**, once its initializer has been evaluated. -/
theorem execute_declares {s : Stmt} {name : Token} (declared : s.declared? = some name)
    (steps : Nat) (m : Machine) : Declares name m (execute steps s m) := by
  cases steps with
  | zero => exact .halted fun _ => .refl m
  | succ steps =>
    cases s with
    | var name' initializer =>
      cases declared
      have before (A : Aspect) := (A.undisturbed steps).evaluate initializer m
      rw [execute]
      cases evaluated : evaluate steps initializer m with
      | ok value m₁ =>
        rw [evaluated] at before
        obtain ⟨m', defined⟩ := define_ok name value m₁
        rw [bind_of_ok evaluated, bind_of_ok defined]
        exact .declared before defined
      | error halt m₁ =>
        rw [evaluated] at before
        rw [bind_of_error evaluated]
        exact .halted before
    | function name' params body =>
      cases declared
      have before (A : Aspect) : A.Kept True m _ := Aspect.keeps_close name params body m
      obtain ⟨m', defined⟩ := define_ok name _ _
      rw [execute, bind_of_ok (show Eval.close name params body m = .ok _ _ from rfl),
        bind_of_ok defined]
      exact .declared before defined
    | _ => cases declared

/-! ## On the way -/

/-- A task that declares nothing itself. -/
def Task.Quiet : Task → Prop
  | .expression _ | .arguments _ | .call _ _ _ => True
  | .statement s => s.Quiet
  | .body statements => ∀ s ∈ statements, s.Quiet

/-- The machine that a task leaves, however it ends. -/
def Task.left (steps : Nat) (m : Machine) : Task → Machine
  | .expression e => Eval.left (evaluate steps e m)
  | .arguments es => Eval.left (evaluateAll steps es m)
  | .call callee paren given => Eval.left (Kix.call steps callee paren given m)
  | .statement s => Eval.left (execute steps s m)
  | .body statements => Eval.left (executeAll steps statements m)

namespace Aspect

variable {A : Aspect} {steps steps' : Nat} {t t' : Task} {m m' : Machine}

/-- What is known when an evaluation has yielded a result. -/
theorem Keeps.of_ok {α : Type} {quiet : Prop} {x : Eval α} {a : α} (h : A.Keeps quiet x)
    (ok : x m = .ok a m') : A.Kept quiet m m' := by
  have kept := h m
  rwa [ok] at kept

/-- A task keeps the aspect. -/
theorem kept_left (A : Aspect) (steps : Nat) (t : Task) (m : Machine) :
    A.Kept t.Quiet m (t.left steps m) := by
  have undisturbed := A.undisturbed steps
  cases t with
  | expression e => exact undisturbed.evaluate e m
  | arguments es => exact undisturbed.evaluateAll es m
  | call callee paren given => exact undisturbed.call callee paren given m
  | statement s => exact undisturbed.execute s m
  | body statements => exact undisturbed.executeAll statements m

/-- **What a task performs finds the aspect as the task found it.** -/
theorem spawn (spawns : Spawns steps t m t' m') (there : A.Here m)
    (settled : t.Quiet ∨ A.Inert m.current) :
    A.Same m m' ∧ (t'.Quiet ∨ A.Inert m'.current) := by
  have undisturbed := A.undisturbed steps
  have after {m' : Machine} (kept : A.Kept True m m') : A.Same m m' :=
    kept.same there (.inl trivial)
  cases spawns with
  | inner | operand | left | first | test | assigned | callee | argument | expression | printed
  | initializer | condition | loopCondition | returned => exact ⟨A.refl m, .inl trivial⟩
  | right ok | second ok | choice ok | given ok | arguments ok =>
    exact ⟨after ((undisturbed.evaluate _).of_ok ok), .inl trivial⟩
  | call ok ok' =>
    have kept := (undisturbed.evaluate _).of_ok ok
    exact ⟨after (kept.trans ((undisturbed.evaluateAll _).of_ok ok')), .inl trivial⟩
  | callBody | block =>
    obtain ⟨same, inert⟩ := A.enter m _ there
    exact ⟨same, .inr inert⟩
  | branch ok =>
    have kept := (undisturbed.evaluate _).of_ok ok
    refine ⟨after kept, settled.imp (fun quiet => ?_) fun inert => ?_⟩
    · split
      · exact quiet.2.1
      · exact quiet.2.2
    · rwa [kept.current]
  | loopBody ok =>
    have kept := (undisturbed.evaluate _).of_ok ok
    refine ⟨after kept, settled.imp (fun quiet => quiet.2) fun inert => ?_⟩
    rwa [kept.current]
  | loopAgain ok _ ok' =>
    have kept := (undisturbed.evaluate _).of_ok ok
    have same := after kept
    have kept' := (undisturbed.execute _).of_ok ok'
    refine ⟨A.trans same (kept'.same (A.here there same) (settled.imp (fun quiet => quiet.2)
      fun inert => ?_)), settled.imp id fun inert => ?_⟩
    · rwa [kept.current]
    · rwa [kept'.current, kept.current]
  | statement => exact ⟨A.refl m, settled.imp_left fun quiet => quiet _ List.mem_cons_self⟩
  | body ok =>
    have kept := (undisturbed.execute _).of_ok ok
    refine ⟨kept.same there (settled.imp_left fun quiet => quiet _ List.mem_cons_self),
      settled.imp (fun quiet s hs => quiet s (List.mem_cons_of_mem _ hs)) fun inert => ?_⟩
    rwa [kept.current]

/-- **So does whatever it performs at all.** -/
theorem visit (visits : Visits steps t m steps' t' m') (there : A.Here m)
    (settled : t.Quiet ∨ A.Inert m.current) :
    A.Same m m' ∧ (t'.Quiet ∨ A.Inert m'.current) := by
  induction visits with
  | here => exact ⟨A.refl _, settled⟩
  | deeper spawns _ ih =>
    obtain ⟨same, settled⟩ := A.spawn spawns there settled
    obtain ⟨later, settled⟩ := ih (A.here there same) settled
    exact ⟨A.trans same later, settled⟩

end Aspect

/-! ## The current frame -/

/-- The aspect that tells no two machines apart. -/
def Aspect.nothing : Aspect where
  Same _ _ := True
  Inert _ := True
  Here _ := True
  refl _ := trivial
  trans _ _ := trivial
  here _ _ := trivial
  put _ _ := trivial
  readClock _ := trivial
  close _ := trivial
  set _ _ _ _ := trivial
  setGlobal _ _ _ _ := trivial
  define _ _ _ _ _ := trivial
  enter _ _ _ := ⟨trivial, trivial⟩
  leave _ _ := trivial

/-- Evaluating an expression ends in the frame where it began. -/
theorem current_of_evaluate {steps : Nat} {e : Expr} {m m' : Machine} {a : Value}
    (h : evaluate steps e m = .ok a m') : m'.current = m.current :=
  ((Aspect.nothing.undisturbed steps).evaluate e |>.of_ok h).current

/-- So does executing a statement. -/
theorem current_of_execute {steps : Nat} {s : Stmt} {m m' : Machine} {flow : Flow}
    (h : execute steps s m = .ok flow m') : m'.current = m.current :=
  ((Aspect.nothing.undisturbed steps).execute s |>.of_ok h).current

/-- **The current frame is restored.** Whatever the machine and its table of addresses, after
executing a statement or evaluating an expression the frame that was current before is current
again, or the global scope if that was: however it ended, and even if the steps did not suffice. -/
theorem current_frame_restored (m : Machine) (steps : Nat) :
    (∀ s : Stmt, (left (execute steps s m)).current = m.current)
      ∧ ∀ e : Expr, (left (evaluate steps e m)).current = m.current := by
  have undisturbed := Aspect.nothing.undisturbed steps
  exact ⟨fun s => (undisturbed.execute s m).current, fun e => (undisturbed.evaluate e m).current⟩

end Kix
