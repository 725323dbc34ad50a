import Kix.Proofs.Simulation

/-!
# What a run performs

A run is a tree of tasks: executing a body executes its statements one after the
other, evaluating a call evaluates its callee, its arguments, and then performs
the call. `Spawns` says which tasks a task performs directly and on which
machine, `Visits` which tasks it performs at all, so that one can speak of every
evaluation in a run, and not only of how the run ends.

That nothing is missing from `Visits` is the content of `Visits.halt?` and
`exists_visit_of_missing`: a task that halts makes every task around it halt for
the same reason, and a variable that is missing was looked up or assigned by a
task that was visited.
-/

namespace Kix

/-- **Something that a run performs.** -/
inductive Task where
  | expression (e : Expr)
  | arguments (es : List Expr)
  | call (callee : Value) (paren : Token) (given : List Value)
  | statement (s : Stmt)
  | body (statements : List Stmt)

/-- **What a task performs directly.** A task that has one step more than the
given number performs another, on a machine that its earlier parts have left. -/
inductive Spawns (steps : Nat) : Task → Machine → Task → Machine → Prop where
  | inner {e : Expr} {m : Machine} : Spawns steps (.expression (.group e)) m (.expression e) m
  | operand {operator : Token} {e : Expr} {m : Machine} :
    Spawns steps (.expression (.unary operator e)) m (.expression e) m
  | left {e e' : Expr} {operator : Token} {m : Machine} :
    Spawns steps (.expression (.binary e operator e')) m (.expression e) m
  | right {e e' : Expr} {operator : Token} {a : Value} {m m' : Machine} :
    evaluate steps e m = .ok a m' →
    Spawns steps (.expression (.binary e operator e')) m (.expression e') m'
  | first {e e' : Expr} {operator : Token} {m : Machine} :
    Spawns steps (.expression (.logical e operator e')) m (.expression e) m
  | second {e e' : Expr} {operator : Token} {a : Value} {m m' : Machine} :
    evaluate steps e m = .ok a m' → Operator.decides operator.kind a = false →
    Spawns steps (.expression (.logical e operator e')) m (.expression e') m'
  | test {e e₁ e₂ : Expr} {m : Machine} :
    Spawns steps (.expression (.conditional e e₁ e₂)) m (.expression e) m
  | choice {e e₁ e₂ : Expr} {a : Value} {m m' : Machine} :
    evaluate steps e m = .ok a m' →
    Spawns steps (.expression (.conditional e e₁ e₂)) m
      (.expression (if a.isTruthy then e₁ else e₂)) m'
  | assigned {id : OccurrenceId} {name : Token} {e : Expr} {m : Machine} :
    Spawns steps (.expression (.assign id name e)) m (.expression e) m
  | callee {e : Expr} {paren : Token} {es : List Expr} {m : Machine} :
    Spawns steps (.expression (.call e paren es)) m (.expression e) m
  | given {e : Expr} {paren : Token} {es : List Expr} {f : Value} {m m' : Machine} :
    evaluate steps e m = .ok f m' →
    Spawns steps (.expression (.call e paren es)) m (.arguments es) m'
  | call {e : Expr} {paren : Token} {es : List Expr} {f : Value} {vs : List Value}
    {m m' m'' : Machine} :
    evaluate steps e m = .ok f m' → evaluateAll steps es m' = .ok vs m'' →
    Spawns steps (.expression (.call e paren es)) m (.call f paren vs) m''
  | argument {e : Expr} {es : List Expr} {m : Machine} :
    Spawns steps (.arguments (e :: es)) m (.expression e) m
  | arguments {e : Expr} {es : List Expr} {v : Value} {m m' : Machine} :
    evaluate steps e m = .ok v m' → Spawns steps (.arguments (e :: es)) m (.arguments es) m'
  | callBody {f : Closure} {paren : Token} {vs : List Value} {m : Machine} :
    vs.length = f.params.length →
    Spawns steps (.call (.closure f) paren vs) m (.body f.body) (m.enter ⟨vs.toArray, f.scope⟩)
  | expression {e : Expr} {m : Machine} :
    Spawns steps (.statement (.expression e)) m (.expression e) m
  | printed {e : Expr} {m : Machine} : Spawns steps (.statement (.print e)) m (.expression e) m
  | initializer {name : Token} {e : Expr} {m : Machine} :
    Spawns steps (.statement (.var name e)) m (.expression e) m
  | block {body : List Stmt} {m : Machine} :
    Spawns steps (.statement (.block body)) m (.body body) (m.enter { parent := m.current })
  | condition {e : Expr} {s s' : Stmt} {m : Machine} :
    Spawns steps (.statement (.branch e s s')) m (.expression e) m
  | branch {e : Expr} {s s' : Stmt} {a : Value} {m m' : Machine} :
    evaluate steps e m = .ok a m' →
    Spawns steps (.statement (.branch e s s')) m (.statement (if a.isTruthy then s else s')) m'
  | loopCondition {e : Expr} {s : Stmt} {m : Machine} :
    Spawns steps (.statement (.loop e s)) m (.expression e) m
  | loopBody {e : Expr} {s : Stmt} {a : Value} {m m' : Machine} :
    evaluate steps e m = .ok a m' → a.isTruthy = true →
    Spawns steps (.statement (.loop e s)) m (.statement s) m'
  | loopAgain {e : Expr} {s : Stmt} {a : Value} {m m' m'' : Machine} :
    evaluate steps e m = .ok a m' → a.isTruthy = true → execute steps s m' = .ok .normal m'' →
    Spawns steps (.statement (.loop e s)) m (.statement (.loop e s)) m''
  | returned {keyword : Token} {e : Expr} {m : Machine} :
    Spawns steps (.statement (.ret keyword e)) m (.expression e) m
  | statement {s : Stmt} {rest : List Stmt} {m : Machine} :
    Spawns steps (.body (s :: rest)) m (.statement s) m
  | body {s : Stmt} {rest : List Stmt} {m m' : Machine} :
    execute steps s m = .ok .normal m' → Spawns steps (.body (s :: rest)) m (.body rest) m'

/-- **What a task performs at all**, itself included, with the number of steps
that are left for it. -/
inductive Visits : Nat → Task → Machine → Nat → Task → Machine → Prop where
  | here {steps : Nat} {t : Task} {m : Machine} : Visits steps t m steps t m
  | deeper {steps steps' : Nat} {t t₁ t' : Task} {m m₁ m' : Machine} :
    Spawns steps t m t₁ m₁ → Visits steps t₁ m₁ steps' t' m' → Visits (steps + 1) t m steps' t' m'

/-! ## Running in a new frame -/

namespace Eval

variable {α : Type}

/-- A result from inside a frame, and the frame is left. -/
theorem within_of_ok {frame : Frame Value} {x : Eval α} {m m' : Machine} {a : α}
    (h : x (m.enter frame) = .ok a m') :
    Eval.within frame x m = .ok a { m' with current := m.current } := by
  unfold Machine.enter at h
  unfold Eval.within
  dsimp only
  rw [h]

/-- The frame is left behind a halt as well. -/
theorem within_of_error {frame : Frame Value} {x : Eval α} {m m' : Machine} {halt : Halt}
    (h : x (m.enter frame) = .error halt m') :
    Eval.within frame x m = .error halt { m' with current := m.current } := by
  unfold Machine.enter at h
  unfold Eval.within
  dsimp only
  rw [h]

/-- The machine that an evaluation leaves, however it ends. -/
def left : EStateM.Result Halt Machine α → Machine
  | .ok _ m | .error _ m => m

/-- What is left behind a frame is in the frame from before. -/
theorem left_within (frame : Frame Value) (x : Eval α) (m : Machine) :
    left (Eval.within frame x m) = { left (x (m.enter frame)) with current := m.current } := by
  cases h : x (m.enter frame) with
  | ok a m' =>
    rw [within_of_ok h]
    rfl
  | error halt m' =>
    rw [within_of_error h]
    rfl

end Eval

/-! ## Halting -/

/-- Why an evaluation did not yield a result. -/
def haltOf {α : Type} : EStateM.Result Halt Machine α → Option Halt
  | .ok _ _ => none
  | .error halt _ => some halt

/-- A sequence halts in its first part or in the second. -/
theorem haltOf_bind {α β : Type} (x : Eval α) (k : α → Eval β) (m : Machine) (halt : Halt) :
    haltOf ((x >>= k) m) = some halt
      ↔ haltOf (x m) = some halt ∨ ∃ a m', x m = .ok a m' ∧ haltOf (k a m') = some halt := by
  cases h : x m with
  | ok a m' =>
    rw [bind_of_ok h]
    constructor
    · intro later
      exact .inr ⟨a, m', rfl, later⟩
    · rintro (now | ⟨a, m', same, later⟩)
      · exact nomatch now
      · cases same
        exact later
  | error e m' =>
    rw [bind_of_error h]
    constructor
    · intro now
      exact .inl now
    · rintro (now | ⟨a, m', other, _⟩)
      · exact now
      · exact nomatch other

/-- Entering a frame halts nothing. -/
theorem haltOf_within {α : Type} (frame : Frame Value) (run : Eval α) (m : Machine) :
    haltOf (Eval.within frame run m) = haltOf (run (m.enter frame)) := by
  unfold Eval.within Machine.enter
  dsimp only
  split <;> next h => rw [h]; rfl

/-- Why a task halts on a machine, if it does. -/
def Task.halt? (steps : Nat) (m : Machine) : Task → Option Halt
  | .expression e => haltOf (evaluate steps e m)
  | .arguments es => haltOf (evaluateAll steps es m)
  | .call callee paren given => haltOf (Kix.call steps callee paren given m)
  | .statement s => haltOf (execute steps s m)
  | .body statements => haltOf (executeAll steps statements m)

/-- A closure can be called with as many arguments as it has parameters. -/
theorem checkCall_closure_iff (f : Closure) (paren : Token) (given : Nat) (m m' : Machine) :
    Eval.checkCall (.closure f) paren given m = .ok () m' ↔ given = f.params.length ∧ m' = m := by
  show (if given = f.params.length then pure () else _ : Eval Unit) m = _ ↔ _
  by_cases h : given = f.params.length
  · rw [if_pos h]
    constructor
    · intro ok
      cases ok
      exact ⟨h, rfl⟩
    · rintro ⟨-, rfl⟩
      rfl
  · rw [if_neg h]
    exact iff_of_false nofun fun ⟨fits, _⟩ => h fits

/-- **A task that halts makes the task that performs it halt.** -/
theorem Spawns.halt? {steps : Nat} {t t' : Task} {m m' : Machine} {halt : Halt}
    (spawns : Spawns steps t m t' m') (h : t'.halt? steps m' = some halt) :
    t.halt? (steps + 1) m = some halt := by
  cases spawns with
  | inner => exact h
  | operand | left | first | test | assigned | callee | argument | expression | printed
  | initializer | condition | loopCondition | returned | statement =>
    exact (haltOf_bind _ _ _ _).2 (.inl h)
  | right ok => exact (haltOf_bind _ _ _ _).2 (.inr ⟨_, _, ok, (haltOf_bind _ _ _ _).2 (.inl h)⟩)
  | second ok undecided =>
    refine (haltOf_bind _ _ _ _).2 (.inr ⟨_, _, ok, ?_⟩)
    rw [if_neg (by rw [undecided]; exact Bool.false_ne_true)]
    exact h
  | choice ok =>
    refine (haltOf_bind _ _ _ _).2 (.inr ⟨_, _, ok, ?_⟩)
    rw [← apply_ite (evaluate steps)]
    exact h
  | given ok | arguments ok =>
    exact (haltOf_bind _ _ _ _).2 (.inr ⟨_, _, ok, (haltOf_bind _ _ _ _).2 (.inl h)⟩)
  | call ok ok' =>
    exact (haltOf_bind _ _ _ _).2
      (.inr ⟨_, _, ok, (haltOf_bind _ _ _ _).2 (.inr ⟨_, _, ok', h⟩)⟩)
  | @callBody f paren vs _ fits =>
    have checked := (checkCall_closure_iff f paren vs.length m m).2 ⟨fits, rfl⟩
    refine (haltOf_bind _ _ _ _).2 (.inr ⟨(), m, checked, ?_⟩)
    refine (haltOf_bind _ _ _ _).2 (.inl ?_)
    rw [haltOf_within]
    exact h
  | block => exact (haltOf_within _ _ _).trans h
  | branch ok =>
    refine (haltOf_bind _ _ _ _).2 (.inr ⟨_, _, ok, ?_⟩)
    rw [← apply_ite (execute steps)]
    exact h
  | loopBody ok truthy =>
    refine (haltOf_bind _ _ _ _).2 (.inr ⟨_, _, ok, ?_⟩)
    rw [if_pos truthy]
    exact (haltOf_bind _ _ _ _).2 (.inl h)
  | loopAgain ok truthy ok' =>
    refine (haltOf_bind _ _ _ _).2 (.inr ⟨_, _, ok, ?_⟩)
    rw [if_pos truthy]
    exact (haltOf_bind _ _ _ _).2 (.inr ⟨_, _, ok', h⟩)
  | body ok => exact (haltOf_bind _ _ _ _).2 (.inr ⟨_, _, ok, h⟩)

/-- **What halts inside halts the whole.** -/
theorem Visits.halt? {steps steps' : Nat} {t t' : Task} {m m' : Machine} {halt : Halt}
    (visits : Visits steps t m steps' t' m') (h : t'.halt? steps' m' = some halt) :
    t.halt? steps m = some halt := by
  induction visits with
  | here => exact h
  | deeper spawns _ ih => exact spawns.halt? (ih h)

/-! ## Missing variables -/

/-- Halting because a local variable is not where its address says. -/
def Halt.missing (line : Nat) (name : String) : Halt := .fault (.runtime line (.missingLocal name))

section Missing

variable {line : Nat} {x : String} {m : Machine}

/-- An operator in front of an operand misses no variable, whatever else goes wrong. -/
theorem Operator.unary_ne_missing {kind : Kind} {a : Value} {problem : Problem}
    (h : unary kind a = .error problem) : problem ≠ .missingLocal x := by
  unfold unary at h
  split at h
  · exact nomatch h
  · split at h
    · exact nomatch h
    · cases h
      nofun
  · cases h
    nofun

/-- Nor does one between two operands. -/
theorem Operator.binary_ne_missing {kind : Kind} {a b : Value} {problem : Problem}
    (h : binary kind a b = .error problem) : problem ≠ .missingLocal x := by
  unfold binary at h
  split at h
  · unfold plus at h
    split at h <;> cases h
    nofun
  · exact nomatch h
  · exact nomatch h
  · split at h <;> cases h <;> nofun

/-- Nor does the report about an operator. -/
theorem ofOperator_ne_missing {operator : Token} {r : Except Problem Value}
    (h : ∀ problem, r = .error problem → problem ≠ .missingLocal x) :
    haltOf (Eval.ofOperator operator r m) ≠ some (.missing line x) := by
  cases r with
  | ok v => nofun
  | error problem =>
    intro same
    cases same
    exact h _ rfl rfl

/-- Nor does a write, as long as its own report says something else. -/
theorem write_ne_missing (text : String) {report : String → Report}
    (h : ∀ reason, report reason ≠ .runtime line (.missingLocal x)) :
    haltOf (Eval.write text report m) ≠ some (.missing line x) := by
  unfold Eval.write
  split
  · nofun
  · intro same
    exact h _ (Halt.fault.inj (Option.some.inj same))

/-- A built-in function knows of no variables. -/
theorem callNative_ne_missing (f : Native) (paren : Token) (vs : List Value) :
    haltOf (Eval.callNative f paren vs m) ≠ some (.missing line x) := by
  have written (text : String) :
      haltOf ((do
        Eval.write text fun reason => .runtime paren.line (.other reason)
        return Value.nil : Eval Value) m) ≠ some (.missing line x) := by
    intro h
    rcases (haltOf_bind _ _ _ _).1 h with now | ⟨_, _, _, later⟩
    · refine absurd now (write_ne_missing text fun reason => ?_)
      nofun
    · exact nomatch later
  match f, vs with
  | .clock, _ => nofun
  | .print, [] | .println, [] => nofun
  | .print, v :: _ => exact written v.display
  | .println, v :: _ => exact written (v.display ++ "\n")

/-- Nor does the check of a call. -/
theorem checkCall_ne_missing (f : Value) (paren : Token) (given : Nat) :
    haltOf (Eval.checkCall f paren given m) ≠ some (.missing line x) := by
  unfold Eval.checkCall
  cases f.arity? with
  | none => nofun
  | some arity =>
    show haltOf ((if given = arity then pure () else _ : Eval Unit) m) ≠ _
    by_cases fits : given = arity
    · rw [if_pos fits]
      nofun
    · rw [if_neg fits]
      nofun

/-- Defining a variable always succeeds. -/
theorem define_ok (name : Token) (v : Value) (m : Machine) :
    ∃ m', Eval.define name v m = .ok () m' := by
  unfold Eval.define
  split
  · exact ⟨_, rfl⟩
  · exact ⟨_, rfl⟩

end Missing

/-- **How a task comes to miss a variable**: in a task that it performs, or by
reading or assigning the variable itself. -/
inductive Misses (steps : Nat) (m : Machine) (halt : Halt) : Task → Prop where
  | inside {t t' : Task} {m' : Machine} :
    Spawns steps t m t' m' → t'.halt? steps m' = some halt → Misses steps m halt t
  | read {id : OccurrenceId} {name : Token} :
    haltOf (Eval.lookup id name m) = some halt → Misses steps m halt (.expression (.var id name))
  | assigned {id : OccurrenceId} {name : Token} {e : Expr} {v : Value} {m' : Machine} :
    evaluate steps e m = .ok v m' → haltOf (Eval.assign id name v m') = some halt →
    Misses steps m halt (.expression (.assign id name e))

section Cases

variable {steps line : Nat} {x : String} {m : Machine}

/-- **Where an expression comes to miss a variable**, by its cases. -/
theorem misses_of_evaluate {e : Expr}
    (h : haltOf (evaluate (steps + 1) e m) = some (.missing line x)) :
    Misses steps m (.missing line x) (.expression e) := by
  cases e with
  | literal value => exact nomatch h
  | absent => exact nomatch h
  | group inner => exact .inside .inner h
  | unary operator operand =>
    obtain now | ⟨a, m', ok, later⟩ := (haltOf_bind _ _ _ _).1 h
    · exact .inside .operand now
    · exact absurd later (ofOperator_ne_missing fun _ => Operator.unary_ne_missing)
  | binary left operator right =>
    obtain now | ⟨a, m', ok, later⟩ := (haltOf_bind _ _ _ _).1 h
    · exact .inside .left now
    obtain now | ⟨b, m'', ok', later⟩ := (haltOf_bind _ _ _ _).1 later
    · exact .inside (.right ok) now
    · exact absurd later (ofOperator_ne_missing fun _ => Operator.binary_ne_missing)
  | logical left operator right =>
    obtain now | ⟨a, m', ok, later⟩ := (haltOf_bind _ _ _ _).1 h
    · exact .inside .first now
    -- The right operand is performed only if the left one does not decide.
    by_cases decided : Operator.decides operator.kind a = true
    · rw [if_pos decided] at later
      exact nomatch later
    · rw [if_neg decided] at later
      exact .inside (.second ok (eq_false_of_ne_true decided)) later
  | conditional condition thenBranch elseBranch =>
    obtain now | ⟨a, m', ok, later⟩ := (haltOf_bind _ _ _ _).1 h
    · exact .inside .test now
    · rw [← apply_ite (evaluate steps)] at later
      exact .inside (.choice ok) later
  | var id name => exact .read h
  | assign id name value =>
    obtain now | ⟨a, m', ok, later⟩ := (haltOf_bind _ _ _ _).1 h
    · exact .inside .assigned now
    obtain now | ⟨_, _, _, later⟩ := (haltOf_bind _ _ _ _).1 later
    · exact .assigned ok now
    · exact nomatch later
  | call callee paren arguments =>
    obtain now | ⟨f, m', ok, later⟩ := (haltOf_bind _ _ _ _).1 h
    · exact .inside .callee now
    obtain now | ⟨vs, m'', ok', later⟩ := (haltOf_bind _ _ _ _).1 later
    · exact .inside (.given ok) now
    · exact .inside (.call ok ok') later

/-- The same for arguments. -/
theorem misses_of_evaluateAll {es : List Expr}
    (h : haltOf (evaluateAll (steps + 1) es m) = some (.missing line x)) :
    Misses steps m (.missing line x) (.arguments es) := by
  cases es with
  | nil => exact nomatch h
  | cons e rest =>
    obtain now | ⟨v, m', ok, later⟩ := (haltOf_bind _ _ _ _).1 h
    · exact .inside .argument now
    obtain now | ⟨_, _, _, later⟩ := (haltOf_bind _ _ _ _).1 later
    · exact .inside (.arguments ok) now
    · exact nomatch later

/-- The same for a call, in whose body it is missed. -/
theorem misses_of_call {callee : Value} {paren : Token} {given : List Value}
    (h : haltOf (Kix.call (steps + 1) callee paren given m) = some (.missing line x)) :
    Misses steps m (.missing line x) (.call callee paren given) := by
  obtain now | ⟨_, m', ok, later⟩ := (haltOf_bind _ _ _ _).1 h
  · exact absurd now (checkCall_ne_missing callee paren given.length)
  cases callee with
  | nil | bool | number | string => exact nomatch later
  | native f => exact absurd later (callNative_ne_missing f paren given)
  | closure f =>
    obtain ⟨fits, rfl⟩ := (checkCall_closure_iff f paren _ _ _).1 ok
    obtain now | ⟨flow, m', _, later⟩ := (haltOf_bind _ _ _ _).1 later
    · rw [haltOf_within] at now
      exact .inside (.callBody fits) now
    · cases flow <;> exact nomatch later

/-- The same for a statement. -/
theorem misses_of_execute {s : Stmt}
    (h : haltOf (execute (steps + 1) s m) = some (.missing line x)) :
    Misses steps m (.missing line x) (.statement s) := by
  cases s with
  | expression value =>
    obtain now | ⟨a, m', ok, later⟩ := (haltOf_bind _ _ _ _).1 h
    · exact .inside .expression now
    · exact nomatch later
  | print value =>
    obtain now | ⟨a, m', ok, later⟩ := (haltOf_bind _ _ _ _).1 h
    · exact .inside .printed now
    obtain now | ⟨_, _, _, later⟩ := (haltOf_bind _ _ _ _).1 later
    · exact absurd now (write_ne_missing _ fun reason => nofun)
    · exact nomatch later
  | var name initializer =>
    obtain now | ⟨a, m', ok, later⟩ := (haltOf_bind _ _ _ _).1 h
    · exact .inside .initializer now
    · obtain ⟨m'', defined⟩ := define_ok name a m'
      rw [bind_of_ok defined] at later
      exact nomatch later
  | block body => exact .inside .block ((haltOf_within _ _ _).symm.trans h)
  | branch condition thenBranch elseBranch =>
    obtain now | ⟨a, m', ok, later⟩ := (haltOf_bind _ _ _ _).1 h
    · exact .inside .condition now
    · rw [← apply_ite (execute steps)] at later
      exact .inside (.branch ok) later
  | loop condition body =>
    obtain now | ⟨a, m', ok, later⟩ := (haltOf_bind _ _ _ _).1 h
    · exact .inside .loopCondition now
    by_cases truthy : a.isTruthy = true
    · rw [if_pos truthy] at later
      obtain now | ⟨flow, m'', ok', later⟩ := (haltOf_bind _ _ _ _).1 later
      · exact .inside (.loopBody ok truthy) now
      -- A loop that goes on is the same loop, with one step less.
      cases flow with
      | normal => exact .inside (.loopAgain ok truthy ok') later
      | returned v => exact nomatch later
    · rw [if_neg truthy] at later
      exact nomatch later
  | function name params body =>
    obtain now | ⟨f, m', _, later⟩ := (haltOf_bind _ _ _ _).1 h
    · exact nomatch now
    · obtain ⟨m'', defined⟩ := define_ok name f m'
      rw [bind_of_ok defined] at later
      exact nomatch later
  | ret keyword value =>
    obtain now | ⟨a, m', ok, later⟩ := (haltOf_bind _ _ _ _).1 h
    · exact .inside .returned now
    · exact nomatch later
  | absent => exact nomatch h

/-- The same for the statements of a body. -/
theorem misses_of_executeAll {statements : List Stmt}
    (h : haltOf (executeAll (steps + 1) statements m) = some (.missing line x)) :
    Misses steps m (.missing line x) (.body statements) := by
  cases statements with
  | nil => exact nomatch h
  | cons s rest =>
    obtain now | ⟨flow, m', ok, later⟩ := (haltOf_bind _ _ _ _).1 h
    · exact .inside .statement now
    cases flow with
    | normal => exact .inside (.body ok) later
    | returned v => exact nomatch later

/-- **A task that halts for want of a variable** has read or assigned it, or has
performed a task that halts for the same reason. -/
theorem misses_of_halt? {t : Task} (h : t.halt? (steps + 1) m = some (.missing line x)) :
    Misses steps m (.missing line x) t := by
  cases t with
  | expression e => exact misses_of_evaluate h
  | arguments es => exact misses_of_evaluateAll h
  | call callee paren given => exact misses_of_call h
  | statement s => exact misses_of_execute h
  | body statements => exact misses_of_executeAll h

end Cases

/-- **A missing variable was visited**: by a read, or by an assignment whose value
was evaluated. -/
theorem exists_visit_of_missing {line : Nat} {x : String} :
    ∀ {steps : Nat} {t : Task} {m : Machine}, t.halt? steps m = some (.missing line x) →
      (∃ k id name m', Visits steps t m (k + 1) (.expression (.var id name)) m'
        ∧ haltOf (Eval.lookup id name m') = some (.missing line x))
      ∨ ∃ k id name e m' v m'', Visits steps t m (k + 1) (.expression (.assign id name e)) m'
        ∧ evaluate k e m' = .ok v m'' ∧ haltOf (Eval.assign id name v m'') = some (.missing line x)
  | 0, t, m, h => by
    cases t <;> exact nomatch h
  | steps + 1, t, m, h => by
    cases misses_of_halt? h with
    | inside spawns later =>
      rcases exists_visit_of_missing later with ⟨k, id, name, m', visits, missed⟩ |
        ⟨k, id, name, e, m', v, m'', visits, evaluated, missed⟩
      · exact .inl ⟨k, id, name, m', .deeper spawns visits, missed⟩
      · exact .inr ⟨k, id, name, e, m', v, m'', .deeper spawns visits, evaluated, missed⟩
    | read missed => exact .inl ⟨steps, _, _, m, .here, missed⟩
    | assigned evaluated missed => exact .inr ⟨steps, _, _, _, m, _, _, .here, evaluated, missed⟩

/-! ## Tasks in their place -/

/-- **A task that stands where the legend says it does.** The machine is like one
that evaluates by name; only that there is such a machine matters. -/
inductive Ready (L : Legend) (m : Machine) : Task → Prop where
  | expression {w : Placement} {n : Lexical.Machine} {e : Expr} {Γ : Context}
    {hidden : Option String} {env : Lexical.Env} :
    Alike L w m n → Standpoint m.store w Γ hidden m.current env → L.Covers (e.sites Γ hidden) →
    Ready L m (.expression e)
  | arguments {w : Placement} {n : Lexical.Machine} {es : List Expr} {Γ : Context}
    {hidden : Option String} {env : Lexical.Env} :
    Alike L w m n → Standpoint m.store w Γ hidden m.current env →
    L.Covers (argumentSites Γ hidden es) → Ready L m (.arguments es)
  | call {w : Placement} {n : Lexical.Machine} {f : Value} {f' : Lexical.Value} {paren : Token}
    {vs : List Value} {vs' : List Lexical.Value} :
    Alike L w m n → Like L m.store w f f' → LikeAll L m.store w vs vs' →
    Ready L m (.call f paren vs)
  | statement {w : Placement} {n : Lexical.Machine} {s : Stmt} {Γ : Context}
    {scope : Option Lexical.Env} :
    Alike L w m n → Running m.store w Γ m.current scope → s.Known L Γ → Ready L m (.statement s)
  | body {w : Placement} {n : Lexical.Machine} {statements : List Stmt} {Γ : Context}
    {scope : Option Lexical.Env} :
    Alike L w m n → Running m.store w Γ m.current scope → BodyKnown L Γ statements →
    Ready L m (.body statements)

/-- What is known after an evaluation that yields a result. -/
theorem Ends.of_ok {L : Legend} {own : Option FrameRef} {m m' : Machine} {w : Placement}
    {α β : Type} {post : Store Value → Placement → α → β → Prop} {a : α}
    {r : EStateM.Result Halt Machine α} {r' : EStateM.Result Halt Lexical.Machine β}
    (h : Ends L own m w post r r') (ok : r = .ok a m') :
    ∃ w' n' b, Alike L w' m' n' ∧ Grows own m.store w m'.store w' ∧ m'.current = m.current
      ∧ post m'.store w' a b := by
  subst ok
  cases h with
  | ok alike grows current related => exact ⟨_, _, _, alike, grows, current, related⟩

namespace Ready

variable {L : Legend} {m m' : Machine} {steps : Nat}

/-- After one expression, another one at the same standpoint. -/
theorem expression_after {w : Placement} {n : Lexical.Machine} {e e' : Expr} {Γ : Context}
    {hidden : Option String} {env : Lexical.Env} {a : Value} (alike : Alike L w m n)
    (stands : Standpoint m.store w Γ hidden m.current env) (covered : L.Covers (e.sites Γ hidden))
    (ok : evaluate steps e m = .ok a m') (covered' : L.Covers (e'.sites Γ hidden)) :
    Ready L m' (.expression e') := by
  obtain ⟨w', n', _, alike', grows, current, _⟩ :=
    ((simulates L steps).evaluate alike stands covered).of_ok ok
  exact .expression alike' (current ▸ stands.mono grows) covered'

/-- After the condition of a statement, a part of the statement. -/
theorem statement_after {w : Placement} {n : Lexical.Machine} {e : Expr} {s : Stmt} {Γ : Context}
    {scope : Option Lexical.Env} {a : Value} (alike : Alike L w m n)
    (running : Running m.store w Γ m.current scope) (covered : L.Covers (e.sites Γ none))
    (ok : evaluate steps e m = .ok a m') (known : s.Known L Γ) : Ready L m' (.statement s) := by
  obtain ⟨w', n', _, alike', grows, current, _⟩ :=
    ((simulates L steps).evaluate alike running.standpoint covered).of_ok ok
  exact .statement alike' (current ▸ running.mono grows) known

/-- The initializer of a variable, which has a cell already if it is local. -/
theorem initializer {w : Placement} {n : Lexical.Machine} {name : Token} {e : Expr} {Γ : Context}
    {scope : Option Lexical.Env} (alike : Alike L w m n)
    (running : Running m.store w Γ m.current scope)
    (covered : L.Covers ((Stmt.var name e).sites Γ)) : Ready L m (.expression e) := by
  rw [Stmt.sites] at covered
  generalize hcur : m.current = current at running
  cases running with
  | atTop =>
    have chain : Chain m.store w [] m.current [] := ⟨hcur, rfl⟩
    exact .expression alike (.settled chain) covered
  | @inFrame names outer f rest hf hcount hcells hrest =>
    have reserved := alike.reserve hf (Nat.le_of_eq (hcount.trans hcells.symm))
    have stands := Standpoint.reserve (.inFrame hf hcount hcells hrest) name.lexeme n.cells.size
    exact .expression reserved (hcur ▸ stands) covered

section Spawn

variable {w : Placement} {n : Lexical.Machine} {t' : Task}

/-- **What an expression performs stands where the legend says.** -/
theorem spawn_expression {e : Expr} {Γ : Context} {hidden : Option String} {env : Lexical.Env}
    (alike : Alike L w m n) (stands : Standpoint m.store w Γ hidden m.current env)
    (covered : L.Covers (e.sites Γ hidden)) (spawns : Spawns steps (.expression e) m t' m') :
    Ready L m' t' := by
  cases spawns with
  | inner | operand =>
    simp only [Expr.sites_group, Expr.sites_unary] at covered
    exact .expression alike stands covered
  | left | first | test | assigned | callee =>
    simp only [Expr.sites_binary, Expr.sites_logical, Expr.sites_conditional,
      Expr.sites_assign, Expr.sites_call, Legend.covers_append] at covered
    exact .expression alike stands covered.1
  | right ok | second ok =>
    simp only [Expr.sites_binary, Expr.sites_logical, Legend.covers_append] at covered
    exact expression_after alike stands covered.1 ok covered.2
  | choice ok =>
    rw [Expr.sites_conditional, Legend.covers_append, Legend.covers_append] at covered
    refine expression_after alike stands covered.1 ok ?_
    split
    · exact covered.2.1
    · exact covered.2.2
  | given ok =>
    rw [Expr.sites_call, Legend.covers_append] at covered
    obtain ⟨w', n', _, alike', grows, current, _⟩ :=
      ((simulates L steps).evaluate alike stands covered.1).of_ok ok
    exact .arguments alike' (current ▸ stands.mono grows) covered.2
  | call ok ok' =>
    rw [Expr.sites_call, Legend.covers_append] at covered
    obtain ⟨w', n', _, alike', grows, current, like⟩ :=
      ((simulates L steps).evaluate alike stands covered.1).of_ok ok
    -- The callee was evaluated before the arguments, and is still what it was.
    obtain ⟨w'', n'', _, alike'', grows', _, likes⟩ :=
      ((simulates L steps).evaluateAll alike' (current ▸ stands.mono grows) covered.2).of_ok ok'
    exact .call alike'' (like.mono grows') likes

/-- The same for arguments, the later of which find the frames that the earlier ones
left. -/
theorem spawn_arguments {es : List Expr} {Γ : Context} {hidden : Option String}
    {env : Lexical.Env} (alike : Alike L w m n)
    (stands : Standpoint m.store w Γ hidden m.current env)
    (covered : L.Covers (argumentSites Γ hidden es))
    (spawns : Spawns steps (.arguments es) m t' m') : Ready L m' t' := by
  cases spawns with
  | argument =>
    rw [Expr.argumentSites_cons, Legend.covers_append] at covered
    exact .expression alike stands covered.1
  | arguments ok =>
    rw [Expr.argumentSites_cons, Legend.covers_append] at covered
    obtain ⟨w', n', _, alike', grows, current, _⟩ :=
      ((simulates L steps).evaluate alike stands covered.1).of_ok ok
    exact .arguments alike' (current ▸ stands.mono grows) covered.2

/-- The body of a function stands in the new frame. -/
theorem spawn_call {f : Value} {f' : Lexical.Value} {paren : Token} {vs : List Value}
    {vs' : List Lexical.Value} (alike : Alike L w m n) (like : Like L m.store w f f')
    (likes : LikeAll L m.store w vs vs') (spawns : Spawns steps (.call f paren vs) m t' m') :
    Ready L m' t' := by
  cases spawns with
  | callBody fits =>
    cases like with
    | @closure _ _ params _ _ _ _ chain known =>
      have values : vs.length = (params.map Token.lexeme).reverse.length := by
        rw [List.length_reverse, List.length_map]
        exact fits
      obtain ⟨w', _, alike', running⟩ := alike.enter likes chain values
      exact .body alike' running known

/-- The same for a statement. A block and a body have a frame of their own. -/
theorem spawn_statement {s : Stmt} {Γ : Context} {scope : Option Lexical.Env}
    (alike : Alike L w m n) (running : Running m.store w Γ m.current scope) (known : s.Known L Γ)
    (spawns : Spawns steps (.statement s) m t' m') : Ready L m' t' := by
  have covered := known.covered
  have placed := known.placed
  cases spawns with
  | expression | printed | returned => exact .expression alike running.standpoint covered
  | initializer => exact initializer alike running covered
  | block =>
    obtain ⟨w', _, alike', running'⟩ := alike.enterBlock running.chain
    exact .body alike' running' ⟨placed, covered⟩
  | condition | loopCondition =>
    exact .expression alike running.standpoint (Legend.covers_append.1 covered).1
  | branch ok =>
    obtain ⟨⟨hthen, placed₁⟩, _, placed₂⟩ := placed
    rw [Stmt.sites, Legend.covers_append, Legend.covers_append,
      Stmt.extend_of_placed placed₁ _ hthen] at covered
    refine statement_after alike running covered.1 ok ?_
    split
    · exact ⟨placed₁, covered.2.1⟩
    · exact ⟨placed₂, covered.2.2⟩
  | loopBody ok _ =>
    have covered := Legend.covers_append.1 covered
    exact statement_after alike running covered.1 ok ⟨placed.2, covered.2⟩
  | loopAgain ok _ ok' =>
    have covered := Legend.covers_append.1 covered
    obtain ⟨w', n', _, alike', grows, current, _⟩ :=
      ((simulates L steps).evaluate alike running.standpoint covered.1).of_ok ok
    obtain ⟨w'', n'', _, alike'', _, current', flows⟩ :=
      ((simulates L steps).execute alike' (current ▸ running.mono grows)
        ⟨placed.2, covered.2⟩).of_ok ok'
    -- The body of a loop declares nothing, so the loop is where it was.
    rw [Stmt.extend_of_placed placed.2 _ placed.1] at flows
    cases flows with
    | normal running => exact .statement alike'' (current' ▸ running) known

/-- The same for the statements of a body, each behind the declarations of those before
it. -/
theorem spawn_body {statements : List Stmt} {Γ : Context} {scope : Option Lexical.Env}
    (alike : Alike L w m n) (running : Running m.store w Γ m.current scope)
    (known : BodyKnown L Γ statements) (spawns : Spawns steps (.body statements) m t' m') :
    Ready L m' t' := by
  cases spawns with
  | statement => exact .statement alike running known.head
  | body ok =>
    obtain ⟨w', n', _, alike', _, current, flows⟩ :=
      ((simulates L steps).execute alike running known.head).of_ok ok
    cases flows with
    | normal running => exact .body alike' (current ▸ running) known.tail

end Spawn

/-- **What a task performs stands where the legend says it does.** -/
theorem spawn {t t' : Task} (ready : Ready L m t) (spawns : Spawns steps t m t' m') :
    Ready L m' t' := by
  cases ready with
  | expression alike stands covered => exact spawn_expression alike stands covered spawns
  | arguments alike stands covered => exact spawn_arguments alike stands covered spawns
  | call alike like likes => exact spawn_call alike like likes spawns
  | statement alike running known => exact spawn_statement alike running known spawns
  | body alike running known => exact spawn_body alike running known spawns

end Ready

end Kix
