import Kix.Proofs.Identities
import Kix.Proofs.RootedMachines

/-!
# Frames only grow

Evaluation makes of a rooted machine another one, whose store has grown, however it ends
(`thriving`). The induction has to carry along what is on its way from one evaluation to the next:
a function that was yielded or returned, and is in no frame yet, was made in a frame that exists.

It follows that the store of a session grows from one moment to every later one, and that its
chains of parents end (`frames_only_grow`). A function may rely on the addresses in its body
whenever it is called.
-/

namespace Kix

open Eval

/-! ## Evaluations -/

/-- **An evaluation that lets frames grow**: whatever it does to the machine, it leaves what the
machine can become, and what it yields is all right among the frames that there are then. -/
inductive Thrives {α : Type} (Fits : Nat → α → Prop) (m : Machine) :
    EStateM.Result Halt Machine α → Prop where
  | ok {a : α} {m' : Machine} (becomes : m.Becomes m') (fits : Fits m'.store.next a) :
      Thrives Fits m (.ok a m')
  | error {halt : Halt} {m' : Machine} (becomes : m.Becomes m') : Thrives Fits m (.error halt m')

namespace Thrives

variable {α β : Type} {Fits : Nat → α → Prop} {Fits' : Nat → β → Prop} {m m' : Machine}

/-- However it ends, the machine has become what is left. -/
theorem becomes {r : EStateM.Result Halt Machine α} (h : Thrives Fits m r) :
    m.Becomes (left r) := by
  cases h with
  | ok becomes | error becomes => exact becomes

/-- A result fits among the frames that there are then. -/
theorem of_ok {x : Eval α} {a : α} (h : Thrives Fits m (x m)) (ok : x m = .ok a m') :
    m.Becomes m' ∧ Fits m'.store.next a := by
  rw [ok] at h
  cases h with
  | ok becomes fits => exact ⟨becomes, fits⟩

/-- What went before is taken along. -/
theorem after {r : EStateM.Result Halt Machine α} (before : m.Becomes m') (h : Thrives Fits m' r) :
    Thrives Fits m r := by
  cases h with
  | ok becomes fits => exact .ok (before.trans becomes) fits
  | error becomes => exact .error (before.trans becomes)

/-- A result without an effect. -/
theorem pure {a : α} (rooted : m.Rooted) (fits : Fits m.store.next a) :
    Thrives Fits m ((Pure.pure a : Eval α) m) :=
  .ok rooted.becomes fits

theorem throw (rooted : m.Rooted) (halt : Halt) :
    Thrives Fits m ((MonadExcept.throw halt : Eval α) m) :=
  .error rooted.becomes

/-- A fault changes nothing. -/
theorem faultAt (rooted : m.Rooted) (t : Token) (problem : Problem) :
    Thrives Fits m (Eval.faultAt (α := α) t problem m) :=
  .error rooted.becomes

/-- **One evaluation after another**: the second finds a rooted machine, and what the first one has
yielded. -/
theorem bind {x : Eval α} {k : α → Eval β} (first : Thrives Fits m (x m))
    (next : ∀ a m', m.Becomes m' → Fits m'.store.next a → Thrives Fits' m' (k a m')) :
    Thrives Fits' m ((x >>= k) m) := by
  cases h : x m with
  | ok a m' =>
    rw [h] at first
    rw [bind_of_ok h]
    cases first with
    | ok becomes fits => exact (next a m' becomes fits).after becomes
  | error halt m' =>
    rw [h] at first
    rw [bind_of_error h]
    exact .error first.becomes

/-- Whichever branch is taken. -/
theorem ite {x y : Eval α} {p : Prop} [Decidable p] (h : Thrives Fits m (x m))
    (h' : Thrives Fits m (y m)) : Thrives Fits m ((if p then x else y) m) := by
  by_cases hp : p
  · rw [if_pos hp]
    exact h
  · rw [if_neg hp]
    exact h'

/-- **Running in a new frame**, and coming back to the frame that was current. -/
theorem within {x : Eval α} {frame : Frame Value} (rooted : m.Rooted)
    (entered : m.Becomes (m.enter frame))
    (inside : Thrives Fits (m.enter frame) (x (m.enter frame))) :
    Thrives Fits m (Eval.within frame x m) := by
  cases h : x (m.enter frame) with
  | ok a m' =>
    rw [h] at inside
    rw [within_of_ok h]
    cases inside with
    | ok becomes fits => exact .ok ((entered.trans becomes).leave rooted.current) fits
  | error halt m' =>
    rw [h] at inside
    rw [within_of_error h]
    exact .error ((entered.trans inside.becomes).leave rooted.current)

end Thrives

/-! ### Single operations -/

section Operations

variable {m : Machine} (rooted : m.Rooted)

/-- An operator in front of an operand makes no function. -/
theorem Operator.among_unary {kind : Kind} {a r : Value} (h : Operator.unary kind a = .ok r)
    (n : Nat) : r.Among n := by
  unfold Operator.unary at h
  repeat' split at h
  all_goals cases h <;> trivial

/-- Arithmetic makes no function. -/
theorem Operator.among_arithmetic {kind : Kind} {operate : Float → Float → Value}
    (h : Operator.arithmetic? kind = some operate) (a b : Float) (n : Nat) :
    (operate a b).Among n := by
  cases kind <;> cases h <;> trivial

/-- Adding makes numbers and strings. -/
theorem Operator.among_plus {a b r : Value} (h : Operator.plus a b = .ok r) (n : Nat) :
    r.Among n := by
  unfold Operator.plus at h
  split at h <;> cases h <;> trivial

/-- No operator makes a function. -/
theorem Operator.among_binary {kind : Kind} {a b r : Value} (h : Operator.binary kind a b = .ok r)
    (n : Nat) : r.Among n := by
  unfold Operator.binary at h
  split at h
  · exact Operator.among_plus h n
  · cases h
    trivial
  · cases h
    trivial
  · split at h
    · next operates =>
      cases h
      exact Operator.among_arithmetic operates _ _ n
    · cases h
    · cases h

include rooted

theorem thrives_ofOperator (operator : Token) {r : Except Problem Value}
    (among : ∀ value, r = .ok value → value.Among m.store.next) :
    Thrives Value.Among m (ofOperator operator r m) := by
  cases r with
  | ok value => exact .pure rooted (among value rfl)
  | error problem => exact .faultAt rooted operator problem

/-- Writing adds no frame. -/
theorem thrives_write (text : String) (report : String → Report) :
    Thrives (fun _ _ => True) m (write text report m) := by
  unfold write
  by_cases fits : m.out.fits text = true
  · rw [if_pos fits]
    exact .ok (rooted.of_eq rfl rfl rfl) trivial
  · rw [if_neg fits]
    exact .error (rooted.of_eq rfl rfl rfl)

/-- Defining a variable appends to the current frame, or sets a global one. -/
theorem thrives_define (name : Token) {value : Value} (among : value.Among m.store.next) :
    Thrives (fun _ _ => True) m (define name value m) := by
  unfold define
  split
  · next f current => exact .ok (rooted.define (rooted.current f current) among) trivial
  · exact .ok (rooted.insertGlobal name.lexeme among) trivial

/-- **What is looked up was stored**, so it refers to frames that there are. -/
theorem thrives_lookup (id : OccurrenceId) (name : Token) :
    Thrives Value.Among m (lookup id name m) := by
  unfold lookup
  split
  · split
    · next found =>
      obtain ⟨f, -, found⟩ := Option.bind_eq_some_iff.1 found
      obtain ⟨g, -, found⟩ := Option.bind_eq_some_iff.1 found
      exact .ok rooted.becomes (rooted.slots g _ _ found)
    · exact .error rooted.becomes
  · split
    · next found => exact .ok rooted.becomes (rooted.globals _ _ found)
    · exact .error rooted.becomes

/-- Assigning to a variable changes a slot that is there. -/
theorem thrives_assign (id : OccurrenceId) (name : Token) {value : Value}
    (among : value.Among m.store.next) : Thrives (fun _ _ => True) m (assign id name value m) := by
  unfold assign
  split
  · split
    · exact .ok (rooted.set _ _ among) trivial
    · exact .error rooted.becomes
  · split
    · exact .ok (rooted.insertGlobal _ among) trivial
    · exact .error rooted.becomes

/-- **A function refers to the frame that it is made in**, which is one of those there
are. -/
theorem thrives_close (name : Token) (params : List Token) (body : List Stmt) :
    Thrives Value.Among m (close name params body m) :=
  .ok (rooted.of_eq rfl rfl rfl) fun scope mem => rooted.current scope mem

theorem thrives_checkCall (callee : Value) (paren : Token) (given : Nat) :
    Thrives (fun _ _ => True) m (checkCall callee paren given m) := by
  unfold checkCall
  cases callee.arity? with
  | none => exact .faultAt rooted paren .notCallable
  | some arity => exact .ite (.pure rooted trivial) (.faultAt rooted paren _)

/-- Built-in functions make no frame and no function. -/
theorem thrives_callNative (native : Native) (paren : Token) (given : List Value) :
    Thrives Value.Among m (callNative native paren given m) := by
  match native, given with
  | .clock, _ =>
    have read : Thrives (fun _ _ => True) m (readClock m) := .ok (rooted.of_eq rfl rfl rfl) trivial
    exact read.bind fun _ _ becomes _ => .pure becomes.rooted trivial
  | .print, [] | .println, [] => exact .pure rooted trivial
  | .print, value :: _ | .println, value :: _ =>
    exact (thrives_write rooted _ _).bind fun _ _ becomes _ => .pure becomes.rooted trivial

end Operations

/-! ### Whole evaluations -/

/-- **Evaluation with a number of steps lets frames grow.** -/
structure Thriving (steps : Nat) : Prop where
  evaluate : ∀ (e : Expr) (m : Machine), m.Rooted → Thrives Value.Among m (evaluate steps e m)
  evaluateAll : ∀ (es : List Expr) (m : Machine), m.Rooted →
    Thrives (fun n values => ∀ value ∈ values, value.Among n) m (evaluateAll steps es m)
  call : ∀ (callee : Value) (paren : Token) (given : List Value) (m : Machine), m.Rooted →
    callee.Among m.store.next → (∀ value ∈ given, value.Among m.store.next) →
    Thrives Value.Among m (call steps callee paren given m)
  execute : ∀ (s : Stmt) (m : Machine), m.Rooted → Thrives Flow.Among m (execute steps s m)
  executeAll : ∀ (body : List Stmt) (m : Machine), m.Rooted →
    Thrives Flow.Among m (executeAll steps body m)

namespace Thriving

variable {steps : Nat} (h : Thriving steps) {m : Machine} (rooted : m.Rooted)

include h rooted

/-- **Evaluating an expression with one step more**, by its cases. -/
theorem evaluate_succ (e : Expr) : Thrives Value.Among m (Kix.evaluate (steps + 1) e m) := by
  cases e with
  | literal value => exact .pure rooted (Value.among_ofLiteral _ value)
  | absent => exact .pure (a := Value.nil) rooted trivial
  | group inner => exact h.evaluate inner m rooted
  | unary operator operand =>
    refine (h.evaluate operand m rooted).bind fun a m' becomes _ => ?_
    exact thrives_ofOperator becomes.rooted operator fun _ ok => Operator.among_unary ok _
  | binary left operator right =>
    refine (h.evaluate left m rooted).bind fun a m₁ becomes₁ _ => ?_
    refine (h.evaluate right m₁ becomes₁.rooted).bind fun b m₂ becomes₂ _ => ?_
    exact thrives_ofOperator becomes₂.rooted operator fun _ ok => Operator.among_binary ok _
  | logical left operator right =>
    refine (h.evaluate left m rooted).bind fun a m' becomes among => ?_
    exact .ite (.pure becomes.rooted among) (h.evaluate right m' becomes.rooted)
  | conditional condition thenBranch elseBranch =>
    refine (h.evaluate condition m rooted).bind fun a m' becomes _ => ?_
    exact .ite (h.evaluate thenBranch m' becomes.rooted) (h.evaluate elseBranch m' becomes.rooted)
  | var id name => exact thrives_lookup rooted id name
  | assign id name value =>
    refine (h.evaluate value m rooted).bind fun a m₁ becomes₁ among => ?_
    refine (thrives_assign becomes₁.rooted id name among).bind fun _ m₂ becomes₂ _ => ?_
    exact .pure becomes₂.rooted (among.mono becomes₂.grows.next_le)
  | call callee paren arguments =>
    refine (h.evaluate callee m rooted).bind fun f m₁ becomes₁ among => ?_
    refine (h.evaluateAll arguments m₁ becomes₁.rooted).bind fun given m₂ becomes₂ all => ?_
    exact h.call f paren given m₂ becomes₂.rooted (among.mono becomes₂.grows.next_le) all

/-- Evaluating expressions one after the other: the first values still fit behind the
last. -/
theorem evaluateAll_succ (es : List Expr) :
    Thrives (fun n values => ∀ value ∈ values, value.Among n) m
      (Kix.evaluateAll (steps + 1) es m) := by
  cases es with
  | nil => exact .pure (a := ([] : List Value)) rooted fun _ mem => by cases mem
  | cons e rest =>
    refine (h.evaluate e m rooted).bind fun value m₁ becomes₁ among => ?_
    refine (h.evaluateAll rest m₁ becomes₁.rooted).bind fun others m₂ becomes₂ all => ?_
    refine .pure becomes₂.rooted fun v mem => ?_
    rcases List.mem_cons.1 mem with rfl | mem
    · exact among.mono becomes₂.grows.next_le
    · exact all v mem

/-- **Calling a value.** The new frame hangs on the one that the function was made in. -/
theorem call_succ {callee : Value} (paren : Token) {given : List Value}
    (among : callee.Among m.store.next) (all : ∀ value ∈ given, value.Among m.store.next) :
    Thrives Value.Among m (Kix.call (steps + 1) callee paren given m) := by
  refine (thrives_checkCall rooted callee paren given.length).bind fun _ m' becomes _ => ?_
  replace among := among.mono becomes.grows.next_le
  replace all := fun value mem => (all value mem).mono becomes.grows.next_le
  cases callee with
  | native native => exact thrives_callNative becomes.rooted native paren given
  | closure f =>
    have entered := becomes.rooted.enterCall among all
    refine (Thrives.within becomes.rooted entered
      (h.executeAll f.body _ entered.rooted)).bind fun flow m'' becomes' among' => ?_
    cases flow with
    | returned value => exact .pure becomes'.rooted among'
    | normal => exact .pure (a := Value.nil) becomes'.rooted trivial
  | _ => exact .faultAt becomes.rooted paren .notCallable

/-- **Executing a statement with one step more**, by its cases. -/
theorem execute_succ (s : Stmt) : Thrives Flow.Among m (Kix.execute (steps + 1) s m) := by
  cases s with
  | expression value =>
    exact (h.evaluate value m rooted).bind fun _ _ becomes _ =>
      .pure (a := Flow.normal) becomes.rooted trivial
  | print value =>
    refine (h.evaluate value m rooted).bind fun a m₁ becomes₁ _ => ?_
    exact (thrives_write becomes₁.rooted _ _).bind fun _ _ becomes₂ _ =>
      .pure (a := Flow.normal) becomes₂.rooted trivial
  | var name initializer =>
    refine (h.evaluate initializer m rooted).bind fun value m₁ becomes₁ among => ?_
    exact (thrives_define becomes₁.rooted name among).bind fun _ _ becomes₂ _ =>
      .pure (a := Flow.normal) becomes₂.rooted trivial
  | block body =>
    have entered := rooted.enterBlock
    exact Thrives.within rooted entered (h.executeAll body _ entered.rooted)
  | branch condition thenBranch elseBranch =>
    refine (h.evaluate condition m rooted).bind fun a m' becomes _ => ?_
    exact .ite (h.execute thenBranch m' becomes.rooted) (h.execute elseBranch m' becomes.rooted)
  | loop condition body =>
    refine (h.evaluate condition m rooted).bind fun a m₁ becomes₁ _ => ?_
    refine .ite ?_ (.pure (a := Flow.normal) becomes₁.rooted trivial)
    refine (h.execute body m₁ becomes₁.rooted).bind fun flow m₂ becomes₂ among => ?_
    cases flow with
    | normal => exact h.execute (.loop condition body) m₂ becomes₂.rooted
    | returned value => exact .pure (a := Flow.returned value) becomes₂.rooted among
  | function name params body =>
    refine (thrives_close rooted name params body).bind fun f m₁ becomes₁ among => ?_
    exact (thrives_define becomes₁.rooted name among).bind fun _ _ becomes₂ _ =>
      .pure (a := Flow.normal) becomes₂.rooted trivial
  | ret keyword value =>
    exact (h.evaluate value m rooted).bind fun a _ becomes among =>
      .pure (a := Flow.returned a) becomes.rooted among
  | absent => exact .pure (a := Flow.normal) rooted trivial

/-- Executing statements up to the first that returns. -/
theorem executeAll_succ (body : List Stmt) :
    Thrives Flow.Among m (Kix.executeAll (steps + 1) body m) := by
  cases body with
  | nil => exact .pure (a := Flow.normal) rooted trivial
  | cons s rest =>
    refine (h.execute s m rooted).bind fun flow m' becomes among => ?_
    cases flow with
    | normal => exact h.executeAll rest m' becomes.rooted
    | returned value => exact .pure (a := Flow.returned value) becomes.rooted among

end Thriving

/-- **Evaluation lets frames grow**, whatever the number of steps. -/
theorem thriving (steps : Nat) : Thriving steps := by
  induction steps with
  | zero =>
    exact ⟨fun _ _ rooted => .throw rooted _, fun _ _ rooted => .throw rooted _,
      fun _ _ _ _ rooted _ _ => .throw rooted _, fun _ _ rooted => .throw rooted _,
      fun _ _ rooted => .throw rooted _⟩
  | succ steps h =>
    exact ⟨fun e _ rooted => h.evaluate_succ rooted e,
      fun es _ rooted => h.evaluateAll_succ rooted es,
      fun _ paren _ _ rooted among all => h.call_succ rooted paren among all,
      fun s _ rooted => h.execute_succ rooted s,
      fun body _ rooted => h.executeAll_succ rooted body⟩

/-! ### On the way -/

/-- The values that a task is about are all right among `n` frames. -/
def Task.Among (n : Nat) : Task → Prop
  | .call callee _ given => callee.Among n ∧ ∀ value ∈ given, value.Among n
  | _ => True

section Tasks

variable {steps steps' : Nat} {t t' : Task} {m m' : Machine}

/-- **What a task performs finds a machine that has grown.** -/
theorem Spawns.becomes (spawns : Spawns steps t m t' m') (rooted : m.Rooted)
    (among : t.Among m.store.next) : m.Becomes m' ∧ t'.Among m'.store.next := by
  have thrives := thriving steps
  cases spawns with
  | inner | operand | left | first | test | assigned | callee | argument | expression | printed
  | initializer | condition | loopCondition | returned | statement =>
    exact ⟨rooted.becomes, trivial⟩
  | right ok | second ok | choice ok | given ok | arguments ok | branch ok | loopBody ok =>
    exact ⟨((thrives.evaluate _ m rooted).of_ok ok).1, trivial⟩
  | call ok ok' =>
    obtain ⟨becomes, callee⟩ := (thrives.evaluate _ m rooted).of_ok ok
    obtain ⟨becomes', given⟩ := (thrives.evaluateAll _ _ becomes.rooted).of_ok ok'
    exact ⟨becomes.trans becomes', callee.mono becomes'.grows.next_le, given⟩
  | callBody => exact ⟨rooted.enterCall among.1 among.2, trivial⟩
  | block => exact ⟨rooted.enterBlock, trivial⟩
  | loopAgain ok _ ok' =>
    have becomes := ((thrives.evaluate _ m rooted).of_ok ok).1
    exact ⟨becomes.trans ((thrives.execute _ _ becomes.rooted).of_ok ok').1, trivial⟩
  | body ok => exact ⟨((thrives.execute _ m rooted).of_ok ok).1, trivial⟩

/-- Frames have only grown up to any task inside of an evaluation. -/
theorem Visits.becomes (visits : Visits steps t m steps' t' m') (rooted : m.Rooted)
    (among : t.Among m.store.next) : m.Becomes m' := by
  induction visits with
  | here => exact rooted.becomes
  | deeper spawns _ ih =>
    obtain ⟨becomes, among⟩ := spawns.becomes rooted among
    exact becomes.trans (ih becomes.rooted among)

end Tasks

/-! ## Sessions -/

/-- A run grows the store, and comes back to the global scope. -/
theorem Machine.Rooted.becomes_run? {m m' : Machine} (rooted : m.Rooted) {steps : Nat}
    {program : Program} {report : Option Report} (ran : m.run? steps program = some (report, m')) :
    m.Becomes m' := by
  have becomes := ((thriving steps).executeAll program m rooted).becomes
  unfold Machine.run? at ran
  dsimp only at ran
  split at ran
  · next ok =>
    rw [ok] at becomes
    cases ran
    exact becomes.leave fun _ mem => by cases mem
  · next error =>
    rw [error] at becomes
    cases ran
    exact becomes.leave fun _ mem => by cases mem
  · cases ran

namespace Session

variable {s s' : Session} (rooted : s.machine.Rooted)

include rooted

theorem becomes_compile (source : String) :
    s.machine.Becomes (s.compile source).2.machine := by
  cases unit : (s.compile source).1 with
  | none =>
    rw [(of_compile_eq_none (Prod.ext unit rfl)).1]
    exact rooted.becomes
  | some program =>
    rw [(compiled_of_compile (Prod.ext unit rfl)).machine_eq]
    exact rooted.of_eq rfl rfl rfl

/-- An execution leaves through the frames that it has made. -/
theorem becomes_execute? {steps : Nat} {program : Program}
    (executed : s.execute? steps program = some s') : s.machine.Becomes s'.machine := by
  obtain ⟨⟨report, m⟩, ran, rfl⟩ := Option.map_eq_some_iff.1 executed
  exact rooted.becomes_run? ran

end Session

namespace History

variable {h h' : History} (rooted : h.session.machine.Rooted)

include rooted

/-- **One operation on a session.** -/
theorem becomes_perform {operation : Operation} (performed : h.perform? operation = some h') :
    h.session.machine.Becomes h'.session.machine := by
  cases operation with
  | compile source =>
    cases performed
    exact Session.becomes_compile rooted source
  | run source steps =>
    obtain ⟨s, ran, rfl⟩ := Option.map_eq_some_iff.1 performed
    have compiled := Session.becomes_compile rooted source
    unfold Session.run? at ran
    split at ran
    · next same =>
      rw [same] at compiled
      exact compiled.trans (Session.becomes_execute? compiled.rooted ran)
    · next same =>
      rw [same] at compiled
      cases ran
      exact compiled
  | execute unit steps =>
    obtain ⟨program, -, result⟩ := Option.bind_eq_some_iff.1 performed
    obtain ⟨s, executed, rfl⟩ := Option.map_eq_some_iff.1 result
    exact Session.becomes_execute? rooted executed
  | reset =>
    cases performed
    exact rooted.becomes

/-- **Any number of operations**, one after the other. -/
theorem becomes_performAll {operations : List Operation}
    (performed : h.performAll? operations = some h') :
    h.session.machine.Becomes h'.session.machine := by
  induction operations generalizing h with
  | nil =>
    cases performed
    exact rooted.becomes
  | cons operation rest ih =>
    obtain ⟨h₁, first, later⟩ := Option.bind_eq_some_iff.1 performed
    have becomes := becomes_perform rooted first
    exact becomes.trans (ih becomes.rooted later)

/-- **At every later moment of a session** the store has grown. -/
theorem Moment.becomes {m : Machine} (moment : h.Moment m) : h.session.machine.Becomes m := by
  cases moment with
  | between performed => exact becomes_performAll rooted performed
  | during performed _ visits =>
    have becomes := becomes_performAll rooted performed
    exact becomes.trans (visits.becomes becomes.rooted trivial)

end History

/-- **A machine as it is later on**: behind the execution of a statement or the evaluation of an
expression, however that ended, or at some moment in the rest of a session. -/
inductive Machine.Later (m : Machine) : Machine → Prop where
  | executed (steps : Nat) (s : Stmt) : Later m (left (execute steps s m))
  | evaluated (steps : Nat) (e : Expr) : Later m (left (evaluate steps e m))
  | moment {h : History} {m' : Machine} (now : h.session.machine = m) (moment : h.Moment m') :
      Later m m'

/-- Whatever comes later comes by one of these. -/
theorem Machine.Later.becomes {m m' : Machine} (later : m.Later m') (rooted : m.Rooted) :
    m.Becomes m' := by
  cases later with
  | executed steps s => exact ((thriving steps).execute s m rooted).becomes
  | evaluated steps e => exact ((thriving steps).evaluate e m rooted).becomes
  | moment now moment =>
    subst now
    exact moment.becomes rooted

/-- **Frames only grow.** From a rooted machine on, whatever is executed or evaluated, and for as
long as the session goes on:

* every frame is still there, with the parent that it had and with as many values or more;
* every frame that was made in the meantime has an older parent or none;
* every address that led to a value leads to one, from whatever frame it is followed;
* every chain of parents ends, and meets no frame twice;
* the machine is rooted again. -/
theorem frames_only_grow {m m' : Machine} (rooted : m.Rooted) (later : m.Later m') :
    m.store.next ≤ m'.store.next
    ∧ (∀ f < m.store.next, m'.store.parent? f = m.store.parent? f
        ∧ m.store.count f ≤ m'.store.count f)
    ∧ (∀ f parent, m.store.next ≤ f → m'.store.parent? f = some parent → parent < f)
    ∧ (∀ f distance slot, (m.store.getAt? f distance slot).isSome →
        (m'.store.getAt? f distance slot).isSome)
    ∧ (∀ f, ∃ chain, m'.store.Chain f chain ∧ chain.Nodup)
    ∧ m'.Rooted := by
  obtain ⟨rooted', grows⟩ := later.becomes rooted
  refine ⟨grows.next_le, fun f there => ⟨grows.parent?_eq f there, grows.count_le f there⟩,
    fun f parent _ found => rooted'.older f parent found,
    fun f distance slot found => grows.isSome_getAt? found, fun f => ?_, rooted'⟩
  obtain ⟨chain, leads⟩ := Store.exists_chain rooted'.older f
  exact ⟨chain, leads, (leads.pairwise rooted'.older).imp Nat.ne_of_gt⟩

/-- A function that is declared in a block is held by the frame that it was made in. What the frame
holds can be found ever after, also behind a call of the function, which makes two more frames. -/
theorem frames_only_grow_capturing_frame :
    let f : Token := .onLine 1 .identifier "f"
    let block := (({} : Machine).extend [(0, ⟨0, 0⟩)]).enter {}
    let m := left (execute 1 (.function f [] [.block []]) block)
    let call : Expr := .call (.var 0 f) f []
    m.Rooted ∧ m.Later (left (evaluate 5 call m))
      ∧ (m.store.getAt? 0 0 0).isSome = true
      ∧ ((left (evaluate 5 call m)).store.getAt? 0 0 0).isSome = true := by
  intro f block m call
  have fresh := Machine.rooted_fresh {} fun _ => 0
  have addressed : Machine.Becomes _ (({} : Machine).extend [(0, ⟨0, 0⟩)]) :=
    fresh.of_eq rfl rfl rfl
  have entered := addressed.rooted.enterBlock
  have rooted : m.Rooted := ((thriving 1).execute _ block entered.rooted).becomes.rooted
  have later : m.Later (left (evaluate 5 call m)) := .evaluated 5 call
  have found : (m.store.getAt? 0 0 0).isSome = true := rfl
  exact ⟨rooted, later, found, (frames_only_grow rooted later).2.2.2.1 0 0 0 found⟩

end Kix
