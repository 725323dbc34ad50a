import Kix.Proofs.Relabeling
import Kix.Proofs.Simulation

/-!
# Running relabeled programs

Evaluation looks an identity up in the table of addresses and puts a line into a
report; it does nothing else with either. So a relabeled program, run on a machine
whose values are relabeled and whose table is relabeled too, does what the program
does on the machine (`Machine.run?_relabeled`): it takes the same number of steps,
writes the same output, and ends with the relabeled report and a machine that is
again the relabeled one (`Machine.Relabeled`).

The argument is compositional. `Eval.Carries` says of two evaluations that they go from
relabeled machines to relabeled machines; it holds of the single operations, it passes
through sequencing and through frames, and so, by induction on the number of steps, it
holds of expressions, calls and statements (`carries`).
-/

namespace Kix

variable (ρ : Relabeling)

/-! ## Stores -/

/-- A frame with its values relabeled. Its parent stays. -/
def Frame.relabel (frame : Frame Value) : Frame Value :=
  { frame with values := frame.values.map (Value.relabel ρ) }

/-- An entry changed before or after a map, for changes that commute with it. -/
theorem map_modify {α β : Type} {g : α → β} {change : α → α} {change' : β → β}
    (commutes : ∀ a, change' (g a) = g (change a)) (entries : Array α) (i : Nat) :
    (entries.map g).modify i change' = (entries.modify i change).map g := by
  refine Array.ext_getElem? fun j => ?_
  rw [Array.getElem?_modify, Array.getElem?_map, Array.getElem?_map, Array.getElem?_modify]
  by_cases same : i = j
  · rw [if_pos same, if_pos same, Option.map_map, Option.map_map]
    congr 1
    funext a
    exact commutes a
  · rw [if_neg same, if_neg same]

namespace Store

/-- The store with all its values relabeled. -/
def relabel (σ : Store Value) : Store Value := ⟨σ.frames.map (Frame.relabel ρ)⟩

variable (σ : Store Value) (f : FrameRef)

/-- A frame of the relabeled store is the relabeled frame. -/
theorem frames_relabel : (σ.relabel ρ).frames[f]? = (σ.frames[f]?).map (Frame.relabel ρ) :=
  Array.getElem?_map

theorem next_relabel : (σ.relabel ρ).next = σ.next := Array.size_map

/-- Allocating a relabeled frame. -/
theorem allocate_relabel (frame : Frame Value) :
    (σ.relabel ρ).allocate (frame.relabel ρ) = (σ.allocate frame).relabel ρ :=
  congrArg Store.mk Array.map_push.symm

/-- The parents of frames are as before. -/
theorem parent?_relabel : (σ.relabel ρ).parent? f = σ.parent? f := by
  unfold parent?
  rw [frames_relabel]
  cases σ.frames[f]? <;> rfl

/-- The frames hold as many values as before. -/
theorem count_relabel : (σ.relabel ρ).count f = σ.count f := by
  unfold count
  rw [frames_relabel]
  cases σ.frames[f]? with
  | none => rfl
  | some frame => exact Array.size_map

/-- A slot holds the relabeled value. -/
theorem get?_relabel (slot : Nat) :
    (σ.relabel ρ).get? f slot = (σ.get? f slot).map (Value.relabel ρ) := by
  unfold get?
  rw [frames_relabel]
  cases σ.frames[f]? with
  | none => rfl
  | some frame => exact Array.getElem?_map

/-- Going out by some frames leads to the same frame. -/
theorem ancestor?_relabel (distance : Nat) :
    (σ.relabel ρ).ancestor? f distance = σ.ancestor? f distance := by
  induction distance generalizing f with
  | zero => rfl
  | succ distance ih =>
    unfold ancestor?
    rw [parent?_relabel]
    cases σ.parent? f with
    | none => rfl
    | some parent => exact ih parent

/-- At an address there is the relabeled value. -/
theorem getAt?_relabel (distance slot : Nat) :
    (σ.relabel ρ).getAt? f distance slot
      = (σ.getAt? f distance slot).map (Value.relabel ρ) := by
  unfold getAt?
  rw [ancestor?_relabel]
  cases σ.ancestor? f distance with
  | none => rfl
  | some g => exact get?_relabel ρ σ g slot

/-- The frame at an address is the same, or there is none on both sides. -/
theorem frameAt?_relabel (distance slot : Nat) :
    (σ.relabel ρ).frameAt? f distance slot = σ.frameAt? f distance slot := by
  unfold frameAt?
  rw [ancestor?_relabel]
  simp only [count_relabel]

/-- Defining a relabeled value. -/
theorem define_relabel (value : Value) :
    (σ.relabel ρ).define f (value.relabel ρ) = (σ.define f value).relabel ρ := by
  unfold define relabel
  rw [map_modify fun frame => ?_]
  show Frame.mk _ _ = Frame.mk _ _
  rw [Array.map_push]
  rfl

/-- Assigning a relabeled value. -/
theorem set_relabel (slot : Nat) (value : Value) :
    (σ.relabel ρ).set f slot (value.relabel ρ) = (σ.set f slot value).relabel ρ := by
  unfold set relabel
  rw [map_modify fun frame => ?_]
  show Frame.mk _ _ = Frame.mk ((frame.values.modify slot fun _ => value).map _) _
  congr 1
  apply map_modify
  intro _
  rfl

end Store

/-! ## Machines and outcomes -/

/-- **The second machine is the first one relabeled.** Its table says of a relabeled
identity what the other table says of the identity. -/
structure Machine.Relabeled (m m' : Machine) : Prop where
  globals : ∀ name : String, m'.globals[name]? = (m.globals[name]?).map (Value.relabel ρ)
  store : m'.store = m.store.relabel ρ
  current : m'.current = m.current
  addresses : ∀ id : OccurrenceId, m'.addresses[ρ.id id]? = m.addresses[id]?
  nextClosure : m'.nextClosure = m.nextClosure
  out : m'.out = m.out
  clock : m'.clock = m.clock
  readings : m'.readings = m.readings

/-- Why an evaluation stopped, with the place of the report relabeled. -/
def Halt.relabel : Halt → Halt
  | .fault report => .fault (report.relabel ρ)
  | .exhausted => .exhausted

/-- How a statement ended, with the value that it returns relabeled. -/
def Flow.relabel : Flow → Flow
  | .normal => .normal
  | .returned value => .returned (value.relabel ρ)

/-- **The second evaluation ended as the first one did**, relabeled. -/
inductive Eval.Carried {α β : Type} (f : α → β) :
    EStateM.Result Halt Machine α → EStateM.Result Halt Machine β → Prop where
  | ok {a : α} {m m' : Machine} :
    Machine.Relabeled ρ m m' → Carried f (.ok a m) (.ok (f a) m')
  | error {halt : Halt} {m m' : Machine} :
    Machine.Relabeled ρ m m' → Carried f (.error halt m) (.error (halt.relabel ρ) m')

/-- **Relabeling passes through two evaluations**: from a relabeled machine the second
ends as the first one does, relabeled. -/
def Eval.Carries {α β : Type} (f : α → β) (x : Eval α) (y : Eval β) : Prop :=
  ∀ ⦃m m' : Machine⦄, m.Relabeled ρ m' → Carried ρ f (x m) (y m')

/-! ## Values under operators -/

namespace Value

variable (v w : Value)

@[simp] theorem isTruthy_relabel : (v.relabel ρ).isTruthy = v.isTruthy := by
  cases v <;> rfl

@[simp] theorem display_relabel : (v.relabel ρ).display = v.display := by
  cases v <;> rfl

@[simp] theorem arity?_relabel : (v.relabel ρ).arity? = v.arity? := by
  cases v with
  | closure c => exact congrArg some (List.length_map _)
  | _ => rfl

@[simp] theorem equals_relabel : (v.relabel ρ).equals (w.relabel ρ) = v.equals w := by
  cases v <;> cases w <;> rfl

/-- Only closures have code to relabel. -/
theorem relabel_of_ne_closure {v : Value} (h : ∀ c, v ≠ .closure c) : v.relabel ρ = v := by
  cases v with
  | closure c => exact absurd rfl (h c)
  | _ => rfl

end Value

namespace Operator

variable (kind : Kind) (v w : Value)

/-- Whether a value decides `and` or `or` is a matter of its truth. -/
theorem decides_relabel : decides kind (v.relabel ρ) = decides kind v := by
  unfold decides
  rw [Value.isTruthy_relabel]

/-- The operators in front of an operand do not look into functions. -/
theorem unary_relabel : unary kind (v.relabel ρ) = unary kind v := by
  cases kind with
  | bang =>
    show Except.ok (Value.bool (!(v.relabel ρ).isTruthy)) = Except.ok (Value.bool (!v.isTruthy))
    rw [Value.isTruthy_relabel]
  | minus => cases v <;> rfl
  | _ => rfl

/-- Adding does not look into functions. -/
theorem plus_relabel : plus (v.relabel ρ) (w.relabel ρ) = plus v w := by
  cases v <;> cases w <;> rfl

/-- **The operators between two operands do not look into functions.** -/
theorem binary_relabel : binary kind (v.relabel ρ) (w.relabel ρ) = binary kind v w := by
  unfold binary
  split
  · exact plus_relabel ρ v w
  · rw [Value.equals_relabel]
  · rw [Value.equals_relabel]
  · cases arithmetic? kind <;> cases v <;> cases w <;> rfl

end Operator

/-! ## Sequencing -/

namespace Eval

variable {ρ}
variable {α β γ δ : Type} {f : α → β} {g : γ → δ}

namespace Carries

/-- A result without an effect. -/
theorem pure (a : α) : Carries ρ f (Pure.pure a) (Pure.pure (f a)) :=
  fun _ _ relabeled => .ok relabeled

/-- A halt, with its report relabeled. -/
theorem throw (halt : Halt) :
    Carries ρ f (MonadExcept.throw halt) (MonadExcept.throw (halt.relabel ρ)) :=
  fun _ _ relabeled => .error relabeled

/-- A fault is reported at the relabeled token. -/
theorem faultAt (t : Token) (problem : Problem) :
    Carries ρ f (Eval.faultAt t problem) (Eval.faultAt (t.relabel ρ) problem) :=
  throw (.fault (.runtime t.line problem))

/-- **One evaluation after another.** -/
theorem bind {x : Eval α} {y : Eval β} {k : α → Eval γ} {k' : β → Eval δ}
    (first : Carries ρ f x y) (next : ∀ a, Carries ρ g (k a) (k' (f a))) :
    Carries ρ g (x >>= k) (y >>= k') := by
  intro m m' relabeled
  have ended := first relabeled
  generalize hx : x m = r, hy : y m' = r' at ended
  cases ended with
  | ok relabeled =>
    rw [bind_of_ok hx, bind_of_ok hy]
    exact next _ relabeled
  | error relabeled =>
    rw [bind_of_error hx, bind_of_error hy]
    exact .error relabeled

/-- Both sides take the same branch. -/
theorem ite {x x' : Eval α} {y y' : Eval β} {p q : Prop} [Decidable p] [Decidable q]
    (same : q ↔ p) (h : Carries ρ f x y) (h' : Carries ρ f x' y') :
    Carries ρ f (if p then x else x') (if q then y else y') := by
  by_cases hp : p
  · rw [if_pos hp, if_pos (same.2 hp)]
    exact h
  · rw [if_neg hp, if_neg (mt same.1 hp)]
    exact h'

/-- Running in a new frame. -/
theorem within {x : Eval α} {y : Eval β} (inside : Carries ρ f x y) (frame : Frame Value) :
    Carries ρ f (Eval.within frame x) (Eval.within (frame.relabel ρ) y) := by
  intro m m' relabeled
  have entered : Machine.Relabeled ρ
      { m with store := m.store.allocate frame, current := some m.store.next }
      { m' with store := m'.store.allocate (frame.relabel ρ), current := some m'.store.next } :=
    { relabeled with
      store := by rw [relabeled.store, Store.allocate_relabel]
      current := by rw [relabeled.store, Store.next_relabel] }
  have ended := inside entered
  unfold Eval.within
  dsimp only
  generalize x _ = r, y _ = r' at ended ⊢
  cases ended with
  | ok left => exact .ok { left with current := relabeled.current }
  | error left => exact .error { left with current := relabeled.current }

end Carries

/-! ## Single operations -/

variable (ρ)

theorem currentFrame_carries : Carries ρ id currentFrame currentFrame :=
  fun m _ relabeled => by
    show Carried ρ id (.ok m.current m) (.ok _ _)
    rw [relabeled.current]
    exact .ok relabeled

theorem readClock_carries : Carries ρ id readClock readClock :=
  fun m _ relabeled => by
    show Carried ρ id (.ok (m.clock m.readings) _) (.ok _ _)
    rw [relabeled.clock, relabeled.readings]
    exact .ok { relabeled with clock := rfl, readings := rfl }

/-- Writing fails for the same reason, and the report about it is relabeled. -/
theorem write_carries (text : String) {report report' : String → Report}
    (same : ∀ reason, report' reason = (report reason).relabel ρ) :
    Carries ρ id (write text report) (write text report') := by
  intro m m' relabeled
  unfold write
  rw [relabeled.out]
  by_cases fits : m.out.fits text = true
  · rw [if_pos fits, if_pos fits]
    exact .ok { relabeled with out := rfl }
  · rw [if_neg fits, if_neg fits, same]
    exact .error { relabeled with out := rfl }

/-- A global variable that is set to a relabeled value, among others that are relabeled. -/
theorem globals_insert {t t' : Std.HashMap String Value}
    (h : ∀ x : String, t'[x]? = (t[x]?).map (Value.relabel ρ)) (name : String) (value : Value)
    (x : String) :
    (t'.insert name (value.relabel ρ))[x]? = ((t.insert name value)[x]?).map (Value.relabel ρ) := by
  rw [Std.HashMap.getElem?_insert, Std.HashMap.getElem?_insert]
  by_cases same : (name == x) = true
  · rw [if_pos same, if_pos same]
    rfl
  · rw [if_neg same, if_neg same]
    exact h x

/-- Defining a variable, global or local. -/
theorem define_carries (name : Token) (value : Value) :
    Carries ρ id (define name value) (define (name.relabel ρ) (value.relabel ρ)) := by
  intro m m' relabeled
  unfold define
  rw [relabeled.current]
  cases current : m.current with
  | some frame =>
    exact .ok { relabeled with
      store := by rw [relabeled.store, Store.define_relabel]
      current := rfl }
  | none =>
    exact .ok { relabeled with
      globals := globals_insert ρ relabeled.globals name.lexeme value
      current := rfl }

/-- **Looking a variable up**: the address is filed under the relabeled number. -/
theorem lookup_carries (id : OccurrenceId) (name : Token) :
    Carries ρ (Value.relabel ρ) (lookup id name) (lookup (ρ.id id) (name.relabel ρ)) := by
  intro m m' relabeled
  unfold lookup
  rw [relabeled.addresses, Token.lexeme_relabel, relabeled.globals, relabeled.current,
    relabeled.store]
  cases m.addresses[id]? with
  | some a =>
    dsimp only
    have found : (m.current.bind fun frame =>
        (m.store.relabel ρ).getAt? frame a.distance a.slot)
        = (m.current.bind fun frame => m.store.getAt? frame a.distance a.slot).map
          (Value.relabel ρ) := by
      cases m.current with
      | none => rfl
      | some frame => exact Store.getAt?_relabel ρ m.store frame a.distance a.slot
    rw [found]
    cases m.current.bind fun frame => m.store.getAt? frame a.distance a.slot with
    | some value => exact .ok relabeled
    | none => exact .error relabeled
  | none =>
    dsimp only
    cases m.globals[name.lexeme]? with
    | some value => exact .ok relabeled
    | none => exact .error relabeled

/-- Assigning to a variable, which is looked up in the same way. -/
theorem assign_carries (occurrence : OccurrenceId) (name : Token) (value : Value) :
    Carries ρ id (assign occurrence name value)
      (assign (ρ.id occurrence) (name.relabel ρ) (value.relabel ρ)) := by
  intro m m' relabeled
  unfold assign
  rw [relabeled.addresses, relabeled.current, relabeled.store]
  cases m.addresses[occurrence]? with
  | some a =>
    dsimp only
    simp only [Store.frameAt?_relabel]
    cases m.current.bind fun frame => m.store.frameAt? frame a.distance a.slot with
    | some frame =>
      exact .ok { relabeled with
        store := Store.set_relabel ρ m.store frame a.slot value
        current := rfl }
    | none => exact .error relabeled
  | none =>
    dsimp only
    have known : m'.globals.contains name.lexeme = m.globals.contains name.lexeme := by
      rw [← Std.HashMap.isSome_getElem?_eq_contains, relabeled.globals, Option.isSome_map,
        Std.HashMap.isSome_getElem?_eq_contains]
    rw [Token.lexeme_relabel, known]
    by_cases present : m.globals.contains name.lexeme = true
    · rw [if_pos present, if_pos present]
      exact .ok { relabeled with
        globals := globals_insert ρ relabeled.globals name.lexeme value
        store := rfl
        current := rfl }
    · rw [if_neg present, if_neg present]
      exact .error relabeled

/-- A function is made with its parts relabeled and is numbered alike. -/
theorem close_carries (name : Token) (params : List Token) (body : List Stmt) :
    Carries ρ (Value.relabel ρ) (close name params body)
      (close (name.relabel ρ) (params.map (Token.relabel ρ)) (relabelBody ρ body)) := by
  intro m m' relabeled
  unfold close
  rw [relabeled.nextClosure, relabeled.current]
  exact .ok { relabeled with
    current := rfl
    nextClosure := rfl }

/-- The result of an operator, which is no function, is not relabeled. -/
theorem ofOperator_carries (operator : Token) {r : Except Problem Value}
    (h : ∀ v, r = .ok v → ∀ c, v ≠ .closure c) :
    Carries ρ (Value.relabel ρ) (ofOperator operator r) (ofOperator (operator.relabel ρ) r) := by
  cases r with
  | ok v =>
    have kept := Carries.pure (ρ := ρ) (f := Value.relabel ρ) v
    rw [Value.relabel_of_ne_closure ρ (h v rfl)] at kept
    exact kept
  | error problem => exact .faultAt operator problem

/-- Whether a value can be called with so many arguments does not depend on labels. -/
theorem checkCall_carries (callee : Value) (paren : Token) (given : Nat) :
    Carries ρ id (checkCall callee paren given)
      (checkCall (callee.relabel ρ) (paren.relabel ρ) given) := by
  unfold checkCall
  rw [Value.arity?_relabel]
  cases callee.arity? with
  | none => exact .faultAt paren .notCallable
  | some arity => exact .ite Iff.rfl (.pure ()) (.faultAt paren (.wrongArgumentCount arity given))

/-- Built-in functions see their arguments by what is displayed of them. -/
theorem callNative_carries (native : Native) (paren : Token) (given : List Value) :
    Carries ρ (Value.relabel ρ) (callNative native paren given)
      (callNative native (paren.relabel ρ) (given.map (Value.relabel ρ))) := by
  have printed {text text' : String} (same : text' = text) : Carries ρ (Value.relabel ρ)
      (do write text fun reason => .runtime paren.line (.other reason); return .nil)
      (do write text' fun reason => .runtime (paren.relabel ρ).line (.other reason)
          return .nil) := by
    rw [same]
    exact (write_carries ρ text fun _ => rfl).bind fun _ => .pure Value.nil
  match native, given with
  | .clock, _ =>
    exact (readClock_carries ρ).bind fun reading => .pure (Value.number (Float.ofNat reading))
  | .print, [] | .println, [] => exact .pure Value.nil
  | .print, value :: _ => exact printed (Value.display_relabel ρ value)
  | .println, value :: _ => exact printed (congrArg (· ++ "\n") (Value.display_relabel ρ value))

end Eval

/-! ## Evaluation -/

open Eval

/-- **Relabeling passes through evaluations** that are given a number of steps. -/
structure Carrying (steps : Nat) : Prop where
  evaluate : ∀ e : Expr,
    Carries ρ (Value.relabel ρ) (evaluate steps e) (evaluate steps (e.relabel ρ))
  evaluateAll : ∀ es : List Expr,
    Carries ρ (List.map (Value.relabel ρ)) (evaluateAll steps es)
      (evaluateAll steps (relabelArguments ρ es))
  call : ∀ (callee : Value) (paren : Token) (given : List Value),
    Carries ρ (Value.relabel ρ) (call steps callee paren given)
      (call steps (callee.relabel ρ) (paren.relabel ρ) (given.map (Value.relabel ρ)))
  execute : ∀ s : Stmt, Carries ρ (Flow.relabel ρ) (execute steps s) (execute steps (s.relabel ρ))
  executeAll : ∀ body : List Stmt,
    Carries ρ (Flow.relabel ρ) (executeAll steps body) (executeAll steps (relabelBody ρ body))

namespace Carrying

variable {ρ} {steps : Nat}

/-- **Evaluating an expression with one step more**, by its cases. -/
theorem evaluate_succ (h : Carrying ρ steps) (e : Expr) :
    Carries ρ (Value.relabel ρ) (Kix.evaluate (steps + 1) e)
      (Kix.evaluate (steps + 1) (e.relabel ρ)) := by
  cases e with
  | literal value =>
    rw [Expr.relabel]
    have kept := Carries.pure (ρ := ρ) (f := Value.relabel ρ) (.ofLiteral value)
    rw [Value.relabel_of_ne_closure ρ (Value.ofLiteral_ne_closure value)] at kept
    exact kept
  | absent =>
    rw [Expr.relabel]
    exact .pure Value.nil
  | group inner =>
    rw [Expr.relabel]
    exact h.evaluate inner
  | unary operator operand =>
    rw [Expr.relabel]
    refine (h.evaluate operand).bind fun value => ?_
    rw [Token.kind_relabel, Operator.unary_relabel]
    exact ofOperator_carries ρ operator fun _ => Operator.unary_ne_closure
  | binary left operator right =>
    rw [Expr.relabel]
    refine (h.evaluate left).bind fun a => (h.evaluate right).bind fun b => ?_
    rw [Token.kind_relabel, Operator.binary_relabel]
    exact ofOperator_carries ρ operator fun _ => Operator.binary_ne_closure
  | logical left operator right =>
    rw [Expr.relabel]
    refine (h.evaluate left).bind fun a => ?_
    rw [Token.kind_relabel, Operator.decides_relabel]
    exact .ite Iff.rfl (.pure a) (h.evaluate right)
  | conditional condition thenBranch elseBranch =>
    rw [Expr.relabel]
    refine (h.evaluate condition).bind fun a => ?_
    rw [Value.isTruthy_relabel]
    exact .ite Iff.rfl (h.evaluate thenBranch) (h.evaluate elseBranch)
  | var id name =>
    rw [Expr.relabel]
    exact lookup_carries ρ id name
  | assign id name value =>
    rw [Expr.relabel]
    exact (h.evaluate value).bind fun a => (assign_carries ρ id name a).bind fun _ => .pure a
  | call callee paren arguments =>
    rw [Expr.relabel]
    exact (h.evaluate callee).bind fun f => (h.evaluateAll arguments).bind fun given =>
      h.call f paren given

theorem evaluateAll_succ (h : Carrying ρ steps) (es : List Expr) :
    Carries ρ (List.map (Value.relabel ρ)) (Kix.evaluateAll (steps + 1) es)
      (Kix.evaluateAll (steps + 1) (relabelArguments ρ es)) := by
  cases es with
  | nil => exact .pure []
  | cons e rest =>
    rw [relabelArguments]
    exact (h.evaluate e).bind fun value => (h.evaluateAll rest).bind fun others =>
      .pure (value :: others)

/-- Calling a value: the body of a function is executed in a new frame. -/
theorem call_succ (h : Carrying ρ steps) (callee : Value) (paren : Token) (given : List Value) :
    Carries ρ (Value.relabel ρ) (Kix.call (steps + 1) callee paren given)
      (Kix.call (steps + 1) (callee.relabel ρ) (paren.relabel ρ)
        (given.map (Value.relabel ρ))) := by
  have checked := checkCall_carries ρ callee paren given.length
  unfold Kix.call
  rw [List.length_map]
  refine checked.bind fun _ => ?_
  cases callee with
  | native native => exact callNative_carries ρ native paren given
  | closure f =>
    have ran := (h.executeAll f.body).within ⟨given.toArray, f.scope⟩
    rw [show Frame.relabel ρ ⟨given.toArray, f.scope⟩
      = ⟨(given.map (Value.relabel ρ)).toArray, f.scope⟩ by
        rw [Frame.relabel, List.map_toArray]] at ran
    refine ran.bind fun flow => ?_
    cases flow with
    | returned value => exact .pure value
    | normal => exact .pure Value.nil
  | _ => exact .faultAt paren .notCallable

/-- **Executing a statement with one step more**, by its cases. -/
theorem execute_succ (h : Carrying ρ steps) (s : Stmt) :
    Carries ρ (Flow.relabel ρ) (Kix.execute (steps + 1) s)
      (Kix.execute (steps + 1) (s.relabel ρ)) := by
  cases s with
  | expression value =>
    rw [Stmt.relabel]
    exact (h.evaluate value).bind fun _ => .pure Flow.normal
  | print value =>
    rw [Stmt.relabel]
    refine (h.evaluate value).bind fun a => ?_
    rw [Value.display_relabel]
    exact (write_carries ρ _ fun _ => rfl).bind fun _ => .pure Flow.normal
  | var name initializer =>
    rw [Stmt.relabel]
    exact (h.evaluate initializer).bind fun value => (define_carries ρ name value).bind fun _ =>
      .pure Flow.normal
  | block body =>
    rw [Stmt.relabel]
    refine (currentFrame_carries ρ).bind fun parent => ?_
    have ran := (h.executeAll body).within { parent }
    rw [Frame.relabel, Array.map_empty] at ran
    exact ran
  | branch condition thenBranch elseBranch =>
    rw [Stmt.relabel]
    refine (h.evaluate condition).bind fun a => ?_
    rw [Value.isTruthy_relabel]
    exact .ite Iff.rfl (h.execute thenBranch) (h.execute elseBranch)
  | loop condition body =>
    have again := h.execute (.loop condition body)
    rw [Stmt.relabel] at again ⊢
    refine (h.evaluate condition).bind fun a => ?_
    rw [Value.isTruthy_relabel]
    refine .ite Iff.rfl ((h.execute body).bind fun flow => ?_) (.pure Flow.normal)
    cases flow with
    | normal => exact again
    | returned value => exact .pure (Flow.returned value)
  | function name params body =>
    rw [Stmt.relabel]
    exact (close_carries ρ name params body).bind fun f => (define_carries ρ name f).bind fun _ =>
      .pure Flow.normal
  | ret keyword value =>
    rw [Stmt.relabel]
    exact (h.evaluate value).bind fun a => .pure (Flow.returned a)
  | absent =>
    rw [Stmt.relabel]
    exact .pure Flow.normal

/-- Executing statements up to the first that returns. -/
theorem executeAll_succ (h : Carrying ρ steps) (body : List Stmt) :
    Carries ρ (Flow.relabel ρ) (Kix.executeAll (steps + 1) body)
      (Kix.executeAll (steps + 1) (relabelBody ρ body)) := by
  cases body with
  | nil => exact .pure Flow.normal
  | cons s rest =>
    rw [relabelBody]
    refine (h.execute s).bind fun flow => ?_
    cases flow with
    | normal => exact h.executeAll rest
    | returned value => exact .pure (Flow.returned value)

end Carrying

/-- **Relabeling passes through all evaluations.** -/
theorem carrying (steps : Nat) : Carrying ρ steps := by
  induction steps with
  | zero =>
    exact ⟨fun _ => .throw .exhausted, fun _ => .throw .exhausted, fun _ _ _ => .throw .exhausted,
      fun _ => .throw .exhausted, fun _ => .throw .exhausted⟩
  | succ steps ih =>
    exact ⟨ih.evaluate_succ, ih.evaluateAll_succ, ih.call_succ, ih.execute_succ,
      ih.executeAll_succ⟩

/-- **Running a relabeled program** on the relabeled machine. -/
theorem Machine.run?_relabeled {m m' : Machine} (relabeled : m.Relabeled ρ m') (steps : Nat)
    (program : Program) :
    Option.Rel (fun r r' => r'.1 = r.1.map (Report.relabel ρ) ∧ r.2.Relabeled ρ r'.2)
      (m.run? steps program) (m'.run? steps (relabelBody ρ program)) := by
  have ended := (carrying ρ steps).executeAll program relabeled
  unfold Machine.run?
  generalize executeAll steps program m = r, executeAll steps _ m' = r' at ended ⊢
  cases ended with
  | ok left =>
    refine .some ⟨?_, { left with current := rfl }⟩
    show _ = Option.map _ (Option.map _ _)
    rw [left.out, Option.map_map]
    rfl
  | @error halt _ _ left =>
    cases halt with
    | fault report => exact .some ⟨rfl, { left with current := rfl }⟩
    | exhausted => exact .none

/-! ## Fresh machines -/

/-- The built-in functions are global variables that no relabeling changes. -/
theorem relabel_natives (fs : List Native) {t : Std.HashMap String Value}
    (h : ∀ x : String, t[x]? = (t[x]?).map (Value.relabel ρ)) (x : String) :
    (t.insertMany (fs.map fun f => (f.name, Value.native f)))[x]?
      = ((t.insertMany (fs.map fun f => (f.name, Value.native f)))[x]?).map (Value.relabel ρ) := by
  induction fs generalizing t with
  | nil =>
    rw [List.map_nil, Std.HashMap.insertMany_nil]
    exact h x
  | cons f rest ih =>
    rw [List.map_cons, Std.HashMap.insertMany_cons]
    exact ih (globals_insert ρ h f.name (.native f))

/-- A machine that has run nothing has no code to relabel. -/
theorem Machine.relabeled_fresh (out : Sink) (clock : Nat → Nat) {table table' : AddressTable}
    (h : ∀ id : OccurrenceId, table'[ρ.id id]? = table[id]?) :
    Machine.Relabeled ρ { addresses := table, out, clock }
      { addresses := table', out, clock } where
  globals := by
    rw [Std.HashMap.ofList_eq_insertMany_empty]
    refine relabel_natives ρ Native.all fun x => ?_
    rw [Std.HashMap.getElem?_empty]
    rfl
  store := congrArg Store.mk Array.map_empty.symm
  current := rfl
  addresses := h
  nextClosure := rfl
  out := rfl
  clock := rfl
  readings := rfl

end Kix
