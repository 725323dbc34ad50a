import Kix.Proofs.Correspondence

/-!
# Running with addresses is evaluating by name

From machines that are alike, an evaluation with addresses and one by name take
the same steps: both yield like results on machines that are alike again, or
both halt for the same reason (`Ends`). This is proved for expressions,
arguments, calls, statements and bodies together, by induction on the number of
steps that evaluation is given (`simulates`), one lemma for each form of
expression and statement.

So it is also a statement about termination: with the same number of steps both
come to an end or neither does.
-/

namespace Kix

open Lexical (CellRef Env)

variable {L : Legend} {own : Option FrameRef} {w : Placement} {m : Machine} {n : Lexical.Machine}

/-! ## Sequencing -/

section Sequencing

variable {ε σ α β : Type} {x : EStateM ε σ α} {s s' : σ}

/-- What follows a result goes on with it. -/
theorem bind_of_ok {a : α} (h : x s = .ok a s') (k : α → EStateM ε σ β) :
    (x >>= k) s = k a s' := by
  show EStateM.bind x k s = k a s'
  unfold EStateM.bind
  rw [h]

/-- Nothing follows an error. -/
theorem bind_of_error {e : ε} (h : x s = .error e s') (k : α → EStateM ε σ β) :
    (x >>= k) s = .error e s' := by
  show EStateM.bind x k s = .error e s'
  unfold EStateM.bind
  rw [h]

end Sequencing

/-! ## Ends of evaluations -/

/-- **Two evaluations end alike.** If they yield results, frames have only grown
since the start, the current frame is the one from the start, and the results
are related as required. -/
inductive Ends (L : Legend) (own : Option FrameRef) (m : Machine) (w : Placement) {α β : Type}
    (post : Store Value → Placement → α → β → Prop) :
    EStateM.Result Halt Machine α → EStateM.Result Halt Lexical.Machine β → Prop where
  | ok {a : α} {b : β} {m' : Machine} {n' : Lexical.Machine} {w' : Placement} :
    Alike L w' m' n' → Grows own m.store w m'.store w' → m'.current = m.current →
    post m'.store w' a b → Ends L own m w post (.ok a m') (.ok b n')
  | halted {halt : Halt} {m' : Machine} {n' : Lexical.Machine} {w' : Placement} :
    Alike L w' m' n' → Ends L own m w post (.error halt m') (.error halt n')

namespace Ends

variable {α β γ δ : Type} {post : Store Value → Placement → α → β → Prop}
  {post' : Store Value → Placement → γ → δ → Prop}

/-- What ends alike later ends alike from the start. -/
theorem since {m' : Machine} {w' : Placement} {r : EStateM.Result Halt Machine α}
    {r' : EStateM.Result Halt Lexical.Machine β} (h : Ends L own m' w' post r r')
    (grows : Grows own m.store w m'.store w') (current : m'.current = m.current) :
    Ends L own m w post r r' := by
  cases h with
  | ok alike grows' current' related =>
    exact .ok alike (grows.trans grows') (current'.trans current) related
  | halted alike => exact .halted alike

/-- **One evaluation after another.** -/
theorem bind {x : Eval α} {y : Lexical.Eval β} {k : α → Eval γ} {k' : β → Lexical.Eval δ}
    (first : Ends L own m w post (x m) (y n))
    (next : ∀ {a : α} {b : β} {m' : Machine} {n' : Lexical.Machine} {w' : Placement},
      Alike L w' m' n' → Grows own m.store w m'.store w' → m'.current = m.current →
      post m'.store w' a b → Ends L own m' w' post' (k a m') (k' b n')) :
    Ends L own m w post' ((x >>= k) m) ((y >>= k') n) := by
  generalize hx : x m = r, hy : y n = r' at first
  cases first with
  | ok alike grows current related =>
    rw [bind_of_ok hx, bind_of_ok hy]
    exact (next alike grows current related).since grows current
  | halted alike =>
    rw [bind_of_error hx, bind_of_error hy]
    exact .halted alike

/-- A statement goes on after evaluating an expression, which changes no frame
that was there before. -/
theorem bindInner {x : Eval α} {y : Lexical.Eval β} {k : α → Eval γ} {k' : β → Lexical.Eval δ}
    (first : Ends L none m w post (x m) (y n))
    (next : ∀ {a : α} {b : β} {m' : Machine} {n' : Lexical.Machine} {w' : Placement},
      Alike L w' m' n' → Grows none m.store w m'.store w' → m'.current = m.current →
      post m'.store w' a b → Ends L own m' w' post' (k a m') (k' b n')) :
    Ends L own m w post' ((x >>= k) m) ((y >>= k') n) := by
  have strong : Ends L own m w
      (fun σ' w' a b => Grows none m.store w σ' w' ∧ post σ' w' a b) (x m) (y n) := by
    generalize x m = r, y n = r' at first ⊢
    cases first with
    | ok alike grows current related => exact .ok alike (grows.weaken own) current ⟨grows, related⟩
    | halted alike => exact .halted alike
  exact strong.bind fun alike _ current related => next alike related.1 current related.2

/-- Nothing was done. -/
theorem pure (alike : Alike L w m n) {a : α} {b : β} (related : post m.store w a b) :
    Ends L own m w post (.ok a m) (.ok b n) :=
  .ok alike (.refl _ _ _) rfl related

/-- Running in a new frame. What happens to that frame is of no account
outside. -/
theorem within {frame : Frame Value} {run : Eval α} {w' : Placement}
    {r' : EStateM.Result Halt Lexical.Machine β}
    (grows : Grows none m.store w (m.enter frame).store w')
    (inside : Ends L (m.enter frame).current (m.enter frame) w' post (run (m.enter frame)) r') :
    Ends L none m w post (Eval.within frame run m) r' := by
  unfold Eval.within
  dsimp only
  rw [show ({ m with store := m.store.allocate frame, current := some m.store.next } : Machine)
    = m.enter frame from rfl]
  generalize run (m.enter frame) = r at inside ⊢
  cases inside with
  | ok alike grows' _ related =>
    refine .ok (alike.at_frame _) (grows.transFrom grows' fun f hf => .inr ?_) rfl related
    exact Nat.le_of_eq (Option.some.inj hf)
  | halted alike => exact .halted (alike.at_frame _)

end Ends

/-! ## Single operations -/

section Operations

variable {Γ : Context} {hidden : Option String} {env : Env}

/-- The result of an operator, which is no closure, and is therefore the same on both
sides. -/
theorem ofOperator_ends (alike : Alike L w m n) (operator : Token) {r : Except Problem Value}
    (h : ∀ v, r = .ok v → ∀ c, v ≠ .closure c) :
    Ends L own m w (Like L) (Eval.ofOperator operator r m)
      (Lexical.Eval.ofOperator operator r n) := by
  cases r with
  | ok v => exact .pure alike (.ofFace (h v rfl))
  | error problem => exact .halted alike

/-- Writing the same text to the same output. -/
theorem write_ends (alike : Alike L w m n) (text : String) (report : String → Report) :
    Ends L own m w (fun _ _ _ _ => True) (Eval.write text report m)
      (Lexical.Eval.write text report n) := by
  unfold Eval.write Lexical.Eval.write
  by_cases fits : m.out.fits text
  · rw [if_pos fits, if_pos (alike.out ▸ fits)]
    exact .ok (alike.put text) (.refl _ _ _) rfl trivial
  · have reason : n.out.writeFault = m.out.writeFault := congrArg Sink.writeFault alike.out
    rw [if_neg fits, if_neg (alike.out ▸ fits), reason]
    exact .halted (alike.put text)

/-- **Looking a variable up**: by its address on one side and by its name on the other. From
a standpoint both lead to the same variable. -/
theorem lookup_ends (alike : Alike L w m n) (stands : Standpoint m.store w Γ hidden m.current env)
    {id : OccurrenceId} {name : Token} (known : Site.Known L ⟨⟨id, name, true⟩, Γ, hidden⟩) :
    Ends L own m w (Like L) (Eval.lookup id name m) (Lexical.Eval.lookup env name n) := by
  have address : m.addresses[id]? = Γ.locate name.lexeme :=
    (alike.addresses id).trans known.address
  have found := stands.find name.lexeme
  unfold Eval.lookup Lexical.Eval.lookup
  rw [address]
  generalize Γ.locate name.lexeme = address?, env.lookup name.lexeme = cell? at found ⊢
  cases found with
  | nowhere =>
    have global := alike.globals name.lexeme
    dsimp only
    generalize m.globals[name.lexeme]? = v?, n.globals[name.lexeme]? = v'? at global ⊢
    cases global with
    | none => exact .halted alike
    | some like => exact .pure alike like
  | @slot a g c reached cell _ =>
    have content := alike.contents cell
    dsimp only
    rw [Store.bind_getAt? reached]
    generalize m.store.get? g a.slot = v?, n.cells[c]?.join = v'? at content ⊢
    cases content with
    | none => exact .halted alike
    | some like => exact .pure alike like

/-- **Assigning to a variable**, which is found in the same two ways. The slot and the cell
that are changed belong together. -/
theorem assign_ends (alike : Alike L w m n) (stands : Standpoint m.store w Γ hidden m.current env)
    {id : OccurrenceId} {name : Token} (known : Site.Known L ⟨⟨id, name, false⟩, Γ, hidden⟩)
    {v : Value} {v' : Lexical.Value} (like : Like L m.store w v v') :
    Ends L none m w (fun _ _ _ _ => True) (Eval.assign id name v m)
      (Lexical.Eval.assign env name v' n) := by
  have address : m.addresses[id]? = Γ.locate name.lexeme :=
    (alike.addresses id).trans known.address
  have found := stands.find name.lexeme
  unfold Eval.assign Lexical.Eval.assign
  rw [address]
  generalize Γ.locate name.lexeme = address?, env.lookup name.lexeme = cell? at found ⊢
  cases found with
  | nowhere =>
    have same : m.globals.contains name.lexeme = n.globals.contains name.lexeme := by
      rw [Std.HashMap.contains_eq_isSome_getElem?, Std.HashMap.contains_eq_isSome_getElem?]
      exact Like.rel_isSome (alike.globals name.lexeme)
    show Ends L none m w _
      (if m.globals.contains name.lexeme then
        .ok () { m with globals := m.globals.insert name.lexeme v }
      else .error (.fault (.runtime name.line (.undefinedGlobal name.lexeme))) m)
      (if n.globals.contains name.lexeme then
        .ok () { n with globals := n.globals.insert name.lexeme v' }
      else .error (.fault (.runtime name.line (.undefinedGlobal name.lexeme))) n)
    by_cases defined : m.globals.contains name.lexeme = true
    · rw [if_pos defined, if_pos (same ▸ defined)]
      exact .ok (alike.setGlobal _ like) (.refl _ _ _) rfl trivial
    · rw [if_neg defined, if_neg (same ▸ defined)]
      exact .halted alike
  | @slot a g c reached cell _ =>
    have content := Like.rel_isSome (alike.contents cell)
    dsimp only
    rw [Store.bind_frameAt? reached]
    by_cases filled : a.slot < m.store.count g
    · rw [(m.store.isSome_get?_iff g).2 filled] at content
      obtain ⟨old, hold⟩ := Option.isSome_iff_exists.1 content.symm
      rw [if_pos filled, hold]
      exact .ok (alike.set cell filled like) (.set _ _ _ _ _) rfl trivial
    · rw [m.store.get?_eq_none g (Nat.le_of_not_lt filled)] at content
      rw [if_neg filled, Option.isNone_iff_eq_none.1 (Option.isSome_eq_false_iff.1 content.symm)]
      exact .halted alike

/-- A value can be called on both sides or on neither, since like values take as many
arguments. -/
theorem checkCall_ends (alike : Alike L w m n) {f : Value} {f' : Lexical.Value}
    (like : Like L m.store w f f') (paren : Token) (given : Nat) :
    Ends L none m w (fun _ _ _ _ => f.arity? = some given) (Eval.checkCall f paren given m)
      (Lexical.Eval.checkCall f' paren given n) := by
  unfold Eval.checkCall Lexical.Eval.checkCall
  rw [like.arity?]
  cases f.arity? with
  | none => exact .halted alike
  | some arity =>
    by_cases fits : given = arity
    · subst fits
      show Ends L none m w _ ((if given = given then pure () else _ : Eval Unit) m)
        ((if given = given then pure () else _ : Lexical.Eval Unit) n)
      rw [if_pos rfl, if_pos rfl]
      exact .pure alike rfl
    · show Ends L none m w _ ((if given = arity then _ else _ : Eval Unit) m)
        ((if given = arity then _ else _ : Lexical.Eval Unit) n)
      rw [if_neg fits, if_neg fits]
      exact .halted alike

/-- A built-in function of like values. -/
theorem callNative_ends (alike : Alike L w m n) (f : Native) (paren : Token) {vs : List Value}
    {vs' : List Lexical.Value} (likes : LikeAll L m.store w vs vs') :
    Ends L none m w (Like L) (Eval.callNative f paren vs m)
      (Lexical.Eval.callNative f paren vs' n) := by
  -- the two functions that write their argument differ in the text only
  have written {text text' : String} (same : text' = text) :
      Ends L none m w (Like L)
        ((do
          Eval.write text fun reason => .runtime paren.line (.other reason)
          return Value.nil : Eval Value) m)
        ((do
          Lexical.Eval.write text' fun reason => .runtime paren.line (.other reason)
          return Lexical.Value.nil : Lexical.Eval Lexical.Value) n) := by
    subst same
    exact (write_ends alike _ _).bind fun alike _ _ _ => .pure alike .nil
  match f, vs, vs', likes with
  | .clock, _, _, _ =>
    have time : n.clock n.readings = m.clock m.readings := by rw [alike.clock, alike.readings]
    show Ends L none m w (Like L)
      (.ok (.number (Float.ofNat (m.clock m.readings))) { m with readings := m.readings + 1 })
      (.ok (.number (Float.ofNat (n.clock n.readings))) { n with readings := n.readings + 1 })
    rw [time]
    exact .ok alike.readClock (.refl _ _ _) rfl (.number _)
  | .print, [], [], _ | .println, [], [], _ => exact .pure alike .nil
  | .print, v :: _, v' :: _, likes => exact written likes.head.display
  | .println, v :: _, v' :: _, likes => exact written (congrArg (· ++ "\n") likes.head.display)
  | .print, [], _ :: _, likes | .print, _ :: _, [], likes
  | .println, [], _ :: _, likes | .println, _ :: _, [], likes => exact nomatch likes.length_eq

end Operations

/-! ## Expressions, statements and calls -/

/-- A body has come to its end, or to a `return`. -/
inductive Stops (L : Legend) (σ : Store Value) (w : Placement) : Flow → Lexical.Flow → Prop where
  | normal (scope : Option Env) : Stops L σ w .normal (.normal scope)
  | returned {v : Value} {v' : Lexical.Value} :
    Like L σ w v v' → Stops L σ w (.returned v) (.returned v')

/-- A statement has come to its end, with the next one to be executed in the given
context, or to a `return`. -/
inductive Flows (L : Legend) (Γ : Context) (current : Option FrameRef) (σ : Store Value)
    (w : Placement) : Flow → Lexical.Flow → Prop where
  | normal {scope : Option Env} :
    Running σ w Γ current scope → Flows L Γ current σ w .normal (.normal scope)
  | returned {v : Value} {v' : Lexical.Value} :
    Like L σ w v v' → Flows L Γ current σ w (.returned v) (.returned v')

/-- A new variable in the scope of a statement: the value comes from an
evaluation that may already use the cell of the variable. -/
theorem define_ends {names : List String} {outer : Context} {f : FrameRef} {env : Env}
    (alike : Alike L w m n) {x : Token} {cell : CellRef} {v : Value} {v' : Lexical.Value}
    (stands : Standpoint m.store w ((x.lexeme :: names) :: outer) (some x.lexeme) (some f)
      ((x.lexeme, cell) :: env))
    (like : Like L (m.store.define f v) w v v') (current : m.current = some f) :
    Ends L (some f) m w (Flows L ((x.lexeme :: names) :: outer) (some f))
      ((do Eval.define x v; pure Flow.normal : Eval Flow) m)
      ((do
        Lexical.Eval.fill cell v'
        pure (Lexical.Flow.normal (some ((x.lexeme, cell) :: env)))
          : Lexical.Eval Lexical.Flow) n) := by
  have defined : Eval.define x v m = .ok () { m with store := m.store.define f v } := by
    unfold Eval.define
    rw [current]
  have hcell := stands.reserved
  rw [bind_of_ok defined]
  exact .ok (alike.define hcell like) (.define _ _ (alike.lt_next hcell) v) rfl
    (.normal (stands.define v))

/-- A new global variable. -/
theorem defineGlobal_ends (alike : Alike L w m n) (x : Token) {v : Value} {v' : Lexical.Value}
    (like : Like L m.store w v v') (current : m.current = none) :
    Ends L none m w (Flows L [] none)
      ((do Eval.define x v; pure Flow.normal : Eval Flow) m)
      ((do
        Lexical.Eval.defineGlobal x v'
        pure (Lexical.Flow.normal none) : Lexical.Eval Lexical.Flow) n) := by
  have defined : Eval.define x v m
      = .ok () { m with globals := m.globals.insert x.lexeme v } := by
    unfold Eval.define
    rw [current]
  rw [bind_of_ok defined]
  exact .ok (alike.setGlobal x.lexeme like) (.refl _ _ _) rfl (.normal .atTop)

/-- **The simulation**, for evaluations with a given number of steps. -/
structure Simulates (L : Legend) (steps : Nat) : Prop where
  evaluate : ∀ {e : Expr} {Γ : Context} {hidden : Option String} {env : Env} {w : Placement}
    {m : Machine} {n : Lexical.Machine}, Alike L w m n →
    Standpoint m.store w Γ hidden m.current env → L.Covers (e.sites Γ hidden) →
    Ends L none m w (Like L) (evaluate steps e m) (Lexical.evaluate steps env e n)
  evaluateAll : ∀ {es : List Expr} {Γ : Context} {hidden : Option String} {env : Env}
    {w : Placement} {m : Machine} {n : Lexical.Machine}, Alike L w m n →
    Standpoint m.store w Γ hidden m.current env → L.Covers (argumentSites Γ hidden es) →
    Ends L none m w (LikeAll L) (evaluateAll steps es m) (Lexical.evaluateAll steps env es n)
  call : ∀ {f : Value} {f' : Lexical.Value} (paren : Token) {vs : List Value}
    {vs' : List Lexical.Value} {w : Placement} {m : Machine} {n : Lexical.Machine},
    Alike L w m n → Like L m.store w f f' → LikeAll L m.store w vs vs' →
    Ends L none m w (Like L) (call steps f paren vs m) (Lexical.call steps f' paren vs' n)
  execute : ∀ {s : Stmt} {Γ : Context} {scope : Option Env} {w : Placement} {m : Machine}
    {n : Lexical.Machine}, Alike L w m n → Running m.store w Γ m.current scope → s.Known L Γ →
    Ends L m.current m w (Flows L (s.extend Γ) m.current) (execute steps s m)
      (Lexical.execute steps scope s n)
  executeAll : ∀ {body : List Stmt} {Γ : Context} {scope : Option Env} {w : Placement}
    {m : Machine} {n : Lexical.Machine}, Alike L w m n → Running m.store w Γ m.current scope →
    BodyKnown L Γ body →
    Ends L m.current m w (Stops L) (executeAll steps body m)
      (Lexical.executeAll steps scope body n)

section Step

variable {steps : Nat} (ih : Simulates L steps)

include ih

/-- **One step more for an expression**, by its cases. -/
theorem Simulates.evaluate_succ {e : Expr} {Γ : Context} {hidden : Option String} {env : Env}
    (alike : Alike L w m n) (stands : Standpoint m.store w Γ hidden m.current env)
    (covered : L.Covers (e.sites Γ hidden)) :
    Ends L none m w (Like L) (Kix.evaluate (steps + 1) e m)
      (Lexical.evaluate (steps + 1) env e n) := by
  cases e with
  | literal value => exact .pure alike (.ofFace (Value.ofLiteral_ne_closure value))
  | absent => exact .pure alike .nil
  | group inner =>
    rw [Expr.sites_group] at covered
    exact ih.evaluate alike stands covered
  | unary operator operand =>
    rw [Expr.sites_unary] at covered
    refine (ih.evaluate alike stands covered).bind fun alike _ _ like => ?_
    rw [like.unary]
    exact ofOperator_ends alike operator fun v hv => Operator.unary_ne_closure hv
  | binary left operator right =>
    rw [Expr.sites_binary, Legend.covers_append] at covered
    refine (ih.evaluate alike stands covered.1).bind fun alike grows current like => ?_
    have stands := current ▸ stands.mono grows
    refine (ih.evaluate alike stands covered.2).bind fun alike grows _ like' => ?_
    rw [(like.mono grows).binary _ like']
    exact ofOperator_ends alike operator fun v hv => Operator.binary_ne_closure hv
  | logical left operator right =>
    rw [Expr.sites_logical, Legend.covers_append] at covered
    refine (ih.evaluate alike stands covered.1).bind fun {a b _ _ _} alike grows current like => ?_
    rw [like.decides]
    by_cases decided : Operator.decides operator.kind a = true
    · rw [if_pos decided, if_pos decided]
      exact .pure alike like
    · rw [if_neg decided, if_neg decided]
      exact ih.evaluate alike (current ▸ stands.mono grows) covered.2
  | conditional condition thenBranch elseBranch =>
    rw [Expr.sites_conditional, Legend.covers_append, Legend.covers_append] at covered
    refine (ih.evaluate alike stands covered.1).bind fun {a b _ _ _} alike grows current like => ?_
    rw [like.isTruthy]
    by_cases truthy : a.isTruthy = true
    · rw [if_pos truthy, if_pos truthy]
      exact ih.evaluate alike (current ▸ stands.mono grows) covered.2.1
    · rw [if_neg truthy, if_neg truthy]
      exact ih.evaluate alike (current ▸ stands.mono grows) covered.2.2
  | var id name =>
    rw [Expr.sites_var] at covered
    exact lookup_ends alike stands (covered _ (List.mem_singleton_self _))
  | assign id name value =>
    rw [Expr.sites_assign, Legend.covers_append] at covered
    refine (ih.evaluate alike stands covered.1).bind fun alike grows current like => ?_
    have known := covered.2 _ (List.mem_singleton_self _)
    refine (assign_ends alike (current ▸ stands.mono grows) known like).bind
      fun alike grows _ _ => ?_
    exact .pure alike (like.mono grows)
  | call callee paren arguments =>
    rw [Expr.sites_call, Legend.covers_append] at covered
    refine (ih.evaluate alike stands covered.1).bind fun alike grows current like => ?_
    refine (ih.evaluateAll alike (current ▸ stands.mono grows) covered.2).bind
      fun alike grows _ likes => ?_
    exact ih.call paren alike (like.mono grows) likes

/-- One step more for arguments. The first values stay alike while the others are
evaluated. -/
theorem Simulates.evaluateAll_succ {es : List Expr} {Γ : Context} {hidden : Option String}
    {env : Env} (alike : Alike L w m n) (stands : Standpoint m.store w Γ hidden m.current env)
    (covered : L.Covers (argumentSites Γ hidden es)) :
    Ends L none m w (LikeAll L) (Kix.evaluateAll (steps + 1) es m)
      (Lexical.evaluateAll (steps + 1) env es n) := by
  cases es with
  | nil => exact .pure alike .nil
  | cons e rest =>
    rw [Expr.argumentSites_cons, Legend.covers_append] at covered
    refine (ih.evaluate alike stands covered.1).bind fun alike grows current like => ?_
    refine (ih.evaluateAll alike (current ▸ stands.mono grows) covered.2).bind
      fun alike grows _ likes => ?_
    exact .pure alike (.cons (like.mono grows) likes)

/-- **One step more for a call.** The new frame has a cell for each argument, and the body
runs in it. -/
theorem Simulates.call_succ {f : Value} {f' : Lexical.Value} (paren : Token) {vs : List Value}
    {vs' : List Lexical.Value} (alike : Alike L w m n) (like : Like L m.store w f f')
    (likes : LikeAll L m.store w vs vs') :
    Ends L none m w (Like L) (Kix.call (steps + 1) f paren vs m)
      (Lexical.call (steps + 1) f' paren vs' n) := by
  have checked : Ends L none m w (fun _ _ _ _ => f.arity? = some vs.length)
      (Eval.checkCall f paren vs.length m) (Lexical.Eval.checkCall f' paren vs'.length n) :=
    likes.length_eq ▸ checkCall_ends alike like paren vs.length
  cases like with
  | native f =>
    exact checked.bind fun alike grows _ _ => callNative_ends alike f paren (likes.mono grows)
  | nil | bool | number | string => exact checked.bind fun alike _ _ _ => .halted alike
  | @closure id name params body frame env Γ chain known =>
    refine checked.bind fun {_ _ m n w} alike grows _ arity => ?_
    have likes := likes.mono grows
    have chain := chain.mono grows
    -- the frame of the call: its values are the arguments, its names the parameters
    have values : vs.length = (params.map Token.lexeme).reverse.length := by
      rw [List.length_reverse, List.length_map]
      exact (Option.some.inj arity).symm
    obtain ⟨w', grows', alike', running⟩ := alike.enter likes chain values
    have inside := ih.executeAll alike' running known
    show Ends L none m w (Like L) _
      ((Lexical.Eval.bindAll (params.zip vs') env >>= _ : Lexical.Eval Lexical.Value) n)
    rw [bind_of_ok (Lexical.bindAll_eq params vs' env n
      (likes.length_eq.trans (Option.some.inj arity).symm))]
    refine (Ends.within grows' inside).bind fun alike _ _ stops => ?_
    cases stops with
    | normal => exact .pure alike .nil
    | returned like => exact .pure alike like

/-- A variable declaration. Its initializer is evaluated where the name is hidden, since the
cell is there before the slot is. -/
theorem Simulates.execute_var {name : Token} {initializer : Expr} {Γ : Context}
    {scope : Option Env} (alike : Alike L w m n) (running : Running m.store w Γ m.current scope)
    (covered : L.Covers ((Stmt.var name initializer).sites Γ)) :
    Ends L m.current m w (Flows L (Γ.declare name.lexeme) m.current)
      (Kix.execute (steps + 1) (.var name initializer) m)
      (Lexical.execute (steps + 1) scope (.var name initializer) n) := by
  rw [Stmt.sites] at covered
  generalize hcur : m.current = current at running ⊢
  cases running with
  | atTop =>
    have stands : Standpoint m.store w [] none m.current [] := .settled ⟨hcur, rfl⟩
    refine (ih.evaluate alike stands covered).bind fun alike _ current like => ?_
    exact defineGlobal_ends alike name like (current.trans hcur)
  | @inFrame names outer f rest hf hcount hcells hrest =>
    -- the variable gets its cell before the initializer is evaluated
    have reserved := alike.reserve hf (Nat.le_of_eq (hcount.trans hcells.symm))
    have stands := Standpoint.reserve (.inFrame hf hcount hcells hrest) name.lexeme n.cells.size
    have initial := ih.evaluate reserved (hcur ▸ stands) covered
    have step := initial.bindInner fun alike grows current like =>
      define_ends alike (stands.mono grows)
        (like.mono (.define _ _ (alike.lt_next (stands.mono grows).reserved) _))
        (current.trans hcur)
    exact step.since (.reserve _ _ _ _) rfl

omit ih in
/-- A function declaration. The body stands behind the declaration of its own name, which it
may refer to. -/
theorem execute_function_ends {name : Token} {params : List Token} {body : List Stmt} {Γ : Context}
    {scope : Option Env} (alike : Alike L w m n) (running : Running m.store w Γ m.current scope)
    (known : (Stmt.function name params body).Known L Γ) :
    Ends L m.current m w (Flows L (Γ.declare name.lexeme) m.current)
      (Kix.execute (steps + 1) (.function name params body) m)
      (Lexical.execute (steps + 1) scope (.function name params body) n) := by
  have covered := known.covered
  rw [Stmt.sites] at covered
  have closed : BodyKnown L ((params.map Token.lexeme).reverse :: Γ.declare name.lexeme) body :=
    ⟨known.placed, covered⟩
  have counted := alike.countClosure
  -- both closures get the same identity, and spell out the same cells
  have made {σ : Store Value} {w : Placement} {current : Option FrameRef} {env : Env}
      (chain : Chain σ w (Γ.declare name.lexeme) current env) :
      Like L σ w (.closure ⟨m.nextClosure, name.lexeme, params, body, current⟩)
        (.closure ⟨n.nextClosure, name.lexeme, params, body, env⟩) := by
    rw [alike.nextClosure]
    exact .closure chain closed
  generalize hcur : m.current = current at running ⊢
  have closes : Eval.close name params body m
      = .ok (.closure ⟨m.nextClosure, name.lexeme, params, body, current⟩)
        { m with nextClosure := m.nextClosure + 1 } := by
    rw [← hcur]
    rfl
  rw [Kix.execute, bind_of_ok closes]
  cases running with
  | atTop =>
    have chain : Chain m.store w [] none [] := ⟨rfl, rfl⟩
    have step := defineGlobal_ends counted name (made chain) hcur
    exact step.since (.refl _ _ _) rfl
  | @inFrame names outer f rest hf hcount hcells hrest =>
    have reserved := counted.reserve hf (Nat.le_of_eq (hcount.trans hcells.symm))
    have stands := Standpoint.reserve (.inFrame hf hcount hcells hrest) name.lexeme n.cells.size
    have step := define_ends reserved stands (made (stands.define _).chain) hcur
    exact step.since (.reserve _ _ _ _) rfl

/-- One step more for a body, up to the first statement that returns. -/
theorem Simulates.executeAll_succ {body : List Stmt} {Γ : Context} {scope : Option Env}
    (alike : Alike L w m n) (running : Running m.store w Γ m.current scope)
    (known : BodyKnown L Γ body) :
    Ends L m.current m w (Stops L) (Kix.executeAll (steps + 1) body m)
      (Lexical.executeAll (steps + 1) scope body n) := by
  cases body with
  | nil => exact .pure alike (.normal scope)
  | cons s rest =>
    refine (ih.execute alike running known.head).bind fun alike grows current flows => ?_
    cases flows with
    | normal running => exact current ▸ ih.executeAll alike (current ▸ running) known.tail
    | returned like => exact .pure alike (.returned like)

/-- A block runs in a frame of its own, which is empty. -/
theorem Simulates.execute_block {body : List Stmt} {Γ : Context} {scope : Option Env}
    (alike : Alike L w m n) (running : Running m.store w Γ m.current scope)
    (known : BodyKnown L ([] :: Γ) body) :
    Ends L m.current m w (Flows L Γ m.current) (Kix.execute (steps + 1) (.block body) m)
      (Lexical.execute (steps + 1) scope (.block body) n) := by
  obtain ⟨w', grows', alike', running'⟩ := alike.enterBlock running.chain
  have outside := Ends.within grows' (ih.executeAll alike' running' known)
  show Ends L m.current m w _ (Eval.within { parent := m.current } (Kix.executeAll steps body) m) _
  rw [← bind_pure (Eval.within { parent := m.current } (Kix.executeAll steps body))]
  refine outside.bindInner fun alike grows current stops => ?_
  cases stops with
  | normal => exact .pure alike (.normal (running.mono grows))
  | returned like => exact .pure alike (.returned like)

/-- **One step more for a statement**, by its cases. -/
theorem Simulates.execute_succ {s : Stmt} {Γ : Context} {scope : Option Env}
    (alike : Alike L w m n) (running : Running m.store w Γ m.current scope)
    (known : s.Known L Γ) :
    Ends L m.current m w (Flows L (s.extend Γ) m.current) (Kix.execute (steps + 1) s m)
      (Lexical.execute (steps + 1) scope s n) := by
  have covered := known.covered
  have placed := known.placed
  cases s with
  | expression value =>
    refine (ih.evaluate alike running.standpoint covered).bindInner fun alike grows _ _ => ?_
    exact .pure alike (.normal (running.mono grows))
  | print value =>
    refine (ih.evaluate alike running.standpoint covered).bindInner fun alike grows _ like => ?_
    rw [like.display]
    refine (write_ends alike _ _).bindInner fun alike grows' _ _ => ?_
    exact .pure alike (.normal ((running.mono grows).mono grows'))
  | var name initializer => exact ih.execute_var alike running covered
  | block body => exact ih.execute_block alike running ⟨placed, covered⟩
  | branch condition thenBranch elseBranch =>
    rw [Stmt.sites, Legend.covers_append, Legend.covers_append] at covered
    obtain ⟨⟨hthen, placed₁⟩, helse, placed₂⟩ := placed
    have same := thenBranch.extend_of_placed placed₁ Γ hthen
    have same' := elseBranch.extend_of_placed placed₂ Γ helse
    rw [same] at covered
    rw [Stmt.extend, same, same']
    refine (ih.evaluate alike running.standpoint covered.1).bindInner
      fun {a _ _ _ _} alike grows current like => ?_
    have running := current ▸ running.mono grows
    rw [like.isTruthy, ← current]
    by_cases truthy : a.isTruthy = true
    · rw [if_pos truthy, if_pos truthy]
      exact same ▸ ih.execute alike running ⟨placed₁, covered.2.1⟩
    · rw [if_neg truthy, if_neg truthy]
      exact same' ▸ ih.execute alike running ⟨placed₂, covered.2.2⟩
  | loop condition body =>
    rw [Stmt.sites, Legend.covers_append] at covered
    have same := body.extend_of_placed placed.2 Γ placed.1
    rw [Stmt.extend, same]
    refine (ih.evaluate alike running.standpoint covered.1).bindInner
      fun {a _ _ _ _} alike grows current like => ?_
    have running := current ▸ running.mono grows
    rw [like.isTruthy, ← current]
    by_cases truthy : a.isTruthy = true
    · rw [if_pos truthy, if_pos truthy]
      refine (ih.execute alike running ⟨placed.2, covered.2⟩).bind
        fun alike _ current flows => ?_
      rw [same] at flows
      cases flows with
      | normal running =>
        have again := ih.execute alike (current ▸ running) known
        rw [Stmt.extend, same] at again
        exact current ▸ again
      | returned like => exact .pure alike (.returned like)
    · rw [if_neg truthy, if_neg truthy]
      exact .pure alike (.normal running)
  | function name params body => exact execute_function_ends alike running known
  | ret keyword value =>
    refine (ih.evaluate alike running.standpoint covered).bindInner fun alike _ _ like => ?_
    exact .pure alike (.returned like)
  | absent => exact .pure alike (.normal running)

end Step

/-- **Running with addresses is evaluating by name**, for any number of steps. -/
theorem simulates (L : Legend) : ∀ steps : Nat, Simulates L steps
  | 0 => {
    evaluate := fun alike _ _ => .halted alike
    evaluateAll := fun alike _ _ => .halted alike
    call := fun _ _ _ _ _ _ alike _ _ => .halted alike
    execute := fun alike _ _ => .halted alike
    executeAll := fun alike _ _ => .halted alike }
  | steps + 1 =>
    have ih := simulates L steps
    { evaluate := ih.evaluate_succ
      evaluateAll := ih.evaluateAll_succ
      call := fun paren _ _ _ _ _ alike like likes => ih.call_succ paren alike like likes
      execute := ih.execute_succ
      executeAll := ih.executeAll_succ }

end Kix
