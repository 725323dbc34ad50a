import Kix.Proofs.Aspects
import Kix.Proofs.DirectLoops
import Kix.Proofs.MissingVariables

/-!
# For loops

A `for` loop means what its clauses say. Whatever a source reads behind the word `for` is the
statement of a `ForLoop`, whose body is no declaration; and wherever such a statement is executed
in a session, it does what the direct loop over its clauses does (`for_loop_is_direct`).

Beside that stand three facts about the frames of the machine, which the direct loop does not
have to speak of.

* All rounds are executed in one frame, the frame of the loop, which holds the variable that the
  initializer declares, and nothing else. So functions that are made in the body share that
  variable, in whatever round they are made.
* The block around body and increment brings a frame of its own in each round. Nothing is ever
  declared in it.
* The names in the increment are looked up past that frame, in the frame of the loop and further
  out, so that no declaration in the body captures them.
-/

namespace Kix

open Eval

/-! ## Reading a loop -/

/-- **The clauses of a loop as they are read** behind the word `for`. -/
inductive ForLoop.Reads (eof : Token) (loop : ForLoop) : Cursor → Cursor → Prop where
  | clauses {c c₁ c₂ c₃ c' : Cursor} {opening : Token} (sign : opening.kind = .leftParen)
    (initializer : ReadsStatements eof .initializer c [loop.initializer] c₁)
    (condition : ReadsOptional eof .semicolon c₁ loop.condition c₂)
    (increment : ReadsOptional eof .rightParen c₂ loop.increment c₃)
    (body : ReadsStatements eof .statement c₃ [loop.body] c') : Reads eof loop (c.push opening) c'

/-- What is read behind `for` is the statement of a loop. -/
theorem Grammar.forStatement_reads (eof : Token) (c : Cursor) :
    (Grammar.forStatement eof c).Spec
      (fun s c' => ∃ loop : ForLoop, s = loop.statement ∧ loop.Reads eof c c') fun _ => True := by
  rw [Grammar.forStatement]
  have any {α : Type} {bound : Nat} {x : Step bound α} {read : α → Cursor → Prop}
      {failed : Cursor → Prop} (h : x.Spec read failed) : x.Spec read fun _ => True :=
    h.mono (fun _ _ => id) fun _ _ => trivial
  refine (any (c.expect_spec eof .forOpen)).andThen fun opening c₁ h₁ sign => ?_
  obtain ⟨rfl, sign⟩ := sign
  refine ((any (Grammar.forInitializer_spec eof c₁)).within h₁).andThen
    fun initializer c₂ h₂ first => ?_
  refine ((any (Grammar.optional_spec eof c₂ .forConditionEnd)).within h₂).andThen
    fun condition c₃ h₃ second => ?_
  refine ((any (Grammar.optional_spec eof c₃ .forClose)).within h₃).andThen
    fun increment c₄ h₄ third => ?_
  refine .map (.within ((Grammar.statement_spec eof c₄).mono (fun body c' inner => ?_)
    fun _ _ => trivial) h₄)
  have undeclared := inner.placed.2 rfl body (List.mem_singleton_self _)
  exact ⟨⟨initializer, condition, increment, body, undeclared⟩, rfl,
    .clauses sign first second third inner⟩

/-! ## Aspects of a frame -/

namespace Aspect

/-- What can be seen of a frame, if neither assignments nor new frames change it. -/
def ofFrame {β : Type} (f : FrameRef) (look : Store Value → β) (Inert : Option FrameRef → Prop)
    (set : ∀ σ g slot value, look (σ.set g slot value) = look σ)
    (allocate : ∀ σ frame, f < σ.next → look (σ.allocate frame) = look σ)
    (define : ∀ σ g value, Inert (some g) → look (σ.define g value) = look σ)
    (inert : ∀ g, f < g → Inert (some g)) : Aspect where
  Same m m' := m.store.next ≤ m'.store.next ∧ look m'.store = look m.store
  Inert := Inert
  Here m := f < m.store.next
  refl _ := ⟨Nat.le_refl _, rfl⟩
  trans h h' := ⟨Nat.le_trans h.1 h'.1, h'.2.trans h.2⟩
  here there same := Nat.lt_of_lt_of_le there same.1
  put _ _ := ⟨Nat.le_refl _, rfl⟩
  readClock _ := ⟨Nat.le_refl _, rfl⟩
  close _ := ⟨Nat.le_refl _, rfl⟩
  set m g slot value := ⟨Nat.le_of_eq (m.store.next_set ..).symm, set m.store g slot value⟩
  setGlobal _ _ _ _ := ⟨Nat.le_refl _, rfl⟩
  define m name value _ inert := by
    unfold Eval.define
    cases current : m.current with
    | some g =>
      rw [current] at inert
      exact ⟨Nat.le_of_eq (m.store.next_define ..).symm, define m.store g value inert⟩
    | none => exact ⟨Nat.le_refl _, rfl⟩
  enter m frame there := by
    refine ⟨⟨?_, allocate m.store frame there⟩, inert m.store.next there⟩
    exact Nat.le_of_lt (Nat.lt_of_lt_of_eq (Nat.lt_succ_self _) (m.store.next_allocate frame).symm)
  leave _ _ := ⟨Nat.le_refl _, rfl⟩

/-- The parent of a frame, which nothing changes. -/
def parentOf (f : FrameRef) : Aspect :=
  ofFrame f (·.parent? f) (fun _ => True) (fun σ _ _ _ => σ.parent?_set ..)
    (fun σ frame there => σ.parent?_allocate_of_lt frame there)
    (fun σ _ _ _ => σ.parent?_define ..) fun _ _ => trivial

/-- The number of values in a frame, which declarations change while the frame is current. -/
def countOf (f : FrameRef) : Aspect :=
  ofFrame f (·.count f) (· ≠ some f) (fun σ _ _ _ => σ.count_set ..)
    (fun σ frame there => σ.count_allocate_of_lt frame there)
    (fun σ _ value other => σ.count_define_of_ne value fun same => other (congrArg some same))
    fun _ there same => Nat.ne_of_gt there (Option.some.inj same)

end Aspect

/-! ## The frames of a loop -/

/-- **The rounds of a loop that have come to an end**, on a machine with frames: the frames that
they had, the latest first, and the machine on which the next round begins. -/
inductive ForLoop.Rounds (loop : ForLoop) (m : Machine) : List FrameRef → Machine → Prop where
  | none {steps : Nat} {m₁ : Machine}
    (initialized : execute steps loop.initializer (m.enter { parent := m.current })
      = .ok .normal m₁) : Rounds loop m [] m₁
  | next {frames : List FrameRef} {steps : Nat} {a : Value} {m₁ m₂ m₃ : Machine}
    (before : Rounds loop m frames m₁) (test : evaluate steps loop.conditionExpr m₁ = .ok a m₂)
    (truthy : a.isTruthy = true) (turn : execute steps loop.iteration m₂ = .ok .normal m₃) :
    Rounds loop m (m₂.store.next :: frames) m₃

/-- **One frame for all rounds.** It is current when a round begins, and holds what the initializer
declares. The frames of earlier rounds hold nothing, and have it as their parent. -/
structure ForLoop.OneFrame (loop : ForLoop) (m : Machine) (frames : List FrameRef)
    (m₁ : Machine) : Prop where
  current : m₁.current = some m.store.next
  parent : m₁.store.parent? m.store.next = m.current
  count : m₁.store.count m.store.next = loop.initializer.declared?.toList.length
  rounds : ∀ f ∈ frames, f < m₁.store.next ∧ m₁.store.parent? f = some m.store.next
    ∧ m₁.store.count f = 0

section Frames

variable {m m' : Machine} {steps : Nat} {s : Stmt}

/-- A frame that has been entered is there. -/
theorem Machine.next_lt_enter (m : Machine) (frame : Frame Value) :
    m.store.next < (m.enter frame).store.next :=
  Nat.lt_of_lt_of_eq (Nat.lt_succ_self _) (m.store.next_allocate frame).symm

/-- Declaring in a frame adds a value to it. -/
theorem count_define {f : FrameRef} (current : m.current = some f) (there : f < m.store.next)
    {name : Token} {value : Value} (defined : Eval.define name value m = .ok () m') :
    m'.store.count f = m.store.count f + 1 := by
  unfold Eval.define at defined
  rw [current] at defined
  cases defined
  exact m.store.count_define_self value there

/-- **A statement adds to its frame** the value that it declares, and nothing else. -/
theorem count_execute {f : FrameRef} (placed : s.Placed) (current : m.current = some f)
    (there : f < m.store.next) (h : execute steps s m = .ok .normal m') :
    m'.store.count f = m.store.count f + s.declared?.toList.length := by
  cases declared : s.declared? with
  | none =>
    have kept := (((Aspect.countOf f).undisturbed steps).execute s).of_ok h
    exact (kept.same there (.inl ⟨declared, placed⟩)).2
  | some name =>
    have declares := execute_declares declared steps m
    rw [h] at declares
    cases declares with
    | declared before defined =>
      have kept := before (Aspect.countOf f)
      have same := kept.same there (.inl trivial)
      have counted := count_define (kept.current.trans current)
        (Nat.lt_of_lt_of_le there same.1) defined
      exact counted.trans (congrArg (· + 1) same.2)

end Frames

namespace ForLoop

variable {loop : ForLoop} {m m' : Machine} {steps : Nat}

/-- What a round executes in its frame declares nothing there. -/
theorem quiet_iteration (placed : loop.body.Placed) :
    Task.Quiet (.body [loop.body, .expression loop.incrementExpr]) := by
  intro s hs
  rcases List.mem_cons.1 hs with rfl | last
  · exact ⟨loop.undeclared, placed⟩
  · cases List.mem_singleton.1 last
    exact ⟨rfl, trivial⟩

/-- **The frame of a round is empty** whenever something begins or ends in the round. -/
theorem count_inside {k : Nat} {t : Task} (placed : loop.body.Placed)
    (visits : Visits steps (.body [loop.body, .expression loop.incrementExpr])
      (m.enter { parent := m.current }) k t m') :
    m'.store.count m.store.next = 0 ∧ (t.left k m').store.count m.store.next = 0 := by
  have there := m.next_lt_enter { parent := m.current }
  have empty : (m.enter { parent := m.current }).store.count m.store.next = 0 :=
    m.store.count_allocate_next _
  obtain ⟨same, settled⟩ := (Aspect.countOf m.store.next).visit visits there
    (.inl (quiet_iteration placed))
  have found : m'.store.count m.store.next = 0 := same.2.trans empty
  have kept := (Aspect.countOf m.store.next).kept_left k t m'
  exact ⟨found, (kept.same (Nat.lt_of_lt_of_le there same.1) settled).2.trans found⟩

/-- So is it whenever something begins or ends that the block of a round performs, the block
itself included. -/
theorem count_iteration {k : Nat} {t : Task} (placed : loop.body.Placed)
    (visits : Visits steps (.statement loop.iteration) m k t m') :
    m'.store.count m.store.next = 0 ∧ (t.left k m').store.count m.store.next = 0 := by
  have unmade : m.store.count m.store.next = 0 := m.store.count_of_le (Nat.le_refl _)
  cases visits with
  | here =>
    refine ⟨unmade, ?_⟩
    cases steps with
    | zero => exact unmade
    | succ steps =>
      show (left (Eval.within { parent := m.current } _ m)).store.count m.store.next = 0
      rw [left_within]
      exact (count_inside placed .here).2
  | deeper spawns visits =>
    cases spawns
    exact count_inside placed visits

/-- The block of a round leaves its frame with the frame of the loop as its parent. -/
theorem parent_iteration (turn : execute steps loop.iteration m = .ok .normal m') :
    m.store.next < m'.store.next ∧ m'.store.parent? m.store.next = m.current := by
  cases steps with
  | zero => exact nomatch turn
  | succ steps =>
    have there := m.next_lt_enter { parent := m.current }
    have made : (m.enter { parent := m.current }).store.parent? m.store.next = m.current :=
      m.store.parent?_allocate_next _
    have kept := ((Aspect.parentOf m.store.next).undisturbed steps).executeAll
      [loop.body, .expression loop.incrementExpr] (m.enter { parent := m.current })
    have same := kept.same there (.inr trivial)
    have left_eq : m' = left (Eval.within { parent := m.current }
        (executeAll steps [loop.body, .expression loop.incrementExpr]) m) :=
      (congrArg left turn).symm
    rw [left_within] at left_eq
    subst left_eq
    exact ⟨Nat.lt_of_lt_of_le there same.1, same.2.trans made⟩

/-- A frame that is not touched while a round is executed: its parent and its size stay. -/
theorem frame_of_round {a : Value} {m₁ m₂ m₃ : Machine} {f : FrameRef}
    (placed : loop.body.Placed) (there : f < m₁.store.next)
    (test : evaluate steps loop.conditionExpr m₁ = .ok a m₂)
    (turn : execute steps loop.iteration m₂ = .ok .normal m₃) :
    f < m₃.store.next ∧ m₃.store.parent? f = m₁.store.parent? f
      ∧ m₃.store.count f = m₁.store.count f := by
  have both (A : Aspect) : A.Kept True m₁ m₃ := by
    have quiet : loop.iteration.Quiet := ⟨rfl, placed, trivial, trivial⟩
    have tested := ((A.undisturbed steps).evaluate loop.conditionExpr).of_ok test
    have turns : A.Keeps True (execute steps loop.iteration) :=
      ((A.undisturbed steps).execute loop.iteration).mono fun _ => quiet
    exact tested.trans (turns.of_ok turn)
  have parent := (both (Aspect.parentOf f)).same there (.inl trivial)
  have count := (both (Aspect.countOf f)).same there (.inl trivial)
  exact ⟨Nat.lt_of_lt_of_le there parent.1, parent.2, count.2⟩

/-- **All rounds are executed in one frame**, by induction on the rounds. -/
theorem Rounds.oneFrame {frames : List FrameRef} {m₁ : Machine} (initial : loop.initializer.Placed)
    (placed : loop.body.Placed) (rounds : loop.Rounds m frames m₁) :
    m.store.next < m₁.store.next ∧ loop.OneFrame m frames m₁ := by
  induction rounds with
  | @none steps m₁ initialized =>
    have there := m.next_lt_enter { parent := m.current }
    have made : (m.enter { parent := m.current }).store.parent? m.store.next = m.current :=
      m.store.parent?_allocate_next _
    have kept := (((Aspect.parentOf m.store.next).undisturbed steps).execute _).of_ok initialized
    have same := kept.same there (.inr trivial)
    have empty : (m.enter { parent := m.current }).store.count m.store.next = 0 :=
      m.store.count_allocate_next _
    have counted := count_execute initial rfl there initialized
    rw [empty, Nat.zero_add] at counted
    exact ⟨Nat.lt_of_lt_of_le there same.1, kept.current, same.2.trans made, counted, nofun⟩
  | @next frames steps a m₁ m₂ m₃ _ test _ turn ih =>
    obtain ⟨there, one⟩ := ih
    obtain ⟨there', parent, count⟩ := frame_of_round placed there test turn
    have current : m₂.current = some m.store.next := (current_of_evaluate test).trans one.current
    refine ⟨there', (current_of_execute turn).trans current, parent.trans one.parent,
      count.trans one.count, fun f hf => ?_⟩
    rcases List.mem_cons.1 hf with rfl | earlier
    · -- the frame of the round that has just ended
      obtain ⟨made, parent⟩ := parent_iteration turn
      have whole : Visits steps (.statement loop.iteration) m₂ steps _ m₂ := .here
      have empty : (left (execute steps loop.iteration m₂)).store.count m₂.store.next = 0 :=
        (count_iteration placed whole).2
      rw [turn] at empty
      exact ⟨made, parent.trans current, empty⟩
    · obtain ⟨there, parent, empty⟩ := one.rounds f earlier
      obtain ⟨there', parent', empty'⟩ := frame_of_round placed there test turn
      exact ⟨there', parent'.trans parent, empty'.trans empty⟩

/-! ## The loop and its clauses -/

/-- **A loop that runs as the direct loop over its clauses does**, on a machine and on one that
evaluates by name, in like scopes. -/
structure RunsDirectly (loop : ForLoop) (L : Legend) (w : Placement) (m : Machine)
    (n : Lexical.Machine) (Γ : Context) (scope : Option Lexical.Env) : Prop where
  /-- However executing the statement ends, the direct loop ends alike. -/
  direct : ∀ steps, (∀ m', execute steps loop.statement m ≠ .error .exhausted m') →
    Ends L m.current m w (Flows L Γ m.current) (execute steps loop.statement m)
      (loop.run steps scope n)
  /-- However the direct loop ends, executing the statement ends alike. -/
  statement : ∀ steps, (∀ n', loop.run steps scope n ≠ .error .exhausted n') →
    Ends L m.current m w (Flows L Γ m.current) (execute (steps + 8) loop.statement m)
      (loop.run steps scope n)
  /-- Names in the increment lead past the frame of the round to where they lead in the scope of
  the loop. -/
  uncaptured : ∀ o ∈ loop.incrementExpr.occurrences,
    m.addresses[o.id]? = ((loop.context Γ).locate o.name.lexeme).map Address.outward
  /-- All rounds are executed in one frame. -/
  oneFrame : ∀ frames m₁, loop.Rounds m frames m₁ → loop.OneFrame m frames m₁
  /-- The frame that a round is about to make stays empty all through the round. -/
  empty : ∀ steps m₁ k t m', Visits steps (.statement loop.iteration) m₁ k t m' →
    m'.store.count m₁.store.next = 0 ∧ (t.left k m').store.count m₁.store.next = 0

theorem runsDirectly {L : Legend} {w : Placement} {n : Lexical.Machine} {Γ : Context}
    {scope : Option Lexical.Env} (alike : Alike L w m n)
    (running : Running m.store w Γ m.current scope) (known : loop.statement.Known L Γ) :
    loop.RunsDirectly L w m n Γ scope := by
  have clauses := clauses_of_known known
  refine ⟨fun steps ended => ?_, fun steps ended => ?_, fun o ho => ?_, fun frames m₁ rounds => ?_,
    fun steps m₁ k t m' visits => count_iteration clauses.body.placed visits⟩
  · have allows : Leader.frames.Allows 8 steps steps := Nat.le_refl steps
    refine (follows allows clauses alike running).resolve_left ?_
    rintro ⟨m', exhausted⟩
    exact ended m' exhausted
  · have allows : Leader.names.Allows 8 (steps + 8) steps := Nat.le_refl (steps + 8)
    refine (follows allows clauses alike running).resolve_left ?_
    rintro ⟨n', exhausted⟩
    exact ended n' exhausted
  · have site := clauses.increment _ (List.mem_map_of_mem ho)
    exact (alike.addresses o.id).trans site.address
  · exact (rounds.oneFrame clauses.initializer.placed clauses.body.placed).2

end ForLoop

/-- **A `for` loop is the direct loop over its clauses.** What is read behind the word `for` is the
statement of such a loop. After any operations, whenever an execution of any unit comes to the
statement of a loop, the machine is like one that evaluates by name, and from there executing the
statement and running the direct loop end alike, or neither ends. -/
theorem for_loop_is_direct (policy : Policy) (out err : Sink) (clock : Nat → Nat)
    (operations : List Operation) {h : History}
    (performed : History.performAll? ⟨.fresh policy out err clock, []⟩ operations = some h)
    {unit : Program} (hunit : unit ∈ h.units) (steps : Nat) :
    (∀ (eof : Token) (c c' : Cursor) (s : Stmt) (shorter : c'.size < c.size),
      Grammar.forStatement eof c = .ok s c' shorter →
        ∃ loop : ForLoop, s = loop.statement ∧ loop.Reads eof c c')
    ∧ ∀ (k : Nat) (loop : ForLoop) (m : Machine),
      Visits steps (.body unit) h.session.machine k (.statement loop.statement) m →
        ∃ w n Γ scope, Alike (h.session.legend h.units) w m n
          ∧ Running m.store w Γ m.current scope
          ∧ loop.RunsDirectly (h.session.legend h.units) w m n Γ scope := by
  refine ⟨fun eof c c' s shorter read => ?_, fun k loop m visits => ?_⟩
  · have spec := Grammar.forStatement_reads eof c
    rw [read] at spec
    exact spec
  · have sound := (History.sound_fresh policy out err clock).performAll performed
    cases (sound.ready hunit).visit visits with
    | statement alike running known =>
      exact ⟨_, _, _, _, alike, running, ForLoop.runsDirectly alike running known⟩

/-- A loop whose body declares a variable of the name that the initializer declares. -/
def shadowingLoop : ForLoop where
  initializer := .var (.onLine 1 .identifier "i") (.literal (.bool true))
  condition := some (.var 0 (.onLine 1 .identifier "i"))
  increment := some (.assign 2 (.onLine 1 .identifier "i") (.literal (.bool false)))
  body := .block [.var (.onLine 1 .identifier "i") (.literal .nil)]
  undeclared := rfl

def shadowingSource : String := "for (var i = true; i; i = false) \x7b var i = nil; \x7d"

def shadowingTokens : List Token :=
  [.onLine 1 .forWord "for", .onLine 1 .leftParen "(",
    .onLine 1 .varWord "var", .onLine 1 .identifier "i", .onLine 1 .equal "=",
    .onLine 1 .trueWord "true", .onLine 1 .semicolon ";",
    .onLine 1 .identifier "i", .onLine 1 .semicolon ";",
    .onLine 1 .identifier "i", .onLine 1 .equal "=", .onLine 1 .falseWord "false",
    .onLine 1 .rightParen ")",
    .onLine 1 .leftBrace "\x7b", .onLine 1 .varWord "var", .onLine 1 .identifier "i",
    .onLine 1 .equal "=", .onLine 1 .nilWord "nil", .onLine 1 .semicolon ";",
    .onLine 1 .rightBrace "\x7d", .endOfInput 1]

theorem compile_shadowingSource :
    ∃ s, (Session.fresh {} {} {} fun _ => 0).compile shadowingSource
      = (some [shadowingLoop.statement], s) := by
  have scanned : scan shadowingSource = shadowingTokens.map Item.token := by
    decide +kernel
  have parsed : parse shadowingTokens 0 = ⟨[shadowingLoop.statement], 3, []⟩ := by
    cbv
  exact Session.exists_compile rfl scanned parsed (by decide)

/-- The increment assigns the variable of the loop, one frame further out than the frame of the
round, and not the one that the body declares. -/
theorem for_loop_is_direct_shadowed_variable :
    ∃ h w n, History.performAll? ⟨.fresh {} {} {} fun _ => 0, []⟩ [.compile shadowingSource]
        = some h
      ∧ [shadowingLoop.statement] ∈ h.units
      ∧ Visits 9 (.body [shadowingLoop.statement]) h.session.machine 8
        (.statement shadowingLoop.statement) h.session.machine
      ∧ h.session.machine.addresses[2]? = some ⟨1, 0⟩
      ∧ shadowingLoop.RunsDirectly (h.session.legend h.units) w h.session.machine n [] none := by
  obtain ⟨s, compiled⟩ := compile_shadowingSource
  have performed := History.performAll?_compile
    (h := ⟨.fresh {} {} {} fun _ => 0, []⟩) compiled
  have member : [shadowingLoop.statement] ∈ [] ++ [[shadowingLoop.statement]] :=
    List.mem_singleton_self _
  have visits : Visits 9 (.body [shadowingLoop.statement]) s.machine 8
      (.statement shadowingLoop.statement) s.machine := .deeper .statement .here
  have current : s.machine.current = none :=
    ((History.sound_fresh {} {} {} fun _ => 0).performAll performed).current
  obtain ⟨w, n, Γ, scope, alike, running, runs⟩ := (for_loop_is_direct {} {} {} (fun _ => 0)
    [.compile shadowingSource] performed member 9).2 8 shadowingLoop s.machine visits
  rw [current] at running
  cases running
  have address : s.machine.addresses[2]? = some ⟨1, 0⟩ :=
    runs.uncaptured ⟨2, .onLine 1 .identifier "i", false⟩ (List.mem_singleton_self _)
  exact ⟨_, w, n, performed, member, visits, address, runs⟩

end Kix
