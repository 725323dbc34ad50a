import Kix.Proofs.Compilation
import Kix.Proofs.Visits

/-!
# Variables that are missing

An address can lead nowhere: the chain of frames can be too short, or the frame
that is reached can hold too few values, and then a run ends with a report that
the variable is missing. This module says exactly when that happens, in any
session, after whatever was compiled, run and executed in it before.

* A read never misses (`read_finds_variable`).
* An assignment misses if and only if it stands in the initializer of the very
  variable that it assigns, and that variable is local
  (`assignment_misses_iff`). The resolver refuses a read there, but not an
  assignment.

Both come from one invariant of sessions, `History.Sound`: the machine is like
one that evaluates by name, and the legend describes every unit. Each operation
preserves it, so it holds after any number of operations.
-/

namespace Kix

/-! ## Reads and assignments in their place -/

section Found

variable {L : Legend} {m m' : Machine} {id : OccurrenceId} {name : Token} {line : Nat} {x : String}

/-- The address of an occurrence leads to a frame, and to a value in it unless
the variable is being initialized. -/
theorem Standpoint.reaches {w : Placement} {n : Lexical.Machine} {Γ : Context}
    {hidden : Option String} {env : Lexical.Env} {reads : Bool} (alike : Alike L w m n)
    (stands : Standpoint m.store w Γ hidden m.current env)
    (known : Site.Known L ⟨⟨id, name, reads⟩, Γ, hidden⟩) {a : Address}
    (address : m.addresses[id]? = some a) :
    ∃ f g, m.current = some f ∧ m.store.ancestor? f a.distance = some g
      ∧ (a.slot < m.store.count g ↔ hidden ≠ some name.lexeme) := by
  have located : Γ.locate name.lexeme = some a :=
    known.address.symm.trans ((alike.addresses id).symm.trans address)
  have found := stands.find name.lexeme
  rw [located] at found
  generalize env.lookup name.lexeme = cell? at found
  cases found with
  | slot reached _ filled =>
    cases hcur : m.current with
    | none => rw [hcur] at reached; exact nomatch reached
    | some f => rw [hcur] at reached; exact ⟨f, _, rfl, reached, filled⟩

/-- A variable that is being initialized has an address. -/
theorem Standpoint.isSome_address {w : Placement} {n : Lexical.Machine} {Γ : Context}
    {hidden : Option String} {env : Lexical.Env} {reads : Bool} (alike : Alike L w m n)
    (stands : Standpoint m.store w Γ hidden m.current env)
    (known : Site.Known L ⟨⟨id, name, reads⟩, Γ, hidden⟩) (own : hidden = some name.lexeme) :
    ∃ a, m.addresses[id]? = some a := by
  have found := stands.find name.lexeme
  have address : m.addresses[id]? = Γ.locate name.lexeme :=
    (alike.addresses id).trans known.address
  generalize Γ.locate name.lexeme = a?, env.lookup name.lexeme = cell? at found address
  cases found with
  | nowhere visible => exact absurd own visible
  | slot _ _ _ => exact ⟨_, address⟩

theorem Ready.read_reaches (ready : Ready L m (.expression (.var id name))) {a : Address}
    (address : m.addresses[id]? = some a) :
    ∃ f g, m.current = some f ∧ m.store.ancestor? f a.distance = some g
      ∧ a.slot < m.store.count g := by
  cases ready with
  | @expression w n _ Γ hidden env alike stands covered =>
    rw [Expr.sites_var] at covered
    have known := covered _ (List.mem_singleton_self _)
    obtain ⟨f, g, current, reached, filled⟩ := stands.reaches alike known address
    have visible : hidden ≠ some name.lexeme := beq_eq_false_iff_ne.1 (known.reads rfl)
    exact ⟨f, g, current, reached, filled.2 visible⟩

/-- A lookup whose address leads to a value does not miss. -/
theorem lookup_ne_missing (h : ∀ a, m.addresses[id]? = some a →
    ∃ f g, m.current = some f ∧ m.store.ancestor? f a.distance = some g
      ∧ a.slot < m.store.count g) :
    haltOf (Eval.lookup id name m) ≠ some (.missing line x) := by
  unfold Eval.lookup
  cases haddr : m.addresses[id]? with
  | none =>
    cases m.globals[name.lexeme]? <;> nofun
  | some a =>
    obtain ⟨f, g, current, reached, filled⟩ := h a haddr
    obtain ⟨v, hv⟩ := Option.isSome_iff_exists.1 ((m.store.isSome_get?_iff g).2 filled)
    have value : m.current.bind (m.store.getAt? · a.distance a.slot) = some v := by
      rw [Store.bind_getAt? (by rw [current]; exact reached), hv]
    dsimp only
    rw [value]
    nofun

/-- The slot of an assignment is there unless it assigns a variable in its own
initializer. -/
theorem Ready.assign_reaches {e : Expr} {steps : Nat} {v : Value}
    (ready : Ready L m (.expression (.assign id name e))) (ok : evaluate steps e m = .ok v m')
    {a : Address} (address : m'.addresses[id]? = some a) :
    ∃ f g, m'.current = some f ∧ m'.store.ancestor? f a.distance = some g
      ∧ (a.slot < m'.store.count g ↔ ¬ L.isSelfAssignment id) := by
  cases ready with
  | expression alike stands covered =>
    rw [Expr.sites_assign, Legend.covers_append] at covered
    have known := covered.2 _ (List.mem_singleton_self _)
    obtain ⟨w', n', _, alike', grows, current, _⟩ :=
      ((simulates L steps).evaluate alike stands covered.1).of_ok ok
    rw [known.assigns rfl]
    obtain ⟨f, g, hcur, reached, filled⟩ :=
      Standpoint.reaches alike' (current ▸ stands.mono grows) known address
    exact ⟨f, g, hcur, reached, filled.trans (not_congr beq_iff_eq).symm⟩

/-- An assignment in the initializer of its own variable has an address. -/
theorem Ready.isSome_address_of_isSelfAssignment {e : Expr} {steps : Nat} {v : Value}
    (ready : Ready L m (.expression (.assign id name e))) (ok : evaluate steps e m = .ok v m')
    (self : L.isSelfAssignment id) : ∃ a, m'.addresses[id]? = some a := by
  cases ready with
  | expression alike stands covered =>
    rw [Expr.sites_assign, Legend.covers_append] at covered
    have known := covered.2 _ (List.mem_singleton_self _)
    obtain ⟨w', n', _, alike', grows, current, _⟩ :=
      ((simulates L steps).evaluate alike stands covered.1).of_ok ok
    have own := beq_iff_eq.1 ((known.assigns rfl).1 self)
    exact Standpoint.isSome_address alike' (current ▸ stands.mono grows) known own

/-- **An assignment misses exactly if it is one to a variable that is being
initialized.** -/
theorem Ready.assign_missing_iff {e : Expr} {steps : Nat} {v : Value}
    (ready : Ready L m (.expression (.assign id name e))) (ok : evaluate steps e m = .ok v m') :
    haltOf (Eval.assign id name v m') = some (.missing line x)
      ↔ L.isSelfAssignment id ∧ line = name.line ∧ x = name.lexeme := by
  unfold Eval.assign
  cases haddr : m'.addresses[id]? with
  | none =>
    refine iff_of_false ?_ fun ⟨self, _⟩ => ?_
    · dsimp only
      split <;> nofun
    · obtain ⟨a, ha⟩ := ready.isSome_address_of_isSelfAssignment ok self
      exact nomatch haddr.symm.trans ha
  | some a =>
    obtain ⟨f, g, hcur, reached, filled⟩ := ready.assign_reaches ok haddr
    dsimp only
    rw [Store.bind_frameAt? (by rw [hcur]; exact reached)]
    by_cases hslot : a.slot < m'.store.count g
    · rw [if_pos hslot]
      exact iff_of_false nofun fun ⟨self, _⟩ => filled.1 hslot self
    · have self : L.isSelfAssignment id := Classical.not_not.1 fun other => hslot (filled.2 other)
      rw [if_neg hslot]
      constructor
      · intro missed
        cases missed
        exact ⟨self, rfl, rfl⟩
      · rintro ⟨-, rfl, rfl⟩
        rfl

end Found

/-- Whatever a task visits stands where the legend says it does. -/
theorem Ready.visit {L : Legend} {steps steps' : Nat} {t t' : Task} {m m' : Machine}
    (visits : Visits steps t m steps' t' m') (ready : Ready L m t) : Ready L m' t' := by
  induction visits with
  | here => exact ready
  | deeper spawns _ ih => exact ih (ready.spawn spawns)

/-! ## Histories -/

/-- **Something that is done with a session.** Units are numbered in the order in
which they were compiled, and an execution is given a number of steps. -/
inductive Operation where
  | compile (source : String)
  | run (source : String) (steps : Nat)
  | execute (unit : Nat) (steps : Nat)
  | reset

/-- A session, and the units that were compiled in it. -/
structure History where
  session : Session
  units : List Program := []

namespace History

/-- **Performing an operation.** There is no result if there is no such unit, or
if the steps do not suffice. -/
def perform? (h : History) : Operation → Option History
  | .compile source =>
    let (unit?, session) := h.session.compile source
    some ⟨session, h.units ++ unit?.toList⟩
  | .run source steps =>
    (h.session.run? steps source).map fun session =>
      ⟨session, h.units ++ (h.session.compile source).1.toList⟩
  | .execute unit steps =>
    h.units[unit]?.bind fun program =>
      (h.session.execute? steps program).map fun session => ⟨session, h.units⟩
  | .reset => some ⟨h.session.reset, h.units⟩

/-- Performing operations one after the other. -/
def performAll? (h : History) : List Operation → Option History
  | [] => some h
  | operation :: rest => (h.perform? operation).bind fun h => h.performAll? rest

theorem performAll?_compile {h : History} {s : Session} {source : String}
    {unit? : Option Program} (compiled : h.session.compile source = (unit?, s)) :
    h.performAll? [.compile source] = some ⟨s, h.units ++ unit?.toList⟩ := by
  show ((match h.session.compile source with
    | (unit?, session) => some (History.mk session (h.units ++ unit?.toList))).bind _) = _
  rw [compiled]
  rfl

/-- **What holds between operations.** -/
structure Sound (h : History) : Prop where
  consistent : h.session.Consistent h.units
  current : h.session.machine.current = none
  alike : ∃ w n, Alike (h.session.legend h.units) w h.session.machine n

theorem sound_fresh (policy : Policy) (out err : Sink) (clock : Nat → Nat) :
    Sound ⟨.fresh policy out err clock, []⟩ where
  consistent := Session.consistent_fresh policy out err clock
  current := rfl
  alike := ⟨_, _, alike_fresh _ out clock {} fun _ => rfl⟩

variable {h h' : History} {s : Session} {source : String} {program : Program} {steps : Nat}

theorem Sound.compile (sound : h.Sound) {unit? : Option Program}
    (compiled : h.session.compile source = (unit?, s)) : Sound ⟨s, h.units ++ unit?.toList⟩ := by
  obtain ⟨w, n, alike⟩ := sound.alike
  cases unit? with
  | some program =>
    have c := Session.compiled_of_compile compiled
    have machine : s.machine = { h.session.machine with addresses := s.machine.addresses } := by
      rw [c.machine_eq]
      rfl
    refine ⟨c.consistent sound.consistent, ?_, w, n, ?_⟩
    · show s.machine.current = none
      rw [machine]
      exact sound.current
    · have extended := alike.extend (c.extends h.units) s.machine.addresses fun _ => rfl
      rw [← machine] at extended
      exact extended
  | none =>
    obtain ⟨machine, read⟩ := Session.of_compile_eq_none compiled
    obtain ⟨consistent, wider⟩ := sound.consistent.of_eq machine read
    have same : h.units ++ (none : Option Program).toList = h.units := List.append_nil _
    rw [same]
    refine ⟨consistent, ?_, w, n, ?_⟩
    · show s.machine.current = none
      rw [machine]
      exact sound.current
    · have extended := alike.extend wider s.machine.addresses fun _ => rfl
      rw [machine] at extended
      show Alike _ w s.machine n
      rw [machine]
      exact extended

theorem Sound.execute (sound : h.Sound) (hunit : program ∈ h.units)
    (executed : h.session.execute? steps program = some s) : Sound ⟨s, h.units⟩ := by
  obtain ⟨w, n, alike⟩ := sound.alike
  have agrees := Machine.run?_agrees alike sound.current (sound.consistent.known _ hunit) steps
  obtain ⟨⟨report, m⟩, hrun, rfl⟩ := Option.map_eq_some_iff.1 executed
  rw [hrun] at agrees
  generalize n.run? steps program = r' at agrees
  cases agrees with
  | @some _ ended agree =>
    obtain ⟨w', alike'⟩ := agree.alike
    -- a run changes no address, so the legend is the one from before
    have legend : Session.legend { h.session with machine := m } h.units
        = h.session.legend h.units := by
      unfold Session.legend
      congr 1
      funext id
      exact alike'.addresses id
    refine ⟨⟨fun id hid => ?_, fun unit hunit => ?_⟩, Machine.current_of_run? hrun, w', ended.2, ?_⟩
    · exact (alike'.addresses id).trans (sound.consistent.unaddressed id hid)
    · show BodyKnown (Session.legend { h.session with machine := m } h.units) [] unit
      rw [legend]
      exact sound.consistent.known unit hunit
    · show Alike (Session.legend { h.session with machine := m } h.units) w' m ended.2
      rw [legend]
      exact alike'

/-- **Every operation keeps what holds between operations.** -/
theorem Sound.perform (sound : h.Sound) {operation : Operation}
    (performed : h.perform? operation = some h') : h'.Sound := by
  cases operation with
  | compile source =>
    cases performed
    exact sound.compile rfl
  | run source steps =>
    obtain ⟨s, hrun, rfl⟩ := Option.map_eq_some_iff.1 performed
    unfold Session.run? at hrun
    generalize hcompile : h.session.compile source = compiled at hrun
    obtain ⟨unit?, s'⟩ := compiled
    have sound' := sound.compile hcompile
    cases unit? with
    | some program =>
      have last : program ∈ h.units ++ [program] :=
        List.mem_append_right _ (List.mem_singleton_self _)
      exact sound'.execute last hrun
    | none =>
      cases hrun
      exact sound'
  | execute unit steps =>
    obtain ⟨program, hunit, result⟩ := Option.bind_eq_some_iff.1 performed
    obtain ⟨s, executed, rfl⟩ := Option.map_eq_some_iff.1 result
    exact sound.execute (List.mem_of_getElem? hunit) executed
  | reset =>
    cases performed
    exact ⟨⟨sound.consistent.unaddressed, sound.consistent.known⟩, sound.current, sound.alike⟩

/-- So it holds after any number of operations. -/
theorem Sound.performAll (sound : h.Sound) {operations : List Operation}
    (performed : h.performAll? operations = some h') : h'.Sound := by
  induction operations generalizing h with
  | nil =>
    cases performed
    exact sound
  | cons operation rest ih =>
    obtain ⟨h₁, first, later⟩ := Option.bind_eq_some_iff.1 performed
    exact ih (sound.perform first) later

/-- Executing any of the units is ready to begin. -/
theorem Sound.ready (sound : h.Sound) (hunit : program ∈ h.units) :
    Ready (h.session.legend h.units) h.session.machine (.body program) := by
  obtain ⟨w, n, alike⟩ := sound.alike
  have running : Running h.session.machine.store w [] h.session.machine.current none := by
    rw [sound.current]
    exact .atTop
  exact .body alike running (sound.consistent.known program hunit)

end History

/-- A run reports a missing variable exactly if executing its statements halts
for that reason. -/
theorem Machine.run?_missing_iff {m : Machine} {steps line : Nat} {x : String} {program : Program} :
    (∃ m', m.run? steps program = some (some (.runtime line (.missingLocal x)), m'))
      ↔ Task.halt? steps m (.body program) = some (.missing line x) := by
  show _ ↔ haltOf (executeAll steps program m) = _
  unfold Machine.run?
  cases executeAll steps program m with
  | ok flow m' =>
    refine iff_of_false ?_ nofun
    rintro ⟨m'', same⟩
    have report := congrArg Prod.fst (Option.some.inj same)
    obtain ⟨reason, -, wrong⟩ := Option.map_eq_some_iff.1 report
    exact nomatch wrong
  | error halt m' =>
    cases halt with
    | fault report =>
      constructor
      · rintro ⟨m'', same⟩
        cases same
        rfl
      · intro same
        cases same
        exact ⟨_, rfl⟩
    | exhausted => exact iff_of_false (fun ⟨_, same⟩ => nomatch same) nofun

/-- **An execution that assigns a local variable in its own initializer**, and
gets as far as to the assignment. -/
def AssignsOwn (units : List Program) (m : Machine) (steps : Nat) (unit : Program) (line : Nat)
    (x : String) : Prop :=
  ∃ k id name e m' v m'', Visits steps (.body unit) m (k + 1) (.expression (.assign id name e)) m'
    ∧ evaluate k e m' = .ok v m'' ∧ (∃ u ∈ units, id ∈ selfAssignments u)
    ∧ line = name.line ∧ x = name.lexeme

/-! ## The exact conditions -/

/-- **A read never misses its variable.** After any operations, in any execution
of any unit, a variable with an address that is evaluated finds its frame and a
value in it; so no read ends with the report that a variable is missing. -/
theorem read_finds_variable (policy : Policy) (out err : Sink) (clock : Nat → Nat)
    (operations : List Operation) {h : History}
    (performed : History.performAll? ⟨.fresh policy out err clock, []⟩ operations = some h)
    {unit : Program} (hunit : unit ∈ h.units) (steps : Nat)
    {steps' : Nat} {id : OccurrenceId} {name : Token} {m : Machine}
    (visits : Visits steps (.body unit) h.session.machine steps' (.expression (.var id name)) m) :
    (∀ a, m.addresses[id]? = some a →
      ∃ f g, m.current = some f ∧ m.store.ancestor? f a.distance = some g
        ∧ a.slot < m.store.count g)
    ∧ ∀ line x m', evaluate steps' (.var id name) m
        ≠ .error (.fault (.runtime line (.missingLocal x))) m' := by
  have sound := (History.sound_fresh policy out err clock).performAll performed
  have ready := (sound.ready hunit).visit visits
  have reaches := fun a (address : m.addresses[id]? = some a) => ready.read_reaches address
  refine ⟨reaches, fun line x m' missed => ?_⟩
  cases steps' with
  | zero => exact nomatch missed
  | succ k =>
    have halted : haltOf (Eval.lookup id name m) = some (.missing line x) := by
      show haltOf (evaluate (k + 1) (.var id name) m) = _
      rw [missed]
      rfl
    exact lookup_ne_missing reaches halted

/-- The function is read in the frame that has grown since it was made. -/
theorem read_finds_variable_growing_frame :
    ∃ h m, History.performAll? ⟨.fresh {} {} {} fun _ => 0, []⟩ [.compile growingFrame] = some h
      ∧ growingFrameProgram ∈ h.units
      ∧ Visits 9 (.body growingFrameProgram) h.session.machine 2
        (.expression (.var 1 (.onLine 1 .identifier "f"))) m
      ∧ m.addresses[1]? = some ⟨0, 1⟩
      ∧ ∃ f g, m.current = some f ∧ m.store.ancestor? f 0 = some g ∧ 1 < m.store.count g := by
  obtain ⟨s, compiled⟩ := compile_growingFrame
  have performed := History.performAll?_compile
    (h := ⟨.fresh {} {} {} fun _ => 0, []⟩) compiled
  have member : growingFrameProgram ∈ [] ++ [growingFrameProgram] := List.mem_singleton_self _
  have known := (Session.compiled_of_compile compiled).bodyKnown
    (Session.consistent_fresh {} {} {} fun _ => 0)
  have address : s.machine.addresses[1]? = some ⟨0, 1⟩ :=
    (known.covered ⟨⟨1, .onLine 1 .identifier "f", true⟩, [["b", "f", "a"]], some "b"⟩
      (List.mem_cons_of_mem _ List.mem_cons_self)).address
  have visits : Visits 9 (.body growingFrameProgram) s.machine 2
      (.expression (.var 1 (.onLine 1 .identifier "f"))) _ :=
    .deeper .statement (.deeper .block (.deeper (.body rfl) (.deeper (.body rfl)
      (.deeper .statement (.deeper .initializer (.deeper .callee .here))))))
  have found := (read_finds_variable {} {} {} (fun _ => 0) [.compile growingFrame] performed
    member 9 visits).1 ⟨0, 1⟩ address
  exact ⟨_, _, performed, member, visits, address, found⟩

/-- **An assignment misses its variable exactly if it stands in the initializer of
that variable.** Whenever an assignment with an address is performed, the frame
that it leads to is there, and the slot is there unless the variable is local
and being initialized; and a run reports that a variable is missing exactly if
it performs such an assignment. -/
theorem assignment_misses_iff (policy : Policy) (out err : Sink) (clock : Nat → Nat)
    (operations : List Operation) {h : History}
    (performed : History.performAll? ⟨.fresh policy out err clock, []⟩ operations = some h)
    {unit : Program} (hunit : unit ∈ h.units) (steps : Nat) :
    (∀ {k : Nat} {id : OccurrenceId} {name : Token} {e : Expr} {m m' : Machine} {v : Value},
      Visits steps (.body unit) h.session.machine (k + 1) (.expression (.assign id name e)) m →
      evaluate k e m = .ok v m' → ∀ a, m'.addresses[id]? = some a →
      ∃ f g, m'.current = some f ∧ m'.store.ancestor? f a.distance = some g
        ∧ (a.slot < m'.store.count g ↔ ¬ ∃ u ∈ h.units, id ∈ selfAssignments u))
    ∧ ∀ line x, (∃ m', h.session.machine.run? steps unit
          = some (some (.runtime line (.missingLocal x)), m'))
        ↔ AssignsOwn h.units h.session.machine steps unit line x := by
  have sound := (History.sound_fresh policy out err clock).performAll performed
  have ready := sound.ready hunit
  refine ⟨fun visits evaluated a address => ?_, fun line x => ?_⟩
  · exact (ready.visit visits).assign_reaches evaluated address
  · rw [Machine.run?_missing_iff]
    constructor
    · intro halted
      rcases exists_visit_of_missing halted with ⟨k, id, name, m', visits, missed⟩ |
        ⟨k, id, name, e, m', v, m'', visits, evaluated, missed⟩
      · refine absurd missed (lookup_ne_missing fun a address => ?_)
        exact (ready.visit visits).read_reaches address
      · exact ⟨k, id, name, e, m', v, m'', visits, evaluated,
          ((ready.visit visits).assign_missing_iff evaluated).1 missed⟩
    · rintro ⟨k, id, name, e, m', v, m'', visits, evaluated, self⟩
      refine visits.halt? ((haltOf_bind _ _ _ _).2 (.inr ⟨v, m'', evaluated, ?_⟩))
      refine (haltOf_bind _ _ _ _).2 (.inl ?_)
      exact ((ready.visit visits).assign_missing_iff evaluated).2 self

/-- A local variable is assigned in its own initializer. -/
def ownInitializer : String := "\x7b var a = (a = true); print a; \x7d"

def ownInitializerTokens : List Token :=
  [.onLine 1 .leftBrace "\x7b",
    .onLine 1 .varWord "var", .onLine 1 .identifier "a", .onLine 1 .equal "=",
    .onLine 1 .leftParen "(", .onLine 1 .identifier "a", .onLine 1 .equal "=",
    .onLine 1 .trueWord "true", .onLine 1 .rightParen ")", .onLine 1 .semicolon ";",
    .onLine 1 .printWord "print", .onLine 1 .identifier "a", .onLine 1 .semicolon ";",
    .onLine 1 .rightBrace "\x7d", .endOfInput 1]

def ownInitializerProgram : Program :=
  [.block [
    .var (.onLine 1 .identifier "a")
      (.group (.assign 1 (.onLine 1 .identifier "a") (.literal (.bool true)))),
    .print (.var 2 (.onLine 1 .identifier "a"))]]

theorem compile_ownInitializer :
    ∃ s, (Session.fresh {} {} {} fun _ => 0).compile ownInitializer
      = (some ownInitializerProgram, s) := by
  have scanned : scan ownInitializer = ownInitializerTokens.map Item.token := by
    decide +kernel
  have parsed : parse ownInitializerTokens 0 = ⟨ownInitializerProgram, 3, []⟩ := by
    cbv
  exact Session.exists_compile rfl scanned parsed (by decide)

/-- Executing the program performs the assignment, in the frame of the block. -/
theorem visits_ownInitializer (m : Machine) :
    Visits 8 (.body ownInitializerProgram) m 3
      (.expression (.assign 1 (.onLine 1 .identifier "a") (.literal (.bool true))))
      (m.enter { parent := m.current }) :=
  .deeper .statement (.deeper .block (.deeper .statement (.deeper .initializer
    (.deeper .inner .here))))

/-- The assignment is in the initializer of its variable, and the run misses it. -/
theorem assignment_misses_iff_own_initializer :
    ∃ h, History.performAll? ⟨.fresh {} {} {} fun _ => 0, []⟩ [.compile ownInitializer] = some h
      ∧ ownInitializerProgram ∈ h.units
      ∧ AssignsOwn h.units h.session.machine 8 ownInitializerProgram 1 "a"
      ∧ ∃ m, h.session.machine.run? 8 ownInitializerProgram
        = some (some (.runtime 1 (.missingLocal "a")), m) := by
  obtain ⟨s, compiled⟩ := compile_ownInitializer
  have performed := History.performAll?_compile
    (h := ⟨.fresh {} {} {} fun _ => 0, []⟩) compiled
  have member : ownInitializerProgram ∈ [] ++ [ownInitializerProgram] :=
    List.mem_singleton_self _
  have assigns : AssignsOwn ([] ++ [ownInitializerProgram]) s.machine 8
      ownInitializerProgram 1 "a" := by
    refine ⟨2, 1, _, _, _, _, _, visits_ownInitializer s.machine, rfl, ⟨_, member, ?_⟩, rfl, rfl⟩
    decide
  exact ⟨_, performed, member, assigns, ((assignment_misses_iff {} {} {} (fun _ => 0)
    [.compile ownInitializer] performed member 8).2 1 "a").2 assigns⟩

/-- **A compiled program can miss a variable that it assigns.** The assignment has
an address, and the run ends with the report that the variable is missing. -/
theorem assignment_in_own_initializer_misses :
    ∃ s, (Session.fresh {} {} {} fun _ => 0).compile ownInitializer
        = (some ownInitializerProgram, s)
      ∧ s.machine.addresses[1]? = some ⟨0, 0⟩
      ∧ ∃ m, s.machine.run? 8 ownInitializerProgram
        = some (some (.runtime 1 (.missingLocal "a")), m) := by
  obtain ⟨s, compiled⟩ := compile_ownInitializer
  have known := (Session.compiled_of_compile compiled).bodyKnown
    (Session.consistent_fresh {} {} {} fun _ => 0)
  have address : s.machine.addresses[1]? = some ⟨0, 0⟩ :=
    (known.covered ⟨⟨1, .onLine 1 .identifier "a", false⟩, [["a"]], some "a"⟩
      List.mem_cons_self).address
  -- the frame of the block is still empty
  have target : (s.machine.enter { parent := s.machine.current }).current.bind
      ((s.machine.enter { parent := s.machine.current }).store.frameAt? · 0 0) = none := by
    show (some s.machine.store.next).filter
      (0 < (s.machine.store.allocate { parent := s.machine.current }).count ·) = none
    rw [Option.filter_some, s.machine.store.count_allocate_next]
    rfl
  refine ⟨s, compiled, address, Machine.run?_missing_iff.2 ?_⟩
  refine (visits_ownInitializer s.machine).halt? ?_
  refine (haltOf_bind _ _ _ _).2 (.inr ⟨_, _, rfl, (haltOf_bind _ _ _ _).2 (.inl ?_)⟩)
  unfold Eval.assign
  rw [show (s.machine.enter _).addresses[1]? = some ⟨0, 0⟩ from address]
  dsimp only
  rw [target]
  rfl

end Kix
