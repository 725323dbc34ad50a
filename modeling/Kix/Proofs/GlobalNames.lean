import Kix.Proofs.Aspects
import Kix.Proofs.Completion
import Kix.Proofs.MissingVariables

/-!
# The names of globals

Globals live in a table, locals in frames, and there is one way into the table: a declaration
that is executed while no frame is current. Blocks and calls open frames, and the reader lets
declarations stand in bodies only. So the statements at the top of a program are the only ones
that make globals, and assignments change those that are there.

What is in the table is said at every **stage**, and not only between operations. A stage of
the execution of a program (`Machine.Stage`) is given by the statements at the top that are
completed, and by the machine: between two statements, when something that a statement performs
begins or ends, or when a statement has stopped the execution. The stages of a session
(`History.Stage`) are those of the executions in it, and those between its operations.

The main statement, `globals_are_declared_names`: at every stage of every session the names of
globals are those of the native functions and those that completed statements have declared.
-/

namespace Kix

open Eval

/-! ## Stages -/

/-- **A stage in the execution of a program**, with the statements at its top that are completed
by then. -/
inductive Machine.Stage (m : Machine) (program : Program) : List Stmt → Machine → Prop where
  /-- No statement is being executed. -/
  | between {done rest : List Stmt} {m' : Machine} (parts : program = done ++ rest)
    (before : Completes m done m') : Stage m program done m'
  /-- A statement is being executed, and something that it performs begins. -/
  | begins {done rest : List Stmt} {s : Stmt} {m₁ m' : Machine} {steps k : Nat} {t : Task}
    (parts : program = done ++ s :: rest) (before : Completes m done m₁)
    (visits : Visits steps (.statement s) m₁ k t m') : Stage m program done m'
  /-- A statement is being executed, and something that it performs has ended. -/
  | ends {done rest : List Stmt} {s : Stmt} {m₁ m₂ m₃ : Machine} {steps k : Nat} {t t' : Task}
    (parts : program = done ++ s :: rest) (before : Completes m done m₁)
    (spawns : Spawns steps (.statement s) m₁ t m₂) (visits : Visits steps t m₂ k t' m₃) :
    Stage m program done (t'.left k m₃)
  /-- A statement has ended, but it is not completed. -/
  | stops {done rest : List Stmt} {s : Stmt} {m₁ : Machine} {steps : Nat}
    (parts : program = done ++ s :: rest) (before : Completes m done m₁)
    (stopped : ∀ m', execute steps s m₁ ≠ .ok .normal m') :
    Stage m program done (left (execute steps s m₁))

/-- **The statements at the top of a program that are completed** when it is executed with a
number of steps. -/
def Machine.completed (m : Machine) : Nat → Program → List Stmt
  | 0, _ | _, [] => []
  | steps + 1, s :: rest =>
    match execute steps s m with
    | .ok .normal m' => s :: m'.completed steps rest
    | _ => []

/-- The number of steps that an operation is given. -/
def Operation.steps : Operation → Nat
  | .run _ steps | .execute _ steps => steps
  | .compile _ | .reset => 0

namespace History

/-- The program that an operation executes, and the machine on which it does. -/
def executed? (h : History) : Operation → Option (Machine × Program)
  | .run source _ =>
    match h.session.compile source with
    | (some program, s) => some (s.machine, program)
    | (none, _) => none
  | .execute unit _ => h.units[unit]?.map fun program => (h.session.machine, program)
  | .compile _ | .reset => none

/-- The statements that an operation completes. -/
def completed (h : History) (operation : Operation) : List Stmt :=
  match h.executed? operation with
  | some (m, program) => m.completed operation.steps program
  | none => []

/-- The statements that operations complete, one operation after the other. -/
def completedAll (h : History) : List Operation → List Stmt
  | [] => []
  | operation :: rest =>
    h.completed operation ++
      match h.perform? operation with
      | some h' => h'.completedAll rest
      | none => []

/-- **A stage in a session** in which operations are performed, with the statements that are
completed by then. -/
inductive Stage : History → List Operation → List Stmt → Machine → Prop where
  /-- Nothing is being performed. -/
  | now {h : History} {operations : List Operation} : Stage h operations [] h.session.machine
  /-- A program is being executed. -/
  | during {h : History} {operation : Operation} {rest : List Operation} {m m' : Machine}
    {program : Program} {done : List Stmt} (executing : h.executed? operation = some (m, program))
    (stage : m.Stage program done m') : Stage h (operation :: rest) done m'
  /-- The first operation has been performed. -/
  | later {h h' : History} {operation : Operation} {rest : List Operation} {m : Machine}
    {done : List Stmt} (performed : h.perform? operation = some h')
    (stage : Stage h' rest done m) : Stage h (operation :: rest) (h.completed operation ++ done) m

/-- A stage after some operations is one of the whole session. -/
theorem Stage.after {h h' : History} {operations rest : List Operation} {m : Machine}
    {done : List Stmt} (performed : h.performAll? operations = some h')
    (stage : h'.Stage rest done m) :
    h.Stage (operations ++ rest) (h.completedAll operations ++ done) m := by
  induction operations generalizing h with
  | nil =>
    cases performed
    exact stage
  | cons operation others ih =>
    obtain ⟨h₁, first, performed⟩ := Option.bind_eq_some_iff.1 performed
    rw [completedAll, first, List.append_assoc]
    exact .later first (ih performed)

end History

/-! ## The end of an execution is a stage -/

section Ends

variable {m m₁ m' : Machine} {s : Stmt} {program : Program} {done : List Stmt}

/-- One more statement in front, which ended normally. -/
theorem Machine.Stage.cons {steps : Nat} (first : execute steps s m = .ok .normal m₁)
    (stage : m₁.Stage program done m') : m.Stage (s :: program) (s :: done) m' := by
  cases stage with
  | between parts before => exact .between (congrArg _ parts) (.cons first before)
  | begins parts before visits => exact .begins (congrArg _ parts) (.cons first before) visits
  | ends parts before spawns visits =>
    exact .ends (congrArg _ parts) (.cons first before) spawns visits
  | stops parts before stopped => exact .stops (congrArg _ parts) (.cons first before) stopped

/-- What is left of an execution is a stage of it. -/
theorem Machine.stage_of_executeAll (m : Machine) (steps : Nat) (program : Program) :
    m.Stage program (m.completed steps program) (left (executeAll steps program m)) := by
  have unchanged : m.Stage program [] m := .between rfl .nil
  induction program generalizing m steps with
  | nil => cases steps <;> exact unchanged
  | cons s rest ih =>
    cases steps with
    | zero => exact unchanged
    | succ steps =>
      have stops (stopped : ∀ m', execute steps s m ≠ .ok .normal m') :
          m.Stage (s :: rest) [] (left (execute steps s m)) := .stops rfl .nil stopped
      rw [executeAll, Machine.completed]
      cases first : execute steps s m with
      | ok flow m₁ =>
        rw [bind_of_ok first]
        rw [first] at stops
        cases flow with
        | normal => exact (ih m₁ steps (.between rfl .nil)).cons first
        | returned value => exact stops fun _ same => by cases same
      | error halt m₁ =>
        rw [bind_of_error first]
        rw [first] at stops
        exact stops fun _ same => by cases same

end Ends

/-! ## What a program adds -/

/-- The names that statements declare in the scope around them. -/
def declaredNames (body : List Stmt) : List String :=
  body.filterMap fun s => s.declared?.map Token.lexeme

/-- **The globals of a machine with some more names.** -/
def Machine.Gains (m : Machine) (names : List String) (m' : Machine) : Prop :=
  ∀ name, name ∈ m'.globals ↔ name ∈ m.globals ∨ name ∈ names

namespace Machine.Gains

variable {m m' m'' : Machine} {names names' : List String}

theorem nothing (same : ∀ name, name ∈ m'.globals ↔ name ∈ m.globals) : m.Gains [] m' := by
  intro name
  rw [same name, or_iff_left List.not_mem_nil]

/-- What is gained twice is gained. -/
theorem trans (h : m.Gains names m') (h' : m'.Gains names' m'') :
    m.Gains (names ++ names') m'' := by
  intro name
  rw [h' name, h name, List.mem_append, or_assoc]

end Machine.Gains

/-- **The names of globals**: a declaration changes them in the global scope only, and assigning
a global does not add it. -/
def Aspect.globalNames : Aspect where
  Same m m' := ∀ name, name ∈ m'.globals ↔ name ∈ m.globals
  Inert current := current ≠ none
  Here _ := True
  refl _ _ := Iff.rfl
  trans h h' name := (h' name).trans (h name)
  here _ _ := trivial
  put _ _ _ := Iff.rfl
  readClock _ _ := Iff.rfl
  close _ _ := Iff.rfl
  set _ _ _ _ _ := Iff.rfl
  setGlobal m name value known name' := by
    rw [Std.HashMap.mem_insert, beq_iff_eq, or_iff_right_iff_imp]
    rintro rfl
    exact Std.HashMap.contains_iff_mem.1 known
  define m name value _ inert name' := by
    obtain ⟨f, current⟩ := Option.ne_none_iff_exists'.1 inert
    unfold Eval.define
    rw [current]
    exact Iff.rfl
  enter m frame _ := ⟨fun _ => Iff.rfl, nofun⟩
  leave _ _ _ := Iff.rfl

section Programs

variable {m m' : Machine} {s : Stmt} {steps : Nat}

/-- What a statement performs finds the globals under the names that they had before, and declares
nothing itself or does it in a frame. A declaration performs its initializer at most. -/
theorem globalNames_spawn {t : Task} (placed : s.Placed)
    (spawns : Spawns steps (.statement s) m t m') :
    Aspect.globalNames.Same m m' ∧ (t.Quiet ∨ Aspect.globalNames.Inert m'.current) := by
  cases s with
  | var name initializer =>
    cases spawns
    exact ⟨Aspect.globalNames.refl m, .inl trivial⟩
  | function name params body => cases spawns
  | _ => exact Aspect.globalNames.spawn spawns trivial (.inl ⟨rfl, placed⟩)

/-- So whatever it performs inside finds and leaves these names. -/
theorem globalNames_inside {t t' : Task} {m₁ : Machine} {k : Nat} (placed : s.Placed)
    (spawns : Spawns steps (.statement s) m t m₁) (visits : Visits steps t m₁ k t' m') :
    Aspect.globalNames.Same m m' ∧ Aspect.globalNames.Same m (t'.left k m') := by
  obtain ⟨begun, settled⟩ := globalNames_spawn placed spawns
  obtain ⟨there, settled⟩ := Aspect.globalNames.visit visits trivial settled
  have found := Aspect.globalNames.trans begun there
  have kept := Aspect.globalNames.kept_left k t' m'
  exact ⟨found, Aspect.globalNames.trans found (kept.same trivial settled)⟩

/-- A statement that is not completed adds no global. -/
theorem globalNames_of_stopped (placed : s.Placed)
    (stopped : ∀ m', execute steps s m ≠ .ok .normal m') :
    Aspect.globalNames.Same m (left (execute steps s m)) := by
  cases declared : s.declared? with
  | none =>
    have kept := (Aspect.globalNames.undisturbed steps).execute s m
    exact kept.same trivial (.inl ⟨declared, placed⟩)
  | some name =>
    have declares := execute_declares declared steps m
    generalize execute steps s m = r at declares stopped
    cases declares with
    | declared before defined => exact absurd rfl (stopped _)
    | halted before => exact (before Aspect.globalNames).same trivial (.inl trivial)

/-- Declaring in the global scope adds the name to the globals. -/
theorem gains_define (current : m.current = none) {name : Token} {value : Value}
    (defined : Eval.define name value m = .ok () m') : m.Gains [name.lexeme] m' := by
  unfold Eval.define at defined
  rw [current] at defined
  cases defined
  intro name'
  rw [Std.HashMap.mem_insert, beq_iff_eq, List.mem_singleton, or_comm, eq_comm]

/-- **A statement at the top of a program**, when it is completed, has added the name that it
declares and no other. -/
theorem gains_execute (placed : s.Placed) (current : m.current = none)
    (h : execute steps s m = .ok .normal m') : m.Gains (declaredNames [s]) m' := by
  cases declared : s.declared? with
  | none =>
    have kept := ((Aspect.globalNames.undisturbed steps).execute s).of_ok h
    have names : declaredNames [s] = [] := by
      simp [declaredNames, declared]
    rw [names]
    exact .nothing (kept.same trivial (.inl ⟨declared, placed⟩))
  | some name =>
    have declares := execute_declares declared steps m
    have names : declaredNames [s] = [name.lexeme] := by
      simp [declaredNames, declared]
    rw [h] at declares
    rw [names]
    cases declares with
    | declared before defined =>
      have kept := before Aspect.globalNames
      exact (Machine.Gains.nothing (kept.same trivial (.inl trivial))).trans
        (gains_define (kept.current.trans current) defined)

/-- **Completed statements** have added the names that they declare. -/
theorem Completes.gains {body : List Stmt} (h : Completes m body m') (placed : bodyPlaced body)
    (current : m.current = none) : m.Gains (declaredNames body) m' ∧ m'.current = none := by
  induction h with
  | nil => exact ⟨.nothing fun _ => Iff.rfl, current⟩
  | @cons m m₁ m' s rest steps first others ih =>
    have begun := gains_execute placed.1 current first
    obtain ⟨gained, current'⟩ := ih placed.2 ((current_of_execute first).trans current)
    refine ⟨?_, current'⟩
    rw [← List.singleton_append, declaredNames, List.filterMap_append]
    exact begun.trans gained

theorem bodyPlaced_append {body rest : List Stmt} :
    bodyPlaced (body ++ rest) ↔ bodyPlaced body ∧ bodyPlaced rest := by
  induction body with
  | nil => exact (and_iff_right trivial).symm
  | cons s body ih =>
    rw [List.cons_append, bodyPlaced, bodyPlaced, ih, and_assoc]

/-- **At every stage of its execution** a program has added the names that its completed
statements declare. -/
theorem Machine.Stage.gains {program : Program} {done : List Stmt}
    (stage : m.Stage program done m') (placed : bodyPlaced program) (current : m.current = none) :
    m.Gains (declaredNames done) m' := by
  have after {m₁ : Machine} (gained : m.Gains (declaredNames done) m₁)
      (same : Aspect.globalNames.Same m₁ m') : m.Gains (declaredNames done) m' := by
    intro name
    rw [same name, gained name]
  cases stage with
  | between parts before =>
    subst parts
    exact (before.gains (bodyPlaced_append.1 placed).1 current).1
  | begins parts before visits =>
    subst parts
    obtain ⟨placed, placed'⟩ := bodyPlaced_append.1 placed
    have gained := (before.gains placed current).1
    cases visits with
    | here => exact gained
    | deeper spawns visits => exact after gained (globalNames_inside placed'.1 spawns visits).1
  | ends parts before spawns visits =>
    subst parts
    obtain ⟨placed, placed'⟩ := bodyPlaced_append.1 placed
    exact after (before.gains placed current).1 (globalNames_inside placed'.1 spawns visits).2
  | stops parts before stopped =>
    subst parts
    obtain ⟨placed, placed'⟩ := bodyPlaced_append.1 placed
    exact after (before.gains placed current).1 (globalNames_of_stopped placed'.1 stopped)

end Programs

/-! ## What operations add -/

namespace History

variable {h h' : History} {operation : Operation} {m : Machine} {program : Program}

theorem globals_compile (s : Session) (source : String) :
    (s.compile source).2.machine.globals = s.machine.globals := by
  rcases compiled : s.compile source with ⟨unit?, s'⟩
  cases unit? with
  | some program =>
    show s'.machine.globals = _
    rw [(Session.compiled_of_compile compiled).machine_eq]
    rfl
  | none =>
    show s'.machine.globals = _
    rw [(Session.of_compile_eq_none compiled).1]

/-- A program is executed in the global scope, on a machine with the globals of the session. -/
structure Executable (h : History) (m : Machine) (program : Program) : Prop where
  globals : m.globals = h.session.machine.globals
  current : m.current = none
  placed : bodyPlaced program

/-- What an operation executes can be executed. -/
theorem Sound.executable (sound : h.Sound) (executing : h.executed? operation = some (m, program)) :
    h.Executable m program := by
  cases operation with
  | run source steps =>
    have globals := globals_compile h.session source
    rw [executed?] at executing
    rcases compiled : h.session.compile source with ⟨unit?, s⟩
    rw [compiled] at executing globals
    cases unit? with
    | some unit =>
      cases executing
      have sound' := sound.compile compiled
      refine ⟨globals, sound'.current, (sound'.consistent.known program ?_).placed⟩
      exact List.mem_append_right _ (List.mem_singleton_self _)
    | none => exact nomatch executing
  | execute unit steps =>
    obtain ⟨unit, found, same⟩ := Option.map_eq_some_iff.1 executing
    cases same
    exact ⟨rfl, sound.current, (sound.consistent.known _ (List.mem_of_getElem? found)).placed⟩
  | compile | reset => exact nomatch executing

/-- An execution leaves the global variables that its statements leave. -/
theorem globals_execute {s s' : Session} {steps : Nat}
    (executed : s.execute? steps program = some s') :
    s'.machine.globals = (left (executeAll steps program s.machine)).globals := by
  obtain ⟨⟨report, m⟩, ran, rfl⟩ := Option.map_eq_some_iff.1 executed
  show m.globals = _
  unfold Machine.run? at ran
  cases ended : executeAll steps program s.machine with
  | ok flow m' =>
    rw [ended] at ran
    cases ran
    rfl
  | error halt m' =>
    rw [ended] at ran
    cases halt with
    | fault report =>
      cases ran
      rfl
    | exhausted => exact nomatch ran

/-- An operation leaves the globals as the program that it executes has left them, if there is
one, and otherwise as they were. -/
theorem globals_perform (performed : h.perform? operation = some h') :
    (h.executed? operation = none ∧ h'.session.machine.globals = h.session.machine.globals)
      ∨ ∃ m program, h.executed? operation = some (m, program)
        ∧ h'.session.machine.globals = (left (executeAll operation.steps program m)).globals := by
  cases operation with
  | compile source =>
    cases performed
    exact .inl ⟨rfl, globals_compile h.session source⟩
  | run source steps =>
    obtain ⟨s', ran, rfl⟩ := Option.map_eq_some_iff.1 performed
    have globals := globals_compile h.session source
    unfold Session.run? at ran
    rw [executed?]
    rcases compiled : h.session.compile source with ⟨unit?, s⟩
    rw [compiled] at ran globals
    cases unit? with
    | some program => exact .inr ⟨s.machine, program, rfl, globals_execute ran⟩
    | none =>
      cases ran
      exact .inl ⟨rfl, globals⟩
  | execute unit steps =>
    obtain ⟨program, found, performed⟩ := Option.bind_eq_some_iff.1 performed
    obtain ⟨s', executed, rfl⟩ := Option.map_eq_some_iff.1 performed
    refine .inr ⟨h.session.machine, program, ?_, globals_execute executed⟩
    rw [executed?, found]
    rfl
  | reset =>
    cases performed
    exact .inl ⟨rfl, rfl⟩

/-- **Every operation** adds the names that its completed statements declare. -/
theorem Sound.gains (sound : h.Sound) (performed : h.perform? operation = some h') :
    h.session.machine.Gains (declaredNames (h.completed operation)) h'.session.machine := by
  rcases globals_perform performed with ⟨none, same⟩ | ⟨m, program, executing, same⟩
  · rw [completed, none]
    exact .nothing fun name => by rw [same]
  · have executable := sound.executable executing
    have gained := (m.stage_of_executeAll operation.steps program).gains executable.placed
      executable.current
    rw [completed, executing]
    intro name
    rw [same, ← executable.globals]
    exact gained name

/-- **At every stage of a session** the completed statements have added the names that they
declare. -/
theorem Stage.gains {operations : List Operation} {done : List Stmt} (sound : h.Sound)
    (stage : h.Stage operations done m) : h.session.machine.Gains (declaredNames done) m := by
  induction stage with
  | now => exact .nothing fun _ => Iff.rfl
  | during executing stage =>
    have executable := sound.executable executing
    intro name
    rw [← executable.globals]
    exact stage.gains executable.placed executable.current name
  | later performed _ ih =>
    rw [declaredNames, List.filterMap_append]
    exact (sound.gains performed).trans (ih (sound.perform performed))

end History

/-! ## All names of globals -/

/-- **The global variables of a fresh session** are the built-in functions. -/
theorem mem_globals_fresh (policy : Policy) (out err : Sink) (clock : Nat → Nat) (name : String) :
    name ∈ (Session.fresh policy out err clock).machine.globals
      ↔ name ∈ ["clock", "print", "println"] := by
  have natives : name ∈ Std.HashMap.ofList (Native.all.map fun n => (n.name, Value.native n))
      ↔ (Native.all.map Native.name).contains name = true := by
    rw [Std.HashMap.mem_ofList, List.map_map]
    exact Iff.rfl
  exact natives.trans List.contains_iff_mem

/-- **The globals are the declared names.** After any operations, at any stage of performing
others, a name is that of a global exactly if it is that of a native function, or if a statement
at the top of a program that was completed by then declares it: blocks, loops, calls, parameters
and assignments add none. No global is lost, whatever is performed and however it ends. -/
theorem globals_are_declared_names (policy : Policy) (out err : Sink) (clock : Nat → Nat)
    (operations : List Operation) {h : History}
    (performed : History.performAll? ⟨.fresh policy out err clock, []⟩ operations = some h)
    {others : List Operation} {done : List Stmt} {m : Machine}
    (stage : h.Stage others done m) (name : String) :
    (name ∈ m.globals ↔ name ∈ ["clock", "print", "println"]
      ∨ name ∈ declaredNames (History.completedAll ⟨.fresh policy out err clock, []⟩ operations
          ++ done))
    ∧ (name ∈ h.session.machine.globals → name ∈ m.globals) := by
  have fresh := History.sound_fresh policy out err clock
  have gained := (stage.after performed).gains fresh name
  rw [mem_globals_fresh] at gained
  refine ⟨gained, fun known => ?_⟩
  exact (stage.gains (fresh.performAll performed) name).2 (.inl known)

/-- A global is declared, then a local, and then a call faults. -/
def localThenFault : String := "var a = true; \x7b var b = false; \x7d nil();"

/-- Its tokens. -/
def localThenFaultTokens : List Token :=
  [.onLine 1 .varWord "var", .onLine 1 .identifier "a", .onLine 1 .equal "=",
    .onLine 1 .trueWord "true", .onLine 1 .semicolon ";",
    .onLine 1 .leftBrace "\x7b", .onLine 1 .varWord "var", .onLine 1 .identifier "b",
    .onLine 1 .equal "=", .onLine 1 .falseWord "false", .onLine 1 .semicolon ";",
    .onLine 1 .rightBrace "\x7d",
    .onLine 1 .nilWord "nil", .onLine 1 .leftParen "(", .onLine 1 .rightParen ")",
    .onLine 1 .semicolon ";", .endOfInput 1]

/-- Its program. -/
def localThenFaultProgram : Program :=
  [.var (.onLine 1 .identifier "a") (.literal (.bool true)),
    .block [.var (.onLine 1 .identifier "b") (.literal (.bool false))],
    .expression (.call (.literal .nil) (.onLine 1 .rightParen ")") [])]

theorem compile_localThenFault :
    ∃ s, (Session.fresh {} {} {} fun _ => 0).compile localThenFault
      = (some localThenFaultProgram, s) := by
  have scanned : scan localThenFault = localThenFaultTokens.map Item.token := by
    decide +kernel
  have parsed : parse localThenFaultTokens 0 = ⟨localThenFaultProgram, 0, []⟩ := by
    cbv
  exact Session.exists_compile rfl scanned parsed (by decide)

/-- The first two statements of it end normally. -/
theorem completes_localThenFault {m : Machine} (current : m.current = none) :
    ∃ m', Completes m (localThenFaultProgram.take 2) m' := by
  obtain ⟨globals, store, current', addresses, nextClosure, out, clock, readings⟩ := m
  cases current
  exact ⟨_, .cons (show execute 2 _ _ = .ok .normal _ from rfl)
    (.cons (show execute 4 _ _ = .ok .normal _ from rfl) .nil)⟩

/-- When the call has faulted, the global is there and the local is not among the globals. -/
theorem globals_are_declared_names_local_then_fault :
    ∃ h m, History.performAll? ⟨.fresh {} {} {} fun _ => 0, []⟩ [.compile localThenFault] = some h
      ∧ h.Stage [.execute 0 9] (localThenFaultProgram.take 2) m
      ∧ "a" ∈ m.globals ∧ "b" ∉ m.globals ∧ "clock" ∈ m.globals := by
  obtain ⟨s, compiled⟩ := compile_localThenFault
  have performed := History.performAll?_compile
    (h := ⟨.fresh {} {} {} fun _ => 0, []⟩) compiled
  have sound := (History.sound_fresh {} {} {} fun _ => 0).performAll performed
  obtain ⟨m, before⟩ := completes_localThenFault sound.current
  have stops : s.machine.Stage localThenFaultProgram (localThenFaultProgram.take 2)
      (left (execute 3 _ m)) := .stops rfl before nofun
  have stage : History.Stage ⟨s, [] ++ [localThenFaultProgram]⟩ [.execute 0 9]
      (localThenFaultProgram.take 2) _ := .during rfl stops
  have names := globals_are_declared_names {} {} {} (fun _ => 0) [.compile localThenFault]
    performed stage
  exact ⟨_, _, performed, stage, (names "a").1.2 (by decide), mt (names "b").1.1 (by decide),
    (names "clock").1.2 (by decide)⟩

end Kix
