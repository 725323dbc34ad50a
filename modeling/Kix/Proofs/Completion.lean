import Kix.Proofs.ProgramRuns

/-!
# Programs run to their end

A `return` ends the statements around it, up to the nearest call, and at the top of a program
there is no call. The run of a program that returned there would end as if all were well, with
the rest of the program left out.

Resolving reports a `return` outside all functions. If it reports none, no statement of the
program returns, and running the program means executing its statements one after the other
(`Completes`), until all are completed or one of them faults (`Machine.Concludes`). Nothing else
can happen, and whatever happens so is what the run does (`return_never_escapes`).
-/

namespace Kix

/-- **Statements that are executed in order**, each to its normal end. -/
inductive Completes : Machine → List Stmt → Machine → Prop where
  | nil {m : Machine} : Completes m [] m
  | cons {m m₁ m' : Machine} {s : Stmt} {rest : List Stmt} {steps : Nat}
    (first : execute steps s m = .ok .normal m₁) (others : Completes m₁ rest m') :
    Completes m (s :: rest) m'

/-- **How the run of a program concludes**, with which report and on which machine. -/
inductive Machine.Concludes (m : Machine) (program : Program) : Option Report → Machine → Prop where
  /-- All statements are completed; then the output is flushed. -/
  | finished {m' : Machine} (all : Completes m program m') :
    Concludes m program (m'.out.flushFault.map .stream) { m' with current := none }
  /-- A statement faults when all before it are completed. -/
  | stopped {m₁ m' : Machine} {done rest : List Stmt} {s : Stmt} {steps : Nat} {report : Report}
    (parts : program = done ++ s :: rest) (before : Completes m done m₁)
    (fault : execute steps s m₁ = .error (.fault report) m') :
    Concludes m program (some report) { m' with current := none }

/-! ## From runs to statements -/

section Statements

variable {m m' : Machine} {report : Report}

/-- Statements that ended normally were completed. -/
theorem completes_of_executeAll {steps : Nat} {body : List Stmt}
    (ended : executeAll steps body m = .ok .normal m') : Completes m body m' := by
  induction body generalizing m steps with
  | nil =>
    cases steps with
    | zero => cases ended
    | succ steps =>
      cases ended
      exact .nil
  | cons s rest ih =>
    cases steps with
    | zero => cases ended
    | succ steps =>
      rw [executeAll] at ended
      cases first : execute steps s m with
      | ok flow m₁ =>
        rw [bind_of_ok first] at ended
        cases flow with
        | normal => exact .cons first (ih ended)
        | returned value => cases ended
      | error halt m₁ =>
        rw [bind_of_error first] at ended
        cases ended

/-- **Statements that ended by a report**: one of them made it, and those in front were
completed. -/
theorem exists_fault_of_executeAll {steps : Nat} {body : List Stmt}
    (ended : executeAll steps body m = .error (.fault report) m') :
    ∃ done s rest m₁ k, body = done ++ s :: rest ∧ Completes m done m₁
      ∧ execute k s m₁ = .error (.fault report) m' := by
  induction body generalizing m steps with
  | nil =>
    cases steps with
    | zero => cases ended
    | succ steps => cases ended
  | cons s rest ih =>
    cases steps with
    | zero => cases ended
    | succ steps =>
      rw [executeAll] at ended
      cases first : execute steps s m with
      | ok flow m₁ =>
        rw [bind_of_ok first] at ended
        cases flow with
        | normal =>
          obtain ⟨done, s', rest', m₂, k, rfl, before, fault⟩ := ih ended
          exact ⟨s :: done, s', rest', m₂, k, rfl, .cons first before, fault⟩
        | returned value => cases ended
      | error halt m₁ =>
        rw [bind_of_error first] at ended
        cases ended
        exact ⟨[], s, rest, m, steps, rfl, .nil, first⟩

/-! ## From statements to runs -/

/-- The steps for a body are enough for each of its statements. -/
theorem executeAll_cons_of_ok {k k' : Nat} {s : Stmt} {rest : List Stmt} {m₁ : Machine}
    {r : EStateM.Result Halt Machine Flow} (first : execute k s m = .ok .normal m₁)
    (others : executeAll (max k k') rest m₁ = r) :
    executeAll (max k k' + 1) (s :: rest) m = r := by
  have longer := ((lasting (Nat.le_max_left k k')).execute s).of_ok first
  rw [executeAll, bind_of_ok longer]
  exact others

/-- What is completed is completed with some number of steps. -/
theorem Completes.exists_executeAll {body : List Stmt} (h : Completes m body m') :
    ∃ steps, executeAll steps body m = .ok .normal m' := by
  induction h with
  | nil => exact ⟨1, rfl⟩
  | @cons m m₁ m' s rest k first others ih =>
    obtain ⟨k', ended⟩ := ih
    have longer := ((lasting (Nat.le_max_right k k')).executeAll rest).of_ok ended
    exact ⟨_, executeAll_cons_of_ok first longer⟩

theorem Completes.exists_executeAll_fault {m₁ : Machine} {done rest : List Stmt} {s : Stmt}
    {k : Nat} (before : Completes m done m₁)
    (fault : execute k s m₁ = .error (.fault report) m') :
    ∃ steps, executeAll steps (done ++ s :: rest) m = .error (.fault report) m' := by
  induction before with
  | nil =>
    refine ⟨k + 1, ?_⟩
    rw [List.nil_append, executeAll, bind_of_error fault]
  | @cons m m₁ m₂ s' done k first others ih =>
    obtain ⟨k', ended⟩ := ih fault
    have longer := ((lasting (Nat.le_max_right k k')).executeAll _).of_fault ended
    exact ⟨_, executeAll_cons_of_ok first longer⟩

end Statements

/-! ## Programs without a return -/

/-- **Running a program without a `return`** concludes in one of the two ways, and in none
other. -/
theorem Machine.exists_run?_iff_concludes {program : Program} (settled : bodyReturns program = false)
    (m : Machine) (report : Option Report) (m' : Machine) :
    (∃ steps, m.run? steps program = some (report, m')) ↔ m.Concludes program report m' := by
  constructor
  · rintro ⟨steps, ran⟩
    unfold Machine.run? at ran
    cases ended : executeAll steps program m with
    | ok flow m₁ =>
      rw [ended] at ran
      cases (settling steps).executeAll program settled m flow m₁ ended
      cases ran
      exact .finished (completes_of_executeAll ended)
    | error halt m₁ =>
      rw [ended] at ran
      cases halt with
      | fault r =>
        cases ran
        obtain ⟨done, s, rest, m₂, k, parts, before, fault⟩ := exists_fault_of_executeAll ended
        exact .stopped parts before fault
      | exhausted => exact nomatch ran
  · intro concluded
    cases concluded with
    | finished all =>
      obtain ⟨steps, ended⟩ := all.exists_executeAll
      refine ⟨steps, ?_⟩
      unfold Machine.run?
      rw [ended]
    | stopped parts before fault =>
      subst parts
      obtain ⟨steps, ended⟩ := before.exists_executeAll_fault fault
      refine ⟨steps, ?_⟩
      unfold Machine.run?
      rw [ended]

theorem Stmt.returns_eq_false_of_mem {s : Stmt} {body : List Stmt} (h : s ∈ body)
    (settled : bodyReturns body = false) : s.returns = false := by
  induction body with
  | nil => exact absurd h List.not_mem_nil
  | cons first rest ih =>
    rw [bodyReturns, Bool.or_eq_false_iff] at settled
    rcases List.mem_cons.1 h with rfl | later
    · exact settled.1
    · exact ih later settled.2

/-- **A `return` never escapes.** If resolving a program, under whichever policy, does not report
that a `return` stands outside all functions, then on every machine each of its statements that
yields a result ends normally. So a run of the program is the execution of all its statements in
order, unless one of them faults. -/
theorem return_never_escapes (policy : Policy) (program : Program)
    (silent : ∀ report ∈ (resolve policy program).reports,
      report.message ≠ "Can't return from outside function.") :
    (∀ s ∈ program, ∀ (m m' : Machine) (steps : Nat) (flow : Flow),
      execute steps s m = .ok flow m' → flow = .normal)
      ∧ ∀ (m m' : Machine) (report : Option Report),
        (∃ steps, m.run? steps program = some (report, m')) ↔ m.Concludes program report m' := by
  have settled : bodyReturns program = false :=
    bodyReturns_eq_false_of_silent policy fun keyword mem => silent _ mem rfl
  refine ⟨fun s hs m m' steps flow ended => ?_, fun m m' report => ?_⟩
  · exact (settling steps).execute s (Stmt.returns_eq_false_of_mem hs settled) m flow m' ended
  · exact Machine.exists_run?_iff_concludes settled m report m'

/-- A function that declares a parameter twice and returns from inside a loop. -/
def returningClosure : Closure where
  id := 0
  name := "f"
  params := [.onLine 1 .identifier "a", .onLine 1 .identifier "a"]
  body := [.loop (.literal (.bool true))
    (.block [.ret (.onLine 1 .returnWord "return") .absent])]
  scope := none

/-- Its declaration. -/
def returningLoop : Stmt :=
  .function (.onLine 1 .identifier "f") returningClosure.params returningClosure.body

/-- A call of that function. -/
def returningCall : Stmt :=
  .expression (.call (.var 0 (.onLine 2 .identifier "f"))
    (.onLine 2 .rightParen ")") [.literal .nil, .literal .nil])

/-- A call that faults. -/
def nilCall : Stmt :=
  .expression (.call (.literal .nil) (.onLine 3 .rightParen ")") [])

/-- The `return` goes as far as to the call. -/
theorem completes_returningCall : ∃ m, Completes {} [returningLoop, returningCall] m := by
  have found (globals : Std.HashMap String Value) (f : Value) :
      evaluate 7 (.var 0 (.onLine 2 .identifier "f"))
          { globals := globals.insert "f" f, nextClosure := 1 }
        = .ok f { globals := globals.insert "f" f, nextClosure := 1 } := by
    rw [evaluate, Eval.lookup, Std.HashMap.getElem?_empty]
    dsimp only [Token.onLine]
    rw [Std.HashMap.getElem?_insert_self]
  have called (globals : Std.HashMap String Value) : ∃ m, execute 9 returningCall
      { globals := globals.insert "f" (.closure returningClosure), nextClosure := 1 }
        = .ok .normal m := by
    rw [returningCall, execute, evaluate, bind_assoc, bind_of_ok (found _ _)]
    exact ⟨_, rfl⟩
  obtain ⟨m, called⟩ := called _
  exact ⟨m, .cons (show execute 1 returningLoop {} = .ok .normal _ from rfl) (.cons called .nil)⟩

/-- A call that faults stands behind the call that returns. It is executed, though a static
report was made about the program. -/
theorem return_never_escapes_returning_loop :
    (∀ report ∈ (resolve {} [returningLoop, returningCall, nilCall]).reports,
      report.message ≠ "Can't return from outside function.")
      ∧ (resolve {} [returningLoop, returningCall, nilCall]).reports.any Report.isStatic = true
      ∧ ∃ steps m', ({} : Machine).run? steps [returningLoop, returningCall, nilCall]
          = some (some (.runtime 3 .notCallable), m') := by
  have silent : ∀ report ∈ (resolve {} [returningLoop, returningCall, nilCall]).reports,
      report.message ≠ "Can't return from outside function." := by decide
  obtain ⟨m, before⟩ := completes_returningCall
  have concluded : ({} : Machine).Concludes [returningLoop, returningCall, nilCall]
    (some (.runtime 3 .notCallable)) _ := .stopped rfl before (show execute 3 nilCall m = _ from rfl)
  obtain ⟨steps, ran⟩ := ((return_never_escapes {} _ silent).2 _ _ _).2 concluded
  exact ⟨silent, by decide, steps, _, ran⟩

end Kix
