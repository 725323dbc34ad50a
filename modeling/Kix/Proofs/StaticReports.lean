import Kix.Proofs.Sites
import Kix.Session

/-!
# Compiling ends no run

Whatever scanning and reading have to report keeps a program from running
(`allStatic_lexicalReports`, `allStatic_parse`). Resolving makes scoping reports and
warnings, and no stage makes a report that ends a run. So compiling a unit, whether or not
it is accepted, leaves alone what a session remembers of its runs
(`Session.hadRuntimeError_compile`).
-/

namespace Kix

/-- **Reports of which none ends a run.** -/
def NoneEndsRun (reports : List Report) : Prop := ∀ r ∈ reports, r.isRuntime = false

namespace NoneEndsRun

variable {rs rs' : List Report}

theorem nil : NoneEndsRun [] := List.forall_mem_nil _

theorem cons {r : Report} (h : r.isRuntime = false) (h' : NoneEndsRun rs) :
    NoneEndsRun (r :: rs) :=
  List.forall_mem_cons.2 ⟨h, h'⟩

theorem append (h : NoneEndsRun rs) (h' : NoneEndsRun rs') : NoneEndsRun (rs ++ rs') :=
  List.forall_mem_append.2 ⟨h, h'⟩

theorem reverse (h : NoneEndsRun rs) : NoneEndsRun rs.reverse :=
  fun r hr => h r (List.mem_reverse.1 hr)

/-- No report among them ends a run, which is what the log asks. -/
theorem any_eq_false (h : NoneEndsRun rs) : rs.any Report.isRuntime = false :=
  List.any_eq_false.2 fun r hr => by rw [h r hr]; exact Bool.false_ne_true

end NoneEndsRun

/-- **Reports that all keep a program from running.** -/
def AllStatic (reports : List Report) : Prop := ∀ r ∈ reports, r.isStatic = true

namespace AllStatic

variable {rs rs' : List Report}

theorem append (h : AllStatic rs) (h' : AllStatic rs') : AllStatic (rs ++ rs') :=
  List.forall_mem_append.2 ⟨h, h'⟩

/-- A static report does not end a run. -/
theorem noneEndsRun (h : AllStatic rs) : NoneEndsRun rs := by
  intro r hr
  have static := h r hr
  cases r with
  | lexical | syntactic | scoping => rfl
  | warning | runtime | stream => exact nomatch static

/-- Where none of them is there, there are no reports. -/
theorem eq_nil (h : AllStatic rs) (none : rs.any Report.isStatic = false) : rs = [] :=
  List.eq_nil_iff_forall_not_mem.2 fun r hr => List.any_eq_false.1 none r hr (h r hr)

end AllStatic

/-! ## The stages -/

/-- Scanning makes static reports alone. -/
theorem allStatic_lexicalReports (source : String) : AllStatic (lexicalReports source) := by
  unfold lexicalReports scan
  generalize segments source.toList = segs, 1 = line
  induction segs generalizing line with
  | nil => exact List.forall_mem_nil _
  | cons s rest ih =>
    unfold itemsFrom
    dsimp only
    cases s with
    | stray c | openString cs | openComment cs => exact List.forall_mem_cons.2 ⟨rfl, ih _⟩
    | _ => exact ih _

/-- **So does parsing**: every report that a reader makes is about syntax. -/
theorem allStatic_parse (ts : List Token) (firstId : OccurrenceId) :
    AllStatic (parse ts firstId).reports := by
  obtain ⟨c, reads, -, reports⟩ := parse_reads ts firstId
  rw [reports]
  intro r hr
  exact (reads.advances.static r (List.mem_reverse.1 hr)).resolve_left List.not_mem_nil

namespace Resolution

variable {r : Resolution}

/-- Closing a scope reports unused variables, at most, by a warning or a static report. -/
theorem noneEndsRun_closeScope (h : NoneEndsRun r.reports) (policy : Policy) :
    NoneEndsRun (r.closeScope policy).reports := by
  unfold closeScope
  split
  · exact h
  · refine NoneEndsRun.append (fun report mem => ?_) h
    obtain ⟨b, -, unused⟩ := List.mem_filterMap.1 mem
    unfold unusedReport? at unused
    split at unused
    · nomatch unused
    · split at unused <;> cases unused <;> rfl

/-- Declaring a name reports, at most, that it is declared twice. -/
theorem noneEndsRun_declare (h : NoneEndsRun r.reports) (name : Token) (isFunction : Bool) :
    NoneEndsRun (r.declare name isFunction).reports := by
  unfold declare
  split
  · exact h
  · dsimp only
    split
    · exact .cons rfl h
    · exact h

theorem noneEndsRun_define (h : NoneEndsRun r.reports) (name : Token) :
    NoneEndsRun (r.define name).reports := by
  rw [reports_define]
  exact h

/-- Declaring parameters one by one. -/
theorem noneEndsRun_declareParameters (h : NoneEndsRun r.reports) (params : List Token) :
    NoneEndsRun (r.declareParameters params).reports := by
  unfold declareParameters
  induction params generalizing r with
  | nil => exact h
  | cons p rest ih => exact ih (noneEndsRun_define (noneEndsRun_declare h p false) p)

end Resolution

open Resolution

/-- Resolving an expression makes no report that ends a run. -/
theorem Expr.noneEndsRun_resolve (e : Expr) {r : Resolution} (h : NoneEndsRun r.reports) :
    NoneEndsRun (e.resolve r).reports := by
  rw [Expr.resolve_eq_foldl]
  induction e.occurrences generalizing r with
  | nil => exact h
  | cons o rest ih =>
    refine ih ?_
    rw [reports_visit]
    split
    · exact .cons rfl h
    · exact h

mutual

/-- The same for a statement, by recursion through its parts. -/
theorem Stmt.noneEndsRun_resolve (policy : Policy) (inFunction : Bool) :
    ∀ (s : Stmt) {r : Resolution}, NoneEndsRun r.reports →
      NoneEndsRun (s.resolve policy inFunction r).reports
  | .expression e, _, h | .print e, _, h => by
    rw [Stmt.resolve]
    exact e.noneEndsRun_resolve h
  | .var name e, _, h => by
    rw [Stmt.resolve]
    exact noneEndsRun_define (e.noneEndsRun_resolve (noneEndsRun_declare h name false)) name
  | .block body, r, h => by
    rw [Stmt.resolve]
    have inside : NoneEndsRun r.openScope.reports := h
    exact noneEndsRun_closeScope (noneEndsRun_resolveBody policy inFunction body inside) policy
  | .branch e s s', _, h => by
    rw [Stmt.resolve]
    exact s'.noneEndsRun_resolve policy inFunction
      (s.noneEndsRun_resolve policy inFunction (e.noneEndsRun_resolve h))
  | .loop e s, _, h => by
    rw [Stmt.resolve]
    exact s.noneEndsRun_resolve policy inFunction (e.noneEndsRun_resolve h)
  | .function name params body, r, h => by
    rw [Stmt.resolve]
    have inside : NoneEndsRun ((r.declare name true).define name).openScope.reports :=
      noneEndsRun_define (noneEndsRun_declare h name true) name
    exact noneEndsRun_closeScope
      (noneEndsRun_resolveBody policy true body (noneEndsRun_declareParameters inside params))
      policy
  | .ret keyword e, _, h => by
    rw [Stmt.resolve]
    refine e.noneEndsRun_resolve ?_
    split
    · exact h
    · exact .cons rfl h
  | .absent, _, h => by
    rw [Stmt.resolve]
    exact h

/-- The same for the statements of a body. -/
theorem noneEndsRun_resolveBody (policy : Policy) (inFunction : Bool) :
    ∀ (body : List Stmt) {r : Resolution}, NoneEndsRun r.reports →
      NoneEndsRun (resolveBody policy inFunction body r).reports
  | [], _, h => by
    rw [resolveBody]
    exact h
  | s :: rest, _, h => by
    rw [resolveBody]
    exact noneEndsRun_resolveBody policy inFunction rest
      (s.noneEndsRun_resolve policy inFunction h)

end

/-- **Resolving a program makes no report that ends a run.** -/
theorem noneEndsRun_resolve (policy : Policy) (program : Program) :
    NoneEndsRun (resolve policy program).reports :=
  (noneEndsRun_resolveBody policy false program .nil).reverse

/-! ## Sessions -/

/-- Reports that end no run leave no mark of a runtime error in the log. -/
theorem ReportLog.hadRuntimeError_addAll (log : ReportLog) {rs : List Report}
    (h : NoneEndsRun rs) : (log.addAll rs).hadRuntimeError = log.hadRuntimeError := by
  show (log.hadRuntimeError || rs.any Report.isRuntime) = log.hadRuntimeError
  rw [h.any_eq_false, Bool.or_false]

/-- **Compiling leaves alone what is remembered of runs.** -/
theorem Session.hadRuntimeError_compile (s : Session) (source : String) :
    (s.compile source).2.log.hadRuntimeError = s.log.hadRuntimeError := by
  have read : NoneEndsRun ((scan source).filterMap Item.fault?
      ++ (parse ((scan source).filterMap Item.token?) s.nextId).reports) :=
    ((allStatic_lexicalReports source).append (allStatic_parse _ _)).noneEndsRun
  have resolved := noneEndsRun_resolve s.policy
    (parse ((scan source).filterMap Item.token?) s.nextId).program
  unfold compile
  dsimp only
  split
  · exact ReportLog.hadRuntimeError_addAll s.log read
  · have both : ((s.log.addAll _).addAll _).hadRuntimeError = s.log.hadRuntimeError :=
      (ReportLog.hadRuntimeError_addAll _ resolved).trans (s.log.hadRuntimeError_addAll read)
    split
    · exact both
    · exact both

end Kix
