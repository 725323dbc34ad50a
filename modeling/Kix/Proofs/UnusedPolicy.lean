import Kix.Proofs.StaticReports
import Kix.Proofs.Transcripts
import Kix.Proofs.UnusedVariables

/-!
# What the policy can change

A policy says what is done about unused variables, and it changes nothing else
(`policy_changes_unused_reports_only`). Resolving finds the same addresses under any two
policies, and the same reports but for those about unused variables: at each stop on the way
through the program, what is found under a policy is what is found if unused variables are not
looked for, or else it is about unused variables (`Outline.filter_reportsAt`). Under the
policies that look for them, it finds the same ones.

A warning keeps no program from running. So a session that warns about unused variables runs
every unit as one that does not look for them (`Session.run?_alike`), and only its error stream
shows the difference.
-/

namespace Kix

/-! ## Reports under two policies -/

/-- Whether a report is about something else than an unused variable. -/
def Report.isOther (report : Report) : Bool := report.message != "Variable defined but not used."

/-- **One report under two policies** that look for unused variables: the first one warns about
them, and the second one counts them as errors. -/
inductive Report.Stricter : Report → Report → Prop where
  | same {report : Report} (other : report.message ≠ "Variable defined but not used.") :
    Stricter report report
  | unused (place : Place) :
    Stricter (.warning place .unusedVariable) (.scoping place .unusedVariable)

namespace Outline

variable {root : Outline} {policy : Policy}

/-- What is reported of an unused variable says so. -/
theorem message_of_unused? {d : Path} {report : Report} (h : root.unused? policy d = some report) :
    report.message = "Variable defined but not used." := by
  obtain ⟨b, -, h⟩ := Option.bind_eq_some_iff.1 h
  unfold Resolution.unusedReport? at h
  split at h
  · nomatch h
  · split at h <;> cases h <;> rfl

/-- **A policy adds reports about unused variables**, and nothing else. -/
theorem filter_reportsAt (s : Stop) :
    (root.reportsAt policy s).filter Report.isOther = (s.passed?.bind root.violation?).toList := by
  cases s with
  | passes path =>
    exact List.filter_eq_self.2 fun report h => bne_iff_ne.2 (message_of_mem_violation? h)
  | leaves scope =>
    refine List.filter_eq_nil_iff.2 fun report h => ?_
    obtain ⟨d, -, unused⟩ := List.mem_filterMap.1 h
    rw [Report.isOther, message_of_unused? unused]
    decide

/-- At each stop the same is reported, as a warning or as an error. -/
theorem forall₂_stricter_reportsAt (checkFunctions : Bool) (s : Stop) :
    List.Forall₂ Report.Stricter (root.reportsAt ⟨.warn, checkFunctions⟩ s)
      (root.reportsAt ⟨.error, checkFunctions⟩ s) := by
  cases s with
  | passes path => exact List.forall₂_same.2 fun report h => .same (message_of_mem_violation? h)
  | leaves scope =>
    have warned : Policy.unused ⟨.warn, checkFunctions⟩ ≠ .off := nofun
    have counted : Policy.unused ⟨.error, checkFunctions⟩ ≠ .off := nofun
    rw [reportsAt_leaves warned, reportsAt_leaves counted, List.forall₂_map_left_iff,
      List.forall₂_map_right_iff]
    exact List.forall₂_same.2 fun b _ => .unused b.2.name.place

/-- A warning about an unused variable is not static. -/
theorem isOther_of_isStatic {checkFunctions : Bool} {s : Stop} {report : Report}
    (h : report ∈ root.reportsAt ⟨.warn, checkFunctions⟩ s) (static : report.isStatic = true) :
    report.isOther = true := by
  cases s with
  | passes path => exact bne_iff_ne.2 (message_of_mem_violation? h)
  | leaves scope =>
    have warned : Policy.unused ⟨.warn, checkFunctions⟩ ≠ .off := nofun
    rw [reportsAt_leaves warned] at h
    obtain ⟨b, -, rfl⟩ := List.mem_map.1 h
    nomatch static

end Outline

/-- **What is left without the reports about unused variables** does not depend on the policy. -/
theorem filter_reports_resolve (policy : Policy) (program : Program) (checkFunctions : Bool) :
    (resolve policy program).reports.filter Report.isOther
      = (resolve ⟨.off, checkFunctions⟩ program).reports := by
  rw [reports_resolve, reports_resolve_off, List.filter_flatMap, List.filterMap_filterMap,
    List.filterMap_eq_flatMap_toList]
  exact congrFun (congrArg List.flatMap (funext Outline.filter_reportsAt)) _

/-- **So is it in a whole program.** -/
theorem forall₂_stricter_reports_resolve (program : Program) (checkFunctions : Bool) :
    List.Forall₂ Report.Stricter (resolve ⟨.warn, checkFunctions⟩ program).reports
      (resolve ⟨.error, checkFunctions⟩ program).reports := by
  rw [reports_resolve, reports_resolve]
  refine List.rel_flatMap (R := Eq) (List.forall₂_same.2 fun _ _ => rfl) ?_
  rintro s _ rfl
  exact Outline.forall₂_stricter_reportsAt checkFunctions s

/-- Warnings are not static. -/
theorem any_isStatic_reports_resolve (program : Program) (checkFunctions checkFunctions' : Bool) :
    (resolve ⟨.warn, checkFunctions⟩ program).reports.any Report.isStatic
      = (resolve ⟨.off, checkFunctions'⟩ program).reports.any Report.isStatic := by
  rw [← filter_reports_resolve ⟨.warn, checkFunctions⟩ program checkFunctions', List.any_filter,
    Bool.eq_iff_iff, List.any_eq_true, List.any_eq_true]
  refine exists_congr fun report => and_congr_right fun mem => ?_
  rw [reports_resolve] at mem
  obtain ⟨s, -, mem⟩ := List.mem_flatMap.1 mem
  rw [Bool.and_eq_true]
  exact ⟨fun static => ⟨Outline.isOther_of_isStatic mem static, static⟩, And.right⟩

/-! ## Sessions -/

/-- Of reports that are written at once and end no run, a log remembers only whether one was
static. -/
theorem ReportLog.drain_addAll_eq (log : ReportLog) {rs rs' : List Report}
    (static : rs.any Report.isStatic = rs'.any Report.isStatic) (h : NoneEndsRun rs)
    (h' : NoneEndsRun rs') : (log.addAll rs).drain.2 = (log.addAll rs').drain.2 := by
  unfold addAll drain
  dsimp only
  rw [static, h.any_eq_false, h'.any_eq_false]

namespace Session

/-- The session with another policy. -/
def withPolicy (s : Session) (policy : Policy) : Session := { s with policy }

/-- **Sessions that differ at most in their policies and their error streams.** -/
structure Alike (s t : Session) : Prop where
  machine : s.machine = t.machine
  log : s.log = t.log
  nextId : s.nextId = t.nextId

variable {s t : Session}

theorem execute?_alike (h : s.Alike t) (steps : Nat) (program : Program) :
    Option.Rel Alike (s.execute? steps program) (t.execute? steps program) := by
  unfold execute?
  rw [h.machine, h.log]
  cases t.machine.run? steps program with
  | none => exact .none
  | some result => exact .some ⟨rfl, rfl, h.nextId⟩

variable (s) (source : String) (checkFunctions checkFunctions' : Bool)

theorem afterResolving_alike :
    ((s.withPolicy ⟨.off, checkFunctions⟩).afterResolving source).Alike
      ((s.withPolicy ⟨.warn, checkFunctions'⟩).afterResolving source) := by
  refine ⟨rfl, ReportLog.drain_addAll_eq (s.afterReading source).log ?_ ?_ ?_, rfl⟩
  · exact (any_isStatic_reports_resolve _ checkFunctions' checkFunctions).symm
  · exact noneEndsRun_resolve _ _
  · exact noneEndsRun_resolve _ _

/-- Looking for unused variables, as warnings, changes no program and nothing but the
reports. -/
theorem compile_alike :
    ((s.withPolicy ⟨.off, checkFunctions⟩).compile source).1
      = ((s.withPolicy ⟨.warn, checkFunctions'⟩).compile source).1 ∧
    ((s.withPolicy ⟨.off, checkFunctions⟩).compile source).2.Alike
      ((s.withPolicy ⟨.warn, checkFunctions'⟩).compile source).2 := by
  have read (policy : Policy) :
      ((s.withPolicy policy).afterReading source).log = (s.afterReading source).log := rfl
  have resolved := s.afterResolving_alike source checkFunctions checkFunctions'
  rw [compile_eq, compile_eq, read, read, resolved.log]
  split
  · exact ⟨rfl, rfl, rfl, rfl⟩
  · split
    · exact ⟨rfl, resolved⟩
    · refine ⟨rfl, ?_, resolved.log, resolved.nextId⟩
      show s.machine.extend _ = s.machine.extend _
      unfold resolving
      rw [entries_resolve, entries_resolve]
      rfl

/-- **Warnings do not change a run.** -/
theorem run?_alike (steps : Nat) :
    Option.Rel Alike ((s.withPolicy ⟨.off, checkFunctions⟩).run? steps source)
      ((s.withPolicy ⟨.warn, checkFunctions'⟩).run? steps source) := by
  obtain ⟨program, alike⟩ := s.compile_alike source checkFunctions checkFunctions'
  unfold run?
  generalize (s.withPolicy ⟨.off, checkFunctions⟩).compile source = off at program alike
  generalize (s.withPolicy ⟨.warn, checkFunctions'⟩).compile source = warn at program alike
  obtain ⟨unit?, t⟩ := off
  obtain ⟨_, t'⟩ := warn
  cases program
  cases unit? with
  | none => exact .some alike
  | some program => exact execute?_alike alike steps program

end Session

/-- **The policy about unused variables affects the reports about them only.** Under any two
policies resolving finds the same addresses, and the same reports once those about unused
variables are removed. Whether these are warnings or errors makes no other difference to the
reports. And a session that warns about unused variables runs every unit like one that does
not look for them: with the same machine at the end, which holds the output and the global
variables, and with the same exit status. -/
theorem policy_changes_unused_reports_only (program : Program) (policy policy' : Policy)
    (checkFunctions checkFunctions' : Bool) (s : Session) (steps : Nat) (source : String) :
    ((resolve policy program).entries = (resolve policy' program).entries ∧
      (resolve policy program).table = (resolve policy' program).table ∧
      (resolve policy program).reports.filter Report.isOther
        = (resolve policy' program).reports.filter Report.isOther) ∧
    List.Forall₂ Report.Stricter (resolve ⟨.warn, checkFunctions⟩ program).reports
      (resolve ⟨.error, checkFunctions⟩ program).reports ∧
    Option.Rel (fun t t' => t.machine = t'.machine ∧ t.exitCode = t'.exitCode)
      ((s.withPolicy ⟨.off, checkFunctions⟩).run? steps source)
      ((s.withPolicy ⟨.warn, checkFunctions'⟩).run? steps source) := by
  have entries : (resolve policy program).entries = (resolve policy' program).entries := by
    rw [entries_resolve, entries_resolve]
  refine ⟨⟨entries, congrArg (AddressTable.extend {}) entries, ?_⟩,
    forall₂_stricter_reports_resolve program checkFunctions, ?_⟩
  · rw [filter_reports_resolve policy program false, filter_reports_resolve policy' program false]
  · have runs := s.run?_alike source checkFunctions checkFunctions' steps
    generalize (s.withPolicy ⟨.off, checkFunctions⟩).run? steps source = off at runs ⊢
    generalize (s.withPolicy ⟨.warn, checkFunctions'⟩).run? steps source = warn at runs ⊢
    cases runs with
    | none => exact .none
    | some alike => exact .some ⟨alike.machine, congrArg ReportLog.exitCode alike.log⟩

end Kix
