import Kix.Proofs.Identities

/-!
# What a session writes

A session makes reports and writes them to its error stream, and it never looks at that
stream. So compiling and executing do the same on whatever stream they are given
(`Session.compile_withErr`, `Session.execute?_withErr`), and what they write there is the
text of a list of reports that does not depend on it.

This makes precise what an operation writes even where the stream takes only a part of
it: it is what stands on a stream that was empty and takes everything
(`History.watched`). On a stream that takes everything it is what the operation adds
(`History.perform?_watched`).
-/

namespace Kix

namespace Sink

/-- Writing reports, a line end behind each. -/
def putReports (err : Sink) (reports : List Report) : Sink :=
  reports.foldl (fun err r => err.put (r.render ++ "\n")) err

theorem putReports_append (err : Sink) (rs rs' : List Report) :
    err.putReports (rs ++ rs') = (err.putReports rs).putReports rs' :=
  List.foldl_append

theorem put_of_limit {err : Sink} (unlimited : err.limit = none) (text : String) :
    err.put text = { err with written := err.written ++ text.toUTF8 } := by
  unfold put room?
  rw [unlimited]
  rfl

theorem limit_put (s : Sink) (text : String) : (s.put text).limit = s.limit := by
  unfold put
  split <;> rfl

/-- Reports leave the limit of a stream as it is. -/
theorem limit_putReports (err : Sink) (reports : List Report) :
    (err.putReports reports).limit = err.limit := by
  unfold putReports
  induction reports generalizing err with
  | nil => rfl
  | cons r rest ih => rw [List.foldl_cons, ih, limit_put]

/-- Streams without a limit that differ in how they begin differ in nothing else
afterwards. -/
theorem written_putReports {front : ByteArray} (reports : List Report) {err err' : Sink}
    (unlimited : err.limit = none) (unlimited' : err'.limit = none)
    (h : err'.written = front ++ err.written) :
    (err'.putReports reports).written = front ++ (err.putReports reports).written := by
  unfold putReports
  induction reports generalizing err err' with
  | nil => exact h
  | cons r rest ih =>
    rw [List.foldl_cons, List.foldl_cons, put_of_limit unlimited, put_of_limit unlimited']
    refine ih unlimited unlimited' ?_
    show err'.written ++ _ = front ++ (err.written ++ _)
    rw [h, ByteArray.append_assoc]

end Sink

/-! ## The stages of a compilation -/

namespace Session

/-- What reading a source gives, as things stand. -/
def reading (s : Session) (source : String) : Parse := parse (tokens source) s.nextId

/-- What resolving the program in a source gives. -/
def resolving (s : Session) (source : String) : Resolved :=
  resolve s.policy (s.reading source).program

/-- The session behind the reading of a source. -/
def afterReading (s : Session) (source : String) : Session :=
  { s with
    nextId := (s.reading source).nextId
    log := s.log.addAll (lexicalReports source ++ (s.reading source).reports) }

/-- The session behind the resolving of a source that was read. -/
def afterResolving (s : Session) (source : String) : Session :=
  { s.afterReading source with
    log := (s.afterReading source).log.addAll (s.resolving source).reports }.flush

/-- **Compiling, stage by stage.** -/
theorem compile_eq (s : Session) (source : String) :
    s.compile source
      = if (s.afterReading source).log.hadError then (none, (s.afterReading source).flush)
        else if (s.afterResolving source).log.hadError then (none, s.afterResolving source)
        else (some (s.reading source).program,
          { s.afterResolving source with
            machine := s.machine.extend (s.resolving source).entries }) := rfl

/-- Compiling changes nothing of the machine but the table. -/
theorem machine_compile (s : Session) (source : String) :
    (s.compile source).2.machine
      = { s.machine with addresses := (s.compile source).2.machine.addresses } := by
  rw [compile_eq]
  split
  · rfl
  · split <;> rfl

theorem policy_compile (s : Session) (source : String) :
    (s.compile source).2.policy = s.policy := by
  rw [compile_eq]
  split
  · rfl
  · split <;> rfl

theorem pending_compile (s : Session) (source : String) :
    (s.compile source).2.log.pending = [] := by
  rw [compile_eq]
  split
  · rfl
  · split <;> rfl

/-- After a unit that compiles there is no static report. -/
theorem hadError_of_compile {s s' : Session} {source : String} {program : Program}
    (compiled : s.compile source = (some program, s')) : s'.log.hadError = false := by
  rw [compile_eq] at compiled
  split at compiled
  · exact nomatch congrArg Prod.fst compiled
  · split at compiled
    · exact nomatch congrArg Prod.fst compiled
    · next clean =>
      cases compiled
      exact eq_false_of_ne_true clean

/-- **The reports of compiling a source.** -/
def compileReports (s : Session) (source : String) : List Report :=
  let read := lexicalReports source ++ (s.reading source).reports
  if (s.afterReading source).log.hadError then read else read ++ (s.resolving source).reports

/-! ## Other error streams -/

/-- The session with another error stream. -/
def withErr (s : Session) (err : Sink) : Session := { s with err }

/-- **Compiling on another error stream.** -/
theorem compile_withErr (s : Session) (err : Sink) (source : String) :
    (s.withErr err).compile source
      = ((s.compile source).1, (s.compile source).2.withErr
          (err.putReports (s.log.pending ++ s.compileReports source))) := by
  have read : ((s.withErr err).afterReading source).flush
      = (s.afterReading source).flush.withErr (err.putReports
        (s.log.pending ++ (lexicalReports source ++ (s.reading source).reports))) := rfl
  have resolved : (s.withErr err).afterResolving source
      = (s.afterResolving source).withErr (err.putReports
        (s.log.pending ++ (lexicalReports source ++ (s.reading source).reports)
          ++ (s.resolving source).reports)) := rfl
  have verdict : ((s.withErr err).afterReading source).log = (s.afterReading source).log := rfl
  unfold compileReports
  rw [compile_eq, compile_eq, verdict, read, resolved]
  by_cases static : (s.afterReading source).log.hadError = true
  · rw [if_pos static, if_pos static, if_pos static]
  rw [if_neg static, if_neg static, if_neg static, List.append_assoc]
  by_cases static' : (s.afterResolving source).log.hadError = true
  · rw [if_pos static']
    exact if_pos static'
  · rw [if_neg static']
    exact if_neg static'

/-- **Executing on another error stream.** -/
theorem execute?_withErr {s s' : Session} {steps : Nat} {program : Program}
    (executed : s.execute? steps program = some s') :
    ∃ reports, ∀ err, (s.withErr err).execute? steps program
      = some (s'.withErr (err.putReports reports)) := by
  obtain ⟨⟨report, m⟩, hrun, rfl⟩ := Option.map_eq_some_iff.1 executed
  refine ⟨s.log.pending ++ report.toList, fun err => ?_⟩
  unfold execute?
  show (s.machine.run? steps program).map _ = _
  rw [hrun]
  rfl

theorem run?_withErr {s s' : Session} {steps : Nat} {source : String}
    (ran : s.run? steps source = some s') :
    ∃ reports, ∀ err, (s.withErr err).run? steps source
      = some (s'.withErr (err.putReports reports)) := by
  have compiled := fun err => s.compile_withErr err source
  unfold run? at ran ⊢
  generalize s.compile source = result at ran compiled
  obtain ⟨unit?, t⟩ := result
  cases unit? with
  | none =>
    cases ran
    refine ⟨s.log.pending ++ s.compileReports source, fun err => ?_⟩
    rw [compiled]
  | some program =>
    obtain ⟨reports, executed⟩ := execute?_withErr ran
    refine ⟨s.log.pending ++ s.compileReports source ++ reports, fun err => ?_⟩
    rw [compiled, Sink.putReports_append err (s.log.pending ++ s.compileReports source) reports]
    exact executed _

end Session

namespace History

/-- The history with another error stream. -/
def withErr (h : History) (err : Sink) : History := { h with session := h.session.withErr err }

/-- **The history, watched**: its error stream is empty and takes everything, so that an
operation leaves there what it has written. -/
def watched (h : History) : History := h.withErr {}

/-- Performing an operation on another error stream. -/
theorem perform?_withErr {h h' : History} {operation : Operation}
    (performed : h.perform? operation = some h') :
    ∃ reports, ∀ err, (h.withErr err).perform? operation
      = some (h'.withErr (err.putReports reports)) := by
  cases operation with
  | compile source =>
    cases performed
    refine ⟨h.session.log.pending ++ h.session.compileReports source, fun err => ?_⟩
    have compiled := h.session.compile_withErr err source
    show some (History.mk ((h.session.withErr err).compile source).2
      (h.units ++ ((h.session.withErr err).compile source).1.toList)) = _
    rw [compiled]
    rfl
  | run source steps =>
    obtain ⟨s, ran, rfl⟩ := Option.map_eq_some_iff.1 performed
    obtain ⟨reports, ran'⟩ := Session.run?_withErr ran
    refine ⟨reports, fun err => ?_⟩
    have compiled := h.session.compile_withErr err source
    show ((h.session.withErr err).run? steps source).map (fun session =>
      History.mk session (h.units ++ ((h.session.withErr err).compile source).1.toList)) = _
    rw [ran', compiled]
    rfl
  | execute unit steps =>
    obtain ⟨program, hunit, result⟩ := Option.bind_eq_some_iff.1 performed
    obtain ⟨s, executed, rfl⟩ := Option.map_eq_some_iff.1 result
    obtain ⟨reports, executed'⟩ := Session.execute?_withErr executed
    refine ⟨reports, fun err => ?_⟩
    show (h.units[unit]?.bind fun program =>
      ((h.session.withErr err).execute? steps program).map fun session =>
        History.mk session h.units) = _
    rw [hunit]
    show ((h.session.withErr err).execute? steps program).map _ = _
    rw [executed']
    rfl
  | reset =>
    cases performed
    exact ⟨[], fun err => rfl⟩

/-- **What is written shows when watched.** An operation adds to an error stream without
a limit what it leaves on the watched one, and does everything else alike. The stream
still has no limit. -/
theorem perform?_watched {h h' : History} (unlimited : h.session.err.limit = none)
    {operation : Operation} (performed : h.perform? operation = some h') :
    ∃ text : Sink, h.watched.perform? operation = some (h'.withErr text)
      ∧ h'.session.err.written = h.session.err.written ++ text.written
      ∧ h'.session.err.limit = none := by
  obtain ⟨reports, written⟩ := perform?_withErr performed
  have same := written h.session.err
  have unchanged : h.withErr h.session.err = h := rfl
  rw [unchanged, performed] at same
  refine ⟨_, written {}, ?_⟩
  rw [Option.some.inj same]
  constructor
  · exact Sink.written_putReports reports rfl unlimited ByteArray.append_empty.symm
  · exact (Sink.limit_putReports _ reports).trans unlimited

/-- What can be performed when watched can be performed. -/
theorem perform?_of_watched {h g : History} {operation : Operation}
    (performed : h.watched.perform? operation = some g) :
    ∃ err, h.perform? operation = some (g.withErr err) := by
  obtain ⟨reports, written⟩ := perform?_withErr performed
  exact ⟨_, written h.session.err⟩

end History

end Kix
