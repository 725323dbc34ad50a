import Kix.Proofs.SplitUnits

/-!
# The journal of a session

Four stages make reports: scanning, reading, resolving and running. They all put them into
one log, which is written out and emptied at several places, and from which the exit
status is read. This module keeps a **journal** beside it: what each operation has raised,
said of the stages themselves and not of the log (`History.entries`).

The log is a summary of the journal (`History.perform_noted`), and from that two facts
follow. On an error stream that takes everything stands the text of every report in the
journal, in its order, and none is left waiting (`every_report_is_written`). The exit status
is what the journal says: 65 for a static report since the last reset, otherwise 70 for an
execution that ended with a report, otherwise 0 (`exit_status_follows_journal`).

## Output streams of any behaviour

A failing write ends the execution that makes it. So within one execution an output stream
takes some bytes, may then fail once, and is flushed; a `Sink` with a limit, a reason for the
failing write and a fault of flushing does all of that. From one operation to the next a
stream may recover, fail, or change in any other way. An `Incident` is therefore an operation,
or the output stream turning into any other.
-/

namespace Kix

/-! ## What is raised -/

/-- **An entry in the journal of a session.** -/
inductive JournalEntry where
  /-- A source was compiled, which raised these reports. -/
  | compiled (reports : List Report)
  /-- A unit was executed, which ended with this report or without one. -/
  | executed (report : Option Report)
  /-- The session was told to forget its static reports. -/
  | reset
  deriving DecidableEq

/-- The reports of an entry, in order. -/
def JournalEntry.reports : JournalEntry → List Report
  | .compiled reports => reports
  | .executed report => report.toList
  | .reset => []

/-- **What compiling a source raises**: the lexical reports in the order of the source, then
the syntactic ones. Only if there are none of either, and there was no static report before,
it is resolved, and raises what that reports. -/
def Session.raises (s : Session) (source : String) : List Report :=
  let read := lexicalReports source ++ (s.reading source).reports
  if read = [] ∧ s.log.hadError = false then (s.resolving source).reports else read

/-- **What executing a program raises**: the fault that stopped it, or else the failure of
flushing the output. -/
def Machine.ending? (m : Machine) (steps : Nat) (program : Program) : Option Report :=
  match executeAll steps program m with
  | .error (.fault report) _ => some report
  | .ok _ m' => m'.out.flushFault.map .stream
  | .error .exhausted _ => none

/-- What an operation enters into the journal. -/
def History.entries (h : History) : Operation → List JournalEntry
  | .compile source => [.compiled (h.session.raises source)]
  | .run source steps =>
    .compiled (h.session.raises source) ::
      match h.session.compile source with
      | (some program, s) => [.executed (s.machine.ending? steps program)]
      | (none, _) => []
  | .execute unit steps =>
    (h.units[unit]?).toList.map fun program => .executed (h.session.machine.ending? steps program)
  | .reset => [.reset]

/-- **Something that happens to a session**: an operation is performed, or the output stream
turns into another. -/
inductive Incident where
  | operation (operation : Operation)
  | output (stream : Sink)

namespace History

/-- The history with another output stream. -/
def withOut (h : History) (stream : Sink) : History :=
  { h with session := { h.session with machine := { h.session.machine with out := stream } } }

/-- The history behind some incidents. There is no result where an operation has none. -/
def meet? (h : History) : List Incident → Option History
  | [] => some h
  | .operation operation :: rest => (h.perform? operation).bind fun h' => h'.meet? rest
  | .output stream :: rest => (h.withOut stream).meet? rest

/-- **The journal of some incidents.** -/
def journal (h : History) : List Incident → List JournalEntry
  | [] => []
  | .operation operation :: rest =>
    h.entries operation ++
      match h.perform? operation with
      | some h' => h'.journal rest
      | none => []
  | .output stream :: rest => (h.withOut stream).journal rest

/-- The entries of an operation come first. -/
theorem journal_of_perform {h h' : History} {operation : Operation}
    (performed : h.perform? operation = some h') (rest : List Incident) :
    h.journal (.operation operation :: rest) = h.entries operation ++ h'.journal rest := by
  rw [journal, performed]

end History

/-- **The reports since the last reset**, or since the start. -/
def raisedSinceReset : List JournalEntry → List Report
  | [] => []
  | entry :: rest =>
    if .reset ∈ rest then raisedSinceReset rest else entry.reports ++ raisedSinceReset rest

/-! ## The log and the error stream -/

/-- What an entry does to a log from which everything has been written out. -/
def JournalEntry.note (log : ReportLog) : JournalEntry → ReportLog
  | .compiled reports => (log.addAll reports).drain.2
  | .executed report => (log.addAll report.toList).drain.2
  | .reset => log.reset

/-- **A session after some entries**: they are noted in the log and written to the error
stream. -/
structure Session.Noted (s : Session) (entries : List JournalEntry) (s' : Session) : Prop where
  log : s'.log = entries.foldl JournalEntry.note s.log
  err : s'.err = s.err.putReports (entries.flatMap JournalEntry.reports)

namespace Session

/-- What is noted twice is noted. -/
theorem Noted.trans {s s' s'' : Session} {entries entries' : List JournalEntry}
    (h : s.Noted entries s') (h' : s'.Noted entries' s'') : s.Noted (entries ++ entries') s'' where
  log := by rw [h'.log, h.log, List.foldl_append]
  err := by rw [h'.err, h.err, List.flatMap_append, Sink.putReports_append]

variable {s s' : Session} {source : String} {steps : Nat} {program : Program}

/-- Whatever scanning and reading report is static, so resolving has its turn exactly if
they report nothing and there was no static report before. -/
theorem hadError_afterReading (s : Session) (source : String) :
    (s.afterReading source).log.hadError = false
      ↔ lexicalReports source ++ (s.reading source).reports = [] ∧ s.log.hadError = false := by
  have static := (allStatic_lexicalReports source).append (allStatic_parse (tokens source) s.nextId)
  show (s.log.hadError || List.any _ Report.isStatic) = false ↔ _
  rw [Bool.or_eq_false_iff]
  constructor
  · rintro ⟨clear, none⟩
    exact ⟨static.eq_nil none, clear⟩
  · rintro ⟨nothing, clear⟩
    exact ⟨clear, by rw [nothing]; rfl⟩

theorem compileReports_eq_raises (s : Session) (source : String) :
    s.compileReports source = s.raises source := by
  unfold compileReports raises
  by_cases quiet : (s.afterReading source).log.hadError = false
  · have found := (s.hadError_afterReading source).1 quiet
    rw [if_neg (by rw [quiet]; exact Bool.false_ne_true), if_pos found, found.1, List.nil_append]
  · rw [if_neg (mt (s.hadError_afterReading source).2 quiet), if_pos (eq_true_of_ne_false quiet)]

/-- **Compiling** notes what it raises. -/
theorem noted_compile (s : Session) (rested : s.log.pending = []) (source : String) :
    s.Noted [.compiled (s.raises source)] (s.compile source).2 := by
  constructor
  · show _ = (s.log.addAll (s.raises source)).drain.2
    rw [← compileReports_eq_raises, compile_eq]
    unfold compileReports
    by_cases static : (s.afterReading source).log.hadError = true
    · rw [if_pos static, if_pos static]
      rfl
    · have quiet := (s.hadError_afterReading source).1 (eq_false_of_ne_true static)
      have read : s.afterReading source = { s with nextId := (s.reading source).nextId } := by
        unfold afterReading
        rw [quiet.1]
        simp [ReportLog.addAll]
      have resolved : (s.afterResolving source).log
          = (s.log.addAll (s.resolving source).reports).drain.2 := by
        unfold afterResolving
        rw [read]
        rfl
      rw [if_neg static, if_neg static, quiet.1, List.nil_append, ← resolved]
      split <;> rfl
  · have written := congrArg (fun r => r.2.err) (s.compile_withErr s.err source)
    rw [rested, compileReports_eq_raises] at written
    show _ = s.err.putReports (s.raises source ++ [])
    rw [List.append_nil]
    exact written

end Session

/-- The ending of a run that had enough steps. -/
theorem Machine.ending?_of_run? {m m' : Machine} {steps : Nat} {program : Program}
    {report : Option Report} (ran : m.run? steps program = some (report, m')) :
    m.ending? steps program = report := by
  unfold run? at ran
  unfold ending?
  generalize executeAll steps program m = ended at ran ⊢
  cases ended with
  | ok flow m₁ => exact congrArg Prod.fst (Option.some.inj ran)
  | error halt m₁ =>
    cases halt with
    | fault r => exact congrArg Prod.fst (Option.some.inj ran)
    | exhausted => exact nomatch ran

/-- **Executing** notes what it raises. -/
theorem Session.noted_execute {s s' : Session} (rested : s.log.pending = []) {steps : Nat}
    {program : Program} (executed : s.execute? steps program = some s') :
    s.Noted [.executed (s.machine.ending? steps program)] s' := by
  obtain ⟨⟨report, m⟩, ran, rfl⟩ := Option.map_eq_some_iff.1 executed
  rw [Machine.ending?_of_run? ran]
  refine ⟨rfl, ?_⟩
  show s.err.putReports (s.log.pending ++ report.toList) = s.err.putReports (report.toList ++ [])
  rw [rested, List.append_nil, List.nil_append]

namespace History

variable {h h' : History}

/-- **An operation** notes what it enters into the journal. -/
theorem perform_noted (rested : h.session.log.pending = []) {operation : Operation}
    (performed : h.perform? operation = some h') :
    h.session.Noted (h.entries operation) h'.session := by
  cases operation with
  | compile source =>
    cases performed
    exact h.session.noted_compile rested source
  | run source steps =>
    obtain ⟨s, ran, rfl⟩ := Option.map_eq_some_iff.1 performed
    have compiled := h.session.noted_compile rested source
    have pending := h.session.pending_compile source
    unfold Session.run? at ran
    unfold entries
    dsimp only
    generalize h.session.compile source = result at ran compiled pending ⊢
    obtain ⟨unit?, s₁⟩ := result
    cases unit? with
    | none =>
      cases ran
      exact compiled
    | some program => exact compiled.trans (Session.noted_execute pending ran)
  | execute unit steps =>
    obtain ⟨program, hunit, result⟩ := Option.bind_eq_some_iff.1 performed
    obtain ⟨s, executed, rfl⟩ := Option.map_eq_some_iff.1 result
    unfold entries
    dsimp only
    rw [hunit]
    exact Session.noted_execute rested executed
  | reset =>
    cases performed
    exact ⟨rfl, rfl⟩

end History

theorem pending_foldl_note (entries : List JournalEntry) {log : ReportLog} (h : log.pending = []) :
    (entries.foldl JournalEntry.note log).pending = [] := by
  induction entries generalizing log with
  | nil => exact h
  | cons entry rest ih =>
    refine ih ?_
    cases entry with
    | compiled reports | executed report => rfl
    | reset => exact h

/-- **Incidents** note their journal. -/
theorem History.meet_noted {h h' : History} (rested : h.session.log.pending = [])
    {incidents : List Incident} (met : h.meet? incidents = some h') :
    h.session.Noted (h.journal incidents) h'.session := by
  induction incidents generalizing h with
  | nil =>
    cases met
    exact ⟨rfl, rfl⟩
  | cons incident rest ih =>
    cases incident with
    | operation operation =>
      obtain ⟨h₁, performed, later⟩ := Option.bind_eq_some_iff.1 met
      have first := perform_noted rested performed
      have rested₁ : h₁.session.log.pending = [] := by
        rw [first.log]
        exact pending_foldl_note _ rested
      rw [journal_of_perform performed]
      exact first.trans (ih rested₁ later)
    | output stream =>
      have later := ih (h := h.withOut stream) rested met
      exact ⟨later.log, later.err⟩

/-! ## No report is lost -/

/-- The text of reports: each as it is rendered, with a line end behind it. -/
def Report.lines (reports : List Report) : String :=
  String.join (reports.map fun r => r.render ++ "\n")

/-- What reports add to a stream without a limit. -/
theorem Sink.written_putReports_of_limit {err : Sink} (unlimited : err.limit = none)
    (reports : List Report) :
    (err.putReports reports).written = err.written ++ (Report.lines reports).toUTF8 := by
  unfold putReports
  induction reports generalizing err with
  | nil => exact ByteArray.append_empty.symm
  | cons r rest ih =>
    have later := @ih (err.put (r.render ++ "\n")) (by rw [put_of_limit unlimited]; exact unlimited)
    rw [List.foldl_cons, later, put_of_limit unlimited]
    show err.written ++ _ ++ _ = _
    rw [ByteArray.append_assoc]
    congr 1
    unfold Report.lines
    rw [List.map_cons, String.join_cons]
    simp

/-! ## Which stage raises what -/

/-- **A report in its place**: what compiling raises ends no run, and what an execution
raises does. -/
def JournalEntry.Lawful : JournalEntry → Prop
  | .compiled reports => NoneEndsRun reports
  | .executed report => ∀ r ∈ report, r.isRuntime = true
  | .reset => True

/-- What compiling raises ends no run. -/
theorem Session.noneEndsRun_raises (s : Session) (source : String) :
    NoneEndsRun (s.raises source) := by
  unfold raises
  dsimp only
  split
  · exact noneEndsRun_resolve _ _
  · exact ((allStatic_lexicalReports source).append (allStatic_parse _ _)).noneEndsRun

/-- What an execution raises does. -/
theorem Machine.isRuntime_ending? (m : Machine) (steps : Nat) (program : Program) :
    ∀ r ∈ m.ending? steps program, r.isRuntime = true := by
  have ended := (lasting (Nat.le_refl steps)).executeAll program m
  unfold ending?
  generalize executeAll steps program m = result at ended ⊢
  intro r hr
  cases ended with
  | ok stays =>
    obtain ⟨reason, -, rfl⟩ := Option.map_eq_some_iff.1 hr
    rfl
  | fault stays endsRun =>
    cases hr
    exact endsRun
  | exhausted => exact nomatch hr

namespace History

/-- **Every entry of an operation is in its place.** -/
theorem lawful_entries (h : History) (operation : Operation) :
    ∀ entry ∈ h.entries operation, entry.Lawful := by
  cases operation with
  | compile source => exact List.forall_mem_singleton.2 (h.session.noneEndsRun_raises source)
  | run source steps =>
    refine List.forall_mem_cons.2 ⟨h.session.noneEndsRun_raises source, ?_⟩
    generalize h.session.compile source = result
    obtain ⟨unit?, s⟩ := result
    cases unit? with
    | none => exact List.forall_mem_nil _
    | some program => exact List.forall_mem_singleton.2 (s.machine.isRuntime_ending? steps program)
  | execute unit steps =>
    refine List.forall_mem_map.2 fun program _ => ?_
    exact h.session.machine.isRuntime_ending? steps program
  | reset => exact List.forall_mem_singleton.2 trivial

/-- So is every entry of a journal. -/
theorem lawful_journal (h : History) (incidents : List Incident) :
    ∀ entry ∈ h.journal incidents, entry.Lawful := by
  induction incidents generalizing h with
  | nil => exact List.forall_mem_nil _
  | cons incident rest ih =>
    cases incident with
    | operation operation =>
      refine List.forall_mem_append.2 ⟨h.lawful_entries operation, ?_⟩
      cases h.perform? operation with
      | some h' => exact ih h'
      | none => exact List.forall_mem_nil _
    | output stream => exact ih (h.withOut stream)

end History

/-- **No report is lost, duplicated or reordered.** After any incidents, on an error stream
that takes everything: no report waits to be written, and what was written is the text of
the reports in the journal, in its order. An execution raises at most one of them, and that
one ends a run. -/
theorem every_report_is_written (policy : Policy) (out err : Sink) (clock : Nat → Nat)
    (unlimited : err.limit = none) (incidents : List Incident) {h : History}
    (met : History.meet? ⟨.fresh policy out err clock, []⟩ incidents = some h) :
    h.session.log.pending = []
    ∧ h.session.err.written = err.written ++ (Report.lines
        ((History.journal ⟨.fresh policy out err clock, []⟩ incidents).flatMap
          JournalEntry.reports)).toUTF8
    ∧ ∀ r, .executed (some r) ∈ History.journal ⟨.fresh policy out err clock, []⟩ incidents →
        r.isRuntime = true := by
  have noted := History.meet_noted (h := ⟨.fresh policy out err clock, []⟩) rfl met
  refine ⟨?_, ?_, fun r mem => ?_⟩
  · rw [noted.log]
    exact pending_foldl_note _ rfl
  · rw [noted.err]
    exact Sink.written_putReports_of_limit unlimited _
  · exact History.lawful_journal _ incidents _ mem r rfl

/-- A stray character is run and forgotten; then the output can no longer be flushed, and a
unit is run that does nothing else. -/
def strayThenUnflushed : List Incident :=
  [.operation (.run "@" 0), .operation .reset, .output { flushFault := some "closed" },
    .operation (.run "nil;" 4)]

/-- A stray character does not compile. -/
theorem reading_strayCharacter (s : Session) :
    lexicalReports "@" = [.lexical 1 (.unexpectedCharacter '@')]
      ∧ s.reading "@" = ⟨[], s.nextId, []⟩ := by
  have scanned : tokens "@" = [.endOfInput 1] := by decide +kernel
  refine ⟨by decide +kernel, ?_⟩
  unfold Session.reading
  rw [scanned]
  cbv

theorem compile_strayCharacter (s : Session) :
    s.compile "@" = (none, (s.afterReading "@").flush) := by
  obtain ⟨found, read⟩ := reading_strayCharacter s
  have static : (s.afterReading "@").log.hadError = true := by
    show (s.log.hadError || List.any (_ ++ _) _) = true
    rw [found]
    exact Bool.or_true _
  rw [Session.compile_eq, if_pos static]

theorem accepts_nil (s : Session) (clear : s.log.hadError = false) :
    s.Accepts "nil;" [.expression (.literal .nil)] s.nextId where
  clear := clear
  scanned := by decide +kernel
  parsed := by
    have scanned : tokens "nil;"
        = [.onLine 1 .nilWord "nil", .onLine 1 .semicolon ";", .endOfInput 1] := by decide +kernel
    rw [scanned]
    cbv
  resolved := rfl

/-- Running a stray character. -/
theorem perform_strayCharacter (h : History) :
    h.perform? (.run "@" 0) = some ⟨(h.session.afterReading "@").flush, h.units⟩
      ∧ h.entries (.run "@" 0) = [.compiled [.lexical 1 (.unexpectedCharacter '@')]] := by
  obtain ⟨found, read⟩ := reading_strayCharacter h.session
  have compiled := compile_strayCharacter h.session
  have raised : h.session.raises "@" = [.lexical 1 (.unexpectedCharacter '@')] := by
    unfold Session.raises
    rw [found, read]
    rfl
  unfold History.perform? History.entries Session.run?
  dsimp only
  rw [compiled, raised]
  exact ⟨congrArg (fun units => some (History.mk _ units)) (List.append_nil _), rfl⟩

/-- Running a unit that does nothing, where the output cannot be flushed. -/
theorem perform_unflushed {h : History} (clear : h.session.log.hadError = false)
    (rested : h.session.log.pending = []) {reason : String}
    (unflushed : h.session.machine.out.flushFault = some reason) :
    ∃ h', h.perform? (.run "nil;" 4) = some h'
      ∧ h.entries (.run "nil;" 4) = [.compiled [], .executed (some (.stream reason))] := by
  have accepts := accepts_nil h.session clear
  have resolved : (resolve h.session.policy [.expression (.literal .nil)]).reports = [] := rfl
  have ran (m : Machine) : m.run? 4 [.expression (.literal .nil)]
      = some (m.out.flushFault.map .stream, { m with current := none }) := rfl
  have ended := accepts.run? rested 4
  rw [ran] at ended
  have raised : h.session.raises "nil;" = [] := by
    rw [← Session.compileReports_eq_raises, accepts.compileReports, resolved]
  refine ⟨_, by unfold History.perform?; dsimp only; rw [ended]; rfl, ?_⟩
  unfold History.entries
  dsimp only
  rw [accepts.compile rested, raised]
  dsimp only
  rw [Machine.ending?_of_run? (ran _)]
  show [_, JournalEntry.executed (Option.map _ h.session.machine.out.flushFault)] = _
  rw [unflushed]
  rfl

theorem meet_strayThenUnflushed :
    ∃ h, History.meet? ⟨.fresh {} {} {} fun _ => 0, []⟩ strayThenUnflushed = some h
      ∧ History.journal ⟨.fresh {} {} {} fun _ => 0, []⟩ strayThenUnflushed
        = [.compiled [.lexical 1 (.unexpectedCharacter '@')], .reset, .compiled [],
          .executed (some (.stream "closed"))] := by
  obtain ⟨first, noted⟩ := perform_strayCharacter ⟨.fresh {} {} {} fun _ => 0, []⟩
  obtain ⟨h, last, noted'⟩ := perform_unflushed
    (h := History.withOut ⟨((Session.fresh {} {} {} fun _ => 0).afterReading "@").flush.reset, []⟩
      { flushFault := some "closed" }) rfl rfl rfl
  refine ⟨h, ?_, ?_⟩
  · show (History.perform? _ _).bind _ = _
    rw [first]
    show (History.perform? _ _).bind _ = _
    rw [last]
    rfl
  · unfold strayThenUnflushed
    rw [History.journal_of_perform first, noted]
    show _ ++ ([.reset] ++ History.journal (History.withOut _ _) _) = _
    rw [History.journal_of_perform last, noted']
    rfl

/-- What the stray character and the failing flush leave on the error stream. -/
theorem every_report_is_written_stray_unflushed :
    ∃ h, History.meet? ⟨.fresh {} {} {} fun _ => 0, []⟩ strayThenUnflushed = some h
      ∧ h.session.log.pending = []
      ∧ h.session.err.written
        = "[line 1] Error: Unexpected character: @\nI/O error: closed\n".toUTF8 := by
  obtain ⟨h, met, journal⟩ := meet_strayThenUnflushed
  obtain ⟨pending, written, -⟩ :=
    every_report_is_written {} {} {} (fun _ => 0) rfl strayThenUnflushed met
  refine ⟨h, met, pending, ?_⟩
  have text : Report.lines [.lexical 1 (.unexpectedCharacter '@'), .stream "closed"]
      = "[line 1] Error: Unexpected character: @\nI/O error: closed\n" := by decide +kernel
  rw [written, journal]
  show ByteArray.empty ++ (Report.lines [_, _]).toUTF8 = _
  rw [text, ByteArray.empty_append]

/-! ## The exit status -/

theorem JournalEntry.hadError_note (entry : JournalEntry) (log : ReportLog) :
    (entry.note log).hadError = true
      ↔ (∃ r ∈ entry.reports, r.isStatic = true) ∨ log.hadError = true ∧ .reset ≠ entry := by
  cases entry with
  | compiled reports =>
    show (log.hadError || reports.any Report.isStatic) = true ↔ _
    simp [JournalEntry.reports, or_comm]
  | executed report =>
    show (log.hadError || report.toList.any Report.isStatic) = true ↔ _
    simp [JournalEntry.reports, or_comm]
  | reset => simp [note, JournalEntry.reports, ReportLog.reset]

/-- A log has a static report if one was raised since the last reset, or if it had one and
there was no reset. -/
theorem hadError_foldl_note (journal : List JournalEntry) (log : ReportLog) :
    (journal.foldl JournalEntry.note log).hadError = true
      ↔ (∃ r ∈ raisedSinceReset journal, r.isStatic = true)
        ∨ log.hadError = true ∧ .reset ∉ journal := by
  induction journal generalizing log with
  | nil => simp [raisedSinceReset]
  | cons entry rest ih =>
    rw [List.foldl_cons, ih, JournalEntry.hadError_note, raisedSinceReset]
    by_cases forgotten : JournalEntry.reset ∈ rest
    · simp [forgotten]
    · rw [if_neg forgotten]
      simp only [List.mem_append, List.mem_cons, or_and_right, exists_or, not_or, forgotten,
        not_false_eq_true, and_true]
      rw [or_left_comm, or_assoc]

/-- A log has seen the end of a run if it had before, or if an execution ended with a
report. -/
theorem hadRuntimeError_foldl_note {journal : List JournalEntry}
    (lawful : ∀ entry ∈ journal, entry.Lawful) (log : ReportLog) :
    (journal.foldl JournalEntry.note log).hadRuntimeError = true
      ↔ log.hadRuntimeError = true ∨ ∃ r, .executed (some r) ∈ journal := by
  induction journal generalizing log with
  | nil => simp
  | cons entry rest ih =>
    obtain ⟨here, later⟩ := List.forall_mem_cons.1 lawful
    rw [List.foldl_cons, ih later]
    cases entry with
    | compiled reports =>
      have kept : (JournalEntry.note log (.compiled reports)).hadRuntimeError
          = log.hadRuntimeError := log.hadRuntimeError_addAll here
      simp [kept]
    | executed report =>
      cases report with
      | none => simp [JournalEntry.note, ReportLog.addAll, ReportLog.drain]
      | some r => simp [JournalEntry.note, ReportLog.addAll, ReportLog.drain, here r rfl]
    | reset => simp [JournalEntry.note, ReportLog.reset]

/-- **The status of a session and its journal.** -/
structure History.Status (h : History) (journal : List JournalEntry) : Prop where
  /-- 65 is for a static report since the last reset. -/
  static_iff : h.session.exitCode = 65 ↔ ∃ r ∈ raisedSinceReset journal, r.isStatic = true
  /-- Otherwise 70 is for an execution that ended with a report. -/
  runtime_iff : h.session.exitCode ≠ 65 →
    (h.session.exitCode = 70 ↔ ∃ r, .executed (some r) ∈ journal)
  otherwise : h.session.exitCode ≠ 65 → h.session.exitCode ≠ 70 → h.session.exitCode = 0
  /-- Executing a unit does not change whether the status is 65. -/
  execute_keeps : ∀ unit steps h', h.perform? (.execute unit steps) = some h' →
    (h'.session.exitCode = 65 ↔ h.session.exitCode = 65)
  /-- Compiling a source never makes the status 70. -/
  compile_keeps : ∀ source, (h.session.compile source).2.exitCode = 70 →
    h.session.exitCode = 70
  /-- Of what compiling raises only static reports matter, and warnings do not. -/
  warnings_keep : ∀ source, (h.session.compile source).2.exitCode
    = if (h.session.raises source).any Report.isStatic then 65 else h.session.exitCode
  /-- While there is a static report nothing compiles and nothing is run. -/
  blocked : h.session.log.hadError = true → ∀ source steps,
    (h.session.compile source).1 = none
      ∧ (h.session.compile source).2.machine = h.session.machine
      ∧ h.session.run? steps source = some (h.session.compile source).2

namespace ReportLog

variable (log : ReportLog)

theorem exitCode_eq_static_iff : log.exitCode = 65 ↔ log.hadError = true := by
  unfold exitCode
  split
  · simp_all
  · split <;> simp_all

theorem exitCode_eq_runtime_iff (clear : log.exitCode ≠ 65) :
    log.exitCode = 70 ↔ log.hadRuntimeError = true := by
  unfold exitCode at clear ⊢
  split
  · simp_all
  · split <;> simp_all

end ReportLog

theorem Report.isStatic_of_isRuntime {r : Report} (h : r.isRuntime = true) :
    r.isStatic = false := by
  cases r with
  | runtime | stream => rfl
  | lexical | syntactic | scoping | warning => exact nomatch h

namespace Session

variable {s s' : Session}

/-- The status behind a compilation. -/
theorem exitCode_compile (rested : s.log.pending = []) (source : String) :
    (s.compile source).2.exitCode
      = if (s.raises source).any Report.isStatic then 65 else s.exitCode := by
  have log : (s.compile source).2.log = (s.log.addAll (s.raises source)).drain.2 :=
    (s.noted_compile rested source).log
  have runtime := s.log.hadRuntimeError_addAll (s.noneEndsRun_raises source)
  unfold exitCode ReportLog.exitCode
  rw [log]
  show (if (s.log.hadError || _) = true then 65
    else if (s.log.addAll (s.raises source)).hadRuntimeError = true then 70 else 0) = _
  rw [runtime]
  cases s.log.hadError <;> cases (s.raises source).any Report.isStatic <;> rfl

/-- Executing raises nothing static. -/
theorem hadError_execute (rested : s.log.pending = []) {steps : Nat} {program : Program}
    (executed : s.execute? steps program = some s') : s'.log.hadError = s.log.hadError := by
  have log := (noted_execute rested executed).log
  have runtime := s.machine.isRuntime_ending? steps program
  have none : (s.machine.ending? steps program).toList.any Report.isStatic = false := by
    refine List.any_eq_false.2 fun r hr => ?_
    rw [Report.isStatic_of_isRuntime (runtime r (Option.mem_toList.1 hr))]
    exact Bool.false_ne_true
  rw [log]
  show (s.log.hadError || List.any _ _) = _
  rw [none, Bool.or_false]

/-- With a static report there is no compiling. -/
theorem compile_of_hadError (static : s.log.hadError = true) (source : String) :
    s.compile source = (none, (s.afterReading source).flush) := by
  have still : (s.afterReading source).log.hadError = true := by
    show (s.log.hadError || _) = true
    rw [static]
    rfl
  rw [compile_eq, if_pos still]

end Session

/-- **The exit status follows the journal.** After any incidents, whatever the output stream
does: the status is 65 if there was a static report since the last reset, otherwise 70 if an
execution has ever ended with a report, otherwise 0. -/
theorem exit_status_follows_journal (policy : Policy) (out err : Sink) (clock : Nat → Nat)
    (incidents : List Incident) {h : History}
    (met : History.meet? ⟨.fresh policy out err clock, []⟩ incidents = some h) :
    h.Status (History.journal ⟨.fresh policy out err clock, []⟩ incidents) := by
  have noted := History.meet_noted (h := ⟨.fresh policy out err clock, []⟩) rfl met
  have lawful := History.lawful_journal ⟨.fresh policy out err clock, []⟩ incidents
  have rested : h.session.log.pending = [] := by
    rw [noted.log]
    exact pending_foldl_note _ rfl
  refine
    { static_iff := ?_
      runtime_iff := fun clear => ?_
      otherwise := fun clear clear' => ?_
      execute_keeps := fun unit steps h' performed => ?_
      compile_keeps := fun source runtime => ?_
      warnings_keep := Session.exitCode_compile rested
      blocked := fun static source steps => ?_ }
  · refine (ReportLog.exitCode_eq_static_iff _).trans ?_
    rw [noted.log, hadError_foldl_note]
    exact or_iff_left fun ⟨flag, _⟩ => nomatch flag
  · refine (ReportLog.exitCode_eq_runtime_iff _ clear).trans ?_
    rw [noted.log, hadRuntimeError_foldl_note lawful]
    exact or_iff_right fun flag => nomatch flag
  · unfold Session.exitCode ReportLog.exitCode at *
    split
    · simp_all
    · split <;> simp_all
  · obtain ⟨program, hunit, result⟩ := Option.bind_eq_some_iff.1 performed
    obtain ⟨s, executed, rfl⟩ := Option.map_eq_some_iff.1 result
    refine (ReportLog.exitCode_eq_static_iff _).trans ?_
    rw [Session.hadError_execute rested executed]
    exact (ReportLog.exitCode_eq_static_iff _).symm
  · rw [Session.exitCode_compile rested] at runtime
    split at runtime
    · exact nomatch runtime
    · exact runtime
  · have stopped := Session.compile_of_hadError static source
    unfold Session.run?
    rw [stopped]
    exact ⟨rfl, rfl, rfl⟩

/-- The stray character is forgotten, and the failing flush makes the status 70. -/
theorem exit_status_follows_journal_stray_unflushed :
    ∃ h, History.meet? ⟨.fresh {} {} {} fun _ => 0, []⟩ strayThenUnflushed = some h
      ∧ h.Status (History.journal ⟨.fresh {} {} {} fun _ => 0, []⟩ strayThenUnflushed)
      ∧ h.session.exitCode = 70 := by
  obtain ⟨h, met, journal⟩ := meet_strayThenUnflushed
  have status := exit_status_follows_journal {} {} {} (fun _ => 0) strayThenUnflushed met
  have static := status.static_iff
  have runtime := status.runtime_iff
  rw [journal] at static runtime
  have clear : h.session.exitCode ≠ 65 := by
    rw [Ne, static]
    decide
  exact ⟨h, met, status, (runtime clear).2 ⟨.stream "closed", by decide⟩⟩

end Kix
