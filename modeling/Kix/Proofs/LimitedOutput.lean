import Kix.Proofs.Journal
import Kix.Proofs.TruncatedRuns

/-!
# Sessions whose output has no room

Two sessions are given the same units. The output stream of the one takes everything, that of
the other a number of bytes. **The second session is the first one, cut off**
(`limited_output_only_truncates`). As long as what is written fits, the two do the same; in
the run that passes the limit the second session reports that the stream is full, and leaves
everything as it was at the write that did not fit.

What the later units do in the second session has little to do with the first one, since a
part of a unit is missing. But a full stream stays full, so that they write nothing.
-/

namespace Kix

namespace Session

/-- The session with a limit to its output. Nothing else is different. -/
def limited (s : Session) (limit : Nat) : Session := { s with machine := s.machine.limited limit }

/-- Compiling has nothing to do with the output. -/
theorem compile_limited (s : Session) (limit : Nat) (source : String) :
    (s.limited limit).compile source
      = ((s.compile source).1, (s.compile source).2.limited limit) := by
  rw [compile_eq, compile_eq]
  by_cases static : (s.afterReading source).log.hadError = true
  · rw [if_pos static]
    exact if_pos static
  rw [if_neg static]
  refine (if_neg static).trans ?_
  by_cases static' : (s.afterResolving source).log.hadError = true
  · rw [if_pos static']
    exact if_pos static'
  · rw [if_neg static']
    exact if_neg static'

/-- Compiling writes nothing to the output. -/
theorem out_compile (s : Session) (source : String) :
    (s.compile source).2.machine.out = s.machine.out := by
  rw [machine_compile]

/-- **The run in which the output is cut off.** Without the limit it leads from `s` to `s'`,
and with it to `t`. -/
structure CutOff (limit : Nat) (reason : String) (s : Session) (source : String) (s' t : Session)
    (program : Program) (w : Write) : Prop where
  compiles : (s.compile source).1 = some program
  /-- The program comes to the write, with the limit and without it. -/
  comes : ∃ steps, Meets limit steps (.body program) (s.compile source).2.machine w
  /-- Without the limit it goes on from there. -/
  onward : w.after.out.Grows s'.machine.out
  /-- With the limit there is no room for the write, -/
  full : (w.limited limit).machine.out.fits w.text = false
  /-- and nothing is executed after it. -/
  stops : t.machine = { (w.limited limit).after with current := none }
  /-- One report says that the stream is full, and it is the only one that ends a run. -/
  reports : t.err = s.err.putReports (s.raises source ++ [w.report reason])
  quiet : NoneEndsRun (s.raises source)
  runtime : (w.report reason).isRuntime = true
  message : (w.report reason).message = reason
  exitCode : t.exitCode = 70

variable {s s' t : Session} {limit steps steps' : Nat} {source : String}

/-- A unit that compiles is executed. -/
theorem run?_of_compile {program : Program} (unit : (s.compile source).1 = some program)
    (steps : Nat) : s.run? steps source = (s.compile source).2.execute? steps program := by
  unfold run?
  generalize s.compile source = result at unit ⊢
  obtain ⟨_, _⟩ := result
  cases unit
  rfl

/-- A unit that does not is not. -/
theorem run?_of_compile_eq_none (unit : (s.compile source).1 = none) (steps : Nat) :
    s.run? steps source = some (s.compile source).2 := by
  unfold run?
  generalize s.compile source = result at unit ⊢
  obtain ⟨_, _⟩ := result
  cases unit
  rfl

/-- A session in which a unit was compiled, executed until its machine ended as the given one
did. -/
def executed (s : Session) (report : Option Report) (m : Machine) : Session :=
  { s with machine := m, log := s.log.addAll report.toList }.flush

theorem execute?_eq (s : Session) (steps : Nat) (program : Program) :
    s.execute? steps program
      = (s.machine.run? steps program).map fun r => s.executed r.1 r.2 := rfl

/-- **What a run does**: it compiles the unit, and executes it if that succeeded. -/
theorem cases_of_run? (ran : s.run? steps source = some s') :
    s' = (s.compile source).2
    ∨ ∃ program report m, (s.compile source).2.machine.run? steps program = some (report, m)
      ∧ s' = (s.compile source).2.executed report m := by
  cases unit : (s.compile source).1 with
  | none =>
    rw [run?_of_compile_eq_none unit] at ran
    exact .inl (Option.some.inj ran).symm
  | some program =>
    rw [run?_of_compile unit, execute?_eq] at ran
    obtain ⟨⟨report, m⟩, ended, rfl⟩ := Option.map_eq_some_iff.1 ran
    exact .inr ⟨program, report, m, ended, rfl⟩

/-- A run that ended by a report has the status of that, if there was no static report. -/
theorem exitCode_executed {report : Report} (clear : s.log.hadError = false)
    (endsRun : report.isRuntime = true) (m : Machine) :
    (s.executed (some report) m).exitCode = 70 := by
  have static := Report.isStatic_of_isRuntime endsRun
  unfold exitCode ReportLog.exitCode executed flush
  simp [ReportLog.drain, ReportLog.addAll, clear, static, endsRun]

/-- The session behind a run that was cut off. -/
theorem cutOff_executed {program : Program} {w : Write}
    (unlimited : s.machine.out.limit = none) (rested : s.log.pending = [])
    (unit : (s.compile source).1 = some program)
    (cut : (s.compile source).2.machine.CutOff limit steps program w)
    {report : Option Report} {m : Machine}
    (ran : (s.compile source).2.machine.run? steps program = some (report, m)) :
    CutOff limit s.machine.out.writeFault s source ((s.compile source).2.executed report m)
      (((s.compile source).2.limited limit).executed
        (some (w.report s.machine.out.writeFault)) { w.after.limited limit with current := none })
      program w := by
  have clear : (s.compile source).2.log.hadError = false :=
    hadError_of_compile (Prod.ext unit rfl)
  have free : w.machine.out.limit = none := by
    rw [cut.before.limit, s.out_compile source, unlimited]
  obtain ⟨endsRun, message⟩ := cut.meets.free.report s.machine.out.writeFault
  refine
    { compiles := unit
      comes := ⟨steps, cut.meets⟩
      onward := cut.later report m ran
      full := ?_
      stops := ?_
      reports := ?_
      quiet := s.noneEndsRun_raises source
      runtime := endsRun
      message
      exitCode := exitCode_executed clear endsRun _ }
  · refine eq_false_of_ne_true fun fits => ?_
    exact Nat.not_le_of_lt cut.passes ((Sink.fits_limited_iff free cut.room w.text).1 fits)
  · rw [Write.after_limited free]
    rfl
  · have noted := (s.noted_compile rested source).err
    show (s.compile source).2.err.putReports ((s.compile source).2.log.pending ++ [_]) = _
    rw [pending_compile, noted, ← Sink.putReports_append]
    simp [JournalEntry.reports]

/-- **A run with a limit** leaves the same session as without it, or is cut off. -/
theorem run?_limited (unlimited : s.machine.out.limit = none)
    (room : s.machine.out.written.size ≤ limit) (rested : s.log.pending = [])
    (ran : s.run? steps source = some s') (ran' : (s.limited limit).run? steps' source = some t) :
    (s'.machine.out.written.size ≤ limit ∧ t = s'.limited limit)
    ∨ (limit < s'.machine.out.written.size
      ∧ ∃ program w, CutOff limit s.machine.out.writeFault s source s' t program w) := by
  have out := s.out_compile source
  have compiled := s.compile_limited limit source
  cases unit : (s.compile source).1 with
  | none =>
    rw [run?_of_compile_eq_none unit] at ran
    rw [run?_of_compile_eq_none (by rw [compiled]; exact unit), compiled] at ran'
    cases ran
    cases ran'
    exact .inl ⟨by rw [out]; exact room, rfl⟩
  | some program =>
    rw [run?_of_compile unit, execute?_eq] at ran
    rw [run?_of_compile (by rw [compiled]; exact unit), compiled, execute?_eq] at ran'
    obtain ⟨⟨report, m⟩, ended, rfl⟩ := Option.map_eq_some_iff.1 ran
    obtain ⟨⟨report', m'⟩, ended', rfl⟩ := Option.map_eq_some_iff.1 ran'
    -- More steps make no difference, so both runs have as many.
    replace ended := Machine.run?_of_le (Nat.le_max_left steps steps') ended
    replace ended' := Machine.run?_of_le (Nat.le_max_right steps steps') ended'
    have room' : (s.compile source).2.machine.out.written.size ≤ limit := by
      rw [out]
      exact room
    rcases Machine.run?_limited (by rw [out]; exact unlimited) room' (max steps steps') program
      with ⟨fits, same⟩ | ⟨w, cut⟩
    · refine .inl ⟨fits report m ended, ?_⟩
      rw [ended] at same
      have same := ended'.symm.trans same
      cases same
      rfl
    · have passes := Nat.lt_of_lt_of_le cut.passes (cut.later report m ended).size_le
      refine .inr ⟨passes, program, w, ?_⟩
      have same := ended'.symm.trans cut.ended
      cases same
      rw [out]
      exact cutOff_executed unlimited rested unit cut ended

/-- A run adds to what was written. -/
theorem grows_of_run? (unlimited : s.machine.out.limit = none)
    (ran : s.run? steps source = some s') : s.machine.out.Grows s'.machine.out := by
  rw [← s.out_compile source] at unlimited ⊢
  rcases cases_of_run? ran with rfl | ⟨program, report, m, ended, rfl⟩
  · exact .refl _
  · exact Machine.grows_of_run? unlimited ended

/-- A full stream stays as it is. -/
theorem out_of_run?_full (full : s.machine.out.limit = some s.machine.out.written.size)
    (ran : s.run? steps source = some s') : s'.machine.out = s.machine.out := by
  rw [← s.out_compile source] at full ⊢
  rcases cases_of_run? ran with rfl | ⟨program, report, m, ended, rfl⟩
  · rfl
  · exact Machine.out_of_run?_full full ended

/-- After a run no report is waiting. -/
theorem pending_of_run? (ran : s.run? steps source = some s') : s'.log.pending = [] := by
  rcases cases_of_run? ran with rfl | ⟨program, report, m, ended, rfl⟩
  · exact s.pending_compile source
  · rfl

/-! ## Runs in a row -/

/-- **Runs one after the other**, each of which comes to an end: the session behind each. -/
inductive RunsAll : Session → List String → List Session → Prop where
  | nil {s : Session} : RunsAll s [] []
  | cons {s s' : Session} {source : String} {sources : List String} {later : List Session}
    (steps : Nat) : s.run? steps source = some s' → RunsAll s' sources later →
    RunsAll s (source :: sources) (s' :: later)

namespace RunsAll

variable {sources : List String} {sessions sessions' : List Session}

/-- **Units one after the other only add to the output.** -/
theorem grows (unlimited : s.machine.out.limit = none) (ran : s.RunsAll sources sessions) :
    s.machine.out.Grows (sessions.getLastD s).machine.out := by
  induction ran with
  | nil => exact .refl _
  | cons steps first _ ih =>
    have grown := grows_of_run? unlimited first
    rw [List.getLastD_cons]
    exact grown.trans (ih (grown.limit.trans unlimited))

/-- A stream that is full stays as it is. -/
theorem out_of_full (full : s.machine.out.limit = some s.machine.out.written.size)
    (ran : s.RunsAll sources sessions) :
    (sessions.getLastD s).machine.out = s.machine.out := by
  induction ran with
  | nil => rfl
  | cons steps first _ ih =>
    have same := out_of_run?_full full first
    rw [List.getLastD_cons, ih (by rw [same]; exact full), same]

end RunsAll

/-- **Where the sessions part**: the runs before have room for all they write, and the next
one is cut off. -/
structure Parts (limit : Nat) (reason : String) (s : Session) (sources : List String)
    (sessions sessions' earlier : List Session) (source : String) (s' t : Session) : Prop where
  free : ∃ later, sessions = earlier ++ s' :: later
  tight : ∃ later, sessions' = earlier.map (·.limited limit) ++ t :: later
  unit : sources[earlier.length]? = some source
  fits : ∀ e ∈ earlier, e.machine.out.written.size ≤ limit
  passes : limit < s'.machine.out.written.size
  cut : ∃ program w, CutOff limit reason (earlier.getLastD s) source s' t program w

/-- One more unit in front, which fits. -/
theorem Parts.cons {reason first : String} {s₁ : Session} {sources : List String}
    {sessions sessions' earlier : List Session}
    (fits : s₁.machine.out.written.size ≤ limit)
    (parts : Parts limit reason s₁ sources sessions sessions' earlier source s' t) :
    Parts limit reason s (first :: sources) (s₁ :: sessions) (s₁.limited limit :: sessions')
      (s₁ :: earlier) source s' t := by
  obtain ⟨later, free⟩ := parts.free
  obtain ⟨later', tight⟩ := parts.tight
  refine ⟨⟨later, by rw [free]; rfl⟩, ⟨later', by rw [tight]; rfl⟩, parts.unit,
    List.forall_mem_cons.2 ⟨fits, parts.fits⟩, parts.passes, ?_⟩
  rw [List.getLastD_cons]
  exact parts.cut

/-- Behind the run that is cut off, the stream is full of what was written without a
limit. -/
theorem CutOff.out_eq {reason : String} {program : Program} {w : Write}
    (cut : CutOff limit reason s source s' t program w) (unlimited : s'.machine.out.limit = none) :
    t.machine.out = s'.machine.out.limited limit := by
  have free : w.machine.out.limit = none := by
    rw [← Sink.limit_put w.machine.out w.text, ← unlimited]
    exact cut.onward.limit.symm
  have passes : limit ≤ w.after.out.written.size := by
    have full := cut.full
    unfold Sink.fits at full
    rw [show (w.limited limit).machine.out.room? = _ from Sink.room?_limited _ _] at full
    have missing := of_decide_eq_false full
    show limit ≤ (w.machine.out.put w.text).written.size
    rw [Sink.size_put free]
    omega
  rw [cut.stops, Write.after_limited free, cut.onward.limited_eq passes]
  rfl

namespace RunsAll

variable {sources : List String} {sessions sessions' : List Session}

/-- Runs with a limit leave the same sessions as without it, up to where they part. -/
theorem limited (unlimited : s.machine.out.limit = none)
    (room : s.machine.out.written.size ≤ limit) (rested : s.log.pending = [])
    (ran : s.RunsAll sources sessions) (ran' : (s.limited limit).RunsAll sources sessions') :
    (sessions'.getLastD (s.limited limit)).machine.out
      = (sessions.getLastD s).machine.out.limited limit
    ∧ ((sessions.getLastD s).machine.out.written.size ≤ limit
        ∧ sessions' = sessions.map (·.limited limit)
      ∨ limit < (sessions.getLastD s).machine.out.written.size
        ∧ ∃ earlier source s' t, Parts limit s.machine.out.writeFault s sources sessions sessions'
          earlier source s' t) := by
  induction ran generalizing sessions' with
  | nil =>
    cases ran'
    exact ⟨rfl, .inl ⟨room, rfl⟩⟩
  | @cons s s' source sources later steps first rest ih =>
    cases ran' with
    | @cons _ t _ _ later' steps' first' rest' =>
      have grown := grows_of_run? unlimited first
      have unlimited' := grown.limit.trans unlimited
      rw [List.getLastD_cons, List.getLastD_cons]
      rcases run?_limited unlimited room rested first first' with ⟨fits, rfl⟩ |
        ⟨passes, program, w, cut⟩
      · obtain ⟨out, same | ⟨passes, earlier, source', s'', t, parts⟩⟩ :=
          ih unlimited' fits (pending_of_run? first) rest'
        · exact ⟨out, .inl ⟨same.1, by rw [same.2]; rfl⟩⟩
        · rw [grown.writeFault] at parts
          exact ⟨out, .inr ⟨passes, _, _, _, _, parts.cons fits⟩⟩
      · have out := cut.out_eq unlimited'
        have later := rest.grows unlimited'
        have full : t.machine.out.limit = some t.machine.out.written.size := by
          rw [out]
          show some limit = some (ByteArray.extract _ 0 limit).size
          rw [ByteArray.size_extract]
          congr 1
          omega
        refine ⟨?_, .inr ⟨Nat.lt_of_lt_of_le passes later.size_le, [], source, s', t, ?_⟩⟩
        · rw [rest'.out_of_full full, out, later.limited_eq (Nat.le_of_lt passes)]
        · exact ⟨⟨_, rfl⟩, ⟨_, rfl⟩, rfl, List.forall_mem_nil _, passes, program, w, cut⟩

end RunsAll

/-- A limit on a fresh session. -/
theorem limited_fresh (policy : Policy) (flushFault : Option String) (err : Sink)
    (clock : Nat → Nat) (limit : Nat) :
    (fresh policy { flushFault } err clock).limited limit
      = fresh policy { limit := some limit, flushFault } err clock := by
  have empty : ({ flushFault } : Sink).limited limit = { limit := some limit, flushFault } := by
    show Sink.mk (ByteArray.empty.extract 0 limit) _ _ _ = _
    rw [Sink.extract_of_size_le (Nat.zero_le limit)]
  exact congrArg (fun out => fresh policy out err clock) empty

end Session

/-- **A limited output only truncates.** The same units are run in two fresh sessions, of which
one has an output stream that takes `limit` bytes. What is written there is what fits of what
is written without the limit, of `n` bytes say. If they fit, the sessions behind all runs are
the same; otherwise they are the same up to the run that passes the limit, which is cut off
and reports that the stream is full. -/
theorem limited_output_only_truncates (policy : Policy) (flushFault : Option String) (err : Sink)
    (clock : Nat → Nat) (limit : Nat) (sources : List String) {sessions sessions' : List Session}
    (ran : (Session.fresh policy { flushFault } err clock).RunsAll sources sessions)
    (ran' : (Session.fresh policy { limit := some limit, flushFault } err clock).RunsAll
      sources sessions') :
    let start := Session.fresh policy { flushFault } err clock
    let start' := Session.fresh policy { limit := some limit, flushFault } err clock
    let n := (sessions.getLastD start).machine.out.written.size
    (sessions'.getLastD start').machine.out.written
      = (sessions.getLastD start).machine.out.written.extract 0 (min limit n)
    ∧ (n ≤ limit → sessions' = sessions.map (·.limited limit))
    ∧ (limit < n → ∃ earlier source s' t, Session.Parts limit "sink full" start sources
        sessions sessions' earlier source s' t) := by
  intro start start' n
  rw [← Session.limited_fresh policy flushFault err clock limit] at ran'
  obtain ⟨out, outcome⟩ := Session.RunsAll.limited (s := start) rfl (Nat.zero_le limit) rfl ran ran'
  rw [Session.limited_fresh policy flushFault err clock limit] at out
  refine ⟨?_, fun fits => ?_, fun passes => ?_⟩
  · show (Session.machine _).out.written = _
    rw [out]
    show ByteArray.extract _ 0 limit = ByteArray.extract _ 0 (min limit n)
    rcases Nat.le_total limit n with passes | fits
    · rw [Nat.min_eq_left passes]
    · rw [Nat.min_eq_right fits, Sink.extract_of_size_le fits,
        Sink.extract_of_size_le (Nat.le_refl n)]
  · rcases outcome with ⟨-, same⟩ | ⟨passes, -⟩
    · exact same
    · exact absurd fits (Nat.not_le_of_lt passes)
  · rcases outcome with ⟨fits, -⟩ | ⟨-, parts⟩
    · exact absurd fits (Nat.not_le_of_lt passes)
    · exact parts

/-- A unit that writes four bytes. -/
def fourBytes : String := "print nil;"

/-- Its program. -/
def fourBytesProgram : Program := [.print (.literal .nil)]

/-- A unit that writes five bytes, and then four. -/
def nineBytes : String := "print true; print nil;"

/-- Its program. -/
def nineBytesProgram : Program := [.print (.literal (.bool true)), .print (.literal .nil)]

theorem accepts_fourBytes {s : Session} (clear : s.log.hadError = false) :
    s.Accepts fourBytes fourBytesProgram s.nextId where
  clear := clear
  scanned := by decide +kernel
  parsed := by
    have scanned : tokens fourBytes = [.onLine 1 .printWord "print", .onLine 1 .nilWord "nil",
        .onLine 1 .semicolon ";", .endOfInput 1] := by decide +kernel
    rw [scanned]
    cbv
  resolved := rfl

theorem accepts_nineBytes {s : Session} (clear : s.log.hadError = false) :
    s.Accepts nineBytes nineBytesProgram s.nextId where
  clear := clear
  scanned := by decide +kernel
  parsed := by
    have scanned : tokens nineBytes = [.onLine 1 .printWord "print", .onLine 1 .trueWord "true",
        .onLine 1 .semicolon ";", .onLine 1 .printWord "print", .onLine 1 .nilWord "nil",
        .onLine 1 .semicolon ";", .endOfInput 1] := by decide +kernel
    rw [scanned]
    cbv
  resolved := rfl

/-- The two units in a row. -/
theorem runsAll_fourBytes_nineBytes {s : Session} {m₁ m₂ : Machine} {report : Option Report}
    (clear : s.log.hadError = false) (rested : s.log.pending = [])
    (first : s.machine.run? 4 fourBytesProgram = some (none, m₁))
    (second : m₁.run? 4 nineBytesProgram = some (report, m₂)) :
    s.RunsAll [fourBytes, nineBytes]
      [s.behind s.nextId m₁ [], (s.behind s.nextId m₁ []).behind s.nextId m₂ report.toList] := by
  have ran : s.run? 4 fourBytes = some (s.behind s.nextId m₁ []) :=
    ((accepts_fourBytes clear).ended rested first).2
  have clear' : (s.behind s.nextId m₁ []).log.hadError = false := by
    show (s.log.hadError || false) = false
    rw [clear]
    rfl
  have ran' := ((accepts_nineBytes clear').ended rfl second).2
  exact .cons 4 ran (.cons 4 ran' .nil)

/-- Both units run one after the other, and write thirteen bytes. -/
theorem run_fourBytes_nineBytes : ∃ m₁ m₂ n₁ n₂,
    (Session.fresh {} {} {} fun _ => 0).machine.run? 4 fourBytesProgram = some (none, m₁)
    ∧ m₁.run? 4 nineBytesProgram = some (none, m₂)
    ∧ m₂.out.written = "nil\ntrue\nnil\n".toUTF8
    ∧ (Session.fresh {} { limit := some 6 } {} fun _ => 0).machine.run? 4 fourBytesProgram
      = some (none, n₁)
    ∧ n₁.run? 4 nineBytesProgram = some (some (.stream "sink full"), n₂) :=
  ⟨_, _, _, _, rfl, rfl, by decide +kernel, rfl, rfl⟩

/-- With room for six bytes, the second unit is cut off after two of its own. -/
theorem limited_output_only_truncates_second_unit : ∃ sessions sessions',
    (Session.fresh {} {} {} fun _ => 0).RunsAll [fourBytes, nineBytes] sessions
    ∧ (Session.fresh {} { limit := some 6 } {} fun _ => 0).RunsAll [fourBytes, nineBytes] sessions'
    ∧ (sessions'.getLastD (.fresh {} { limit := some 6 } {} fun _ => 0)).machine.out.written
      = "nil\ntr".toUTF8
    ∧ ∃ earlier source s' t, Session.Parts 6 "sink full" (.fresh {} {} {} fun _ => 0)
        [fourBytes, nineBytes] sessions sessions' earlier source s' t := by
  obtain ⟨m₁, m₂, n₁, n₂, first, second, written, first', second'⟩ := run_fourBytes_nineBytes
  have ran := runsAll_fourBytes_nineBytes rfl rfl first second
  have ran' := runsAll_fourBytes_nineBytes rfl rfl first' second'
  obtain ⟨truncated, -, parts⟩ :=
    limited_output_only_truncates {} none {} (fun _ => 0) 6 [fourBytes, nineBytes] ran ran'
  refine ⟨_, _, ran, ran', ?_, parts ?_⟩
  · refine truncated.trans ?_
    show m₂.out.written.extract 0 (min 6 m₂.out.written.size) = _
    rw [written]
    decide +kernel
  · show 6 < m₂.out.written.size
    rw [written]
    decide +kernel

end Kix
