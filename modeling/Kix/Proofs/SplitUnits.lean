import Kix.Proofs.ExtendedReading
import Kix.Proofs.JoinedText
import Kix.Proofs.ProgramRuns
import Kix.Proofs.ShiftedSessions
import Kix.Proofs.StaticReports

/-!
# A program in two units

A text may be given to a session as one unit, or as two of which the second begins on a
new line. **The difference is in the line numbers only.** If the first unit runs without a
report that matters to the exit status and the second then compiles, the whole compiles too;
it comes to an end exactly if the second unit does, and then the two ways agree on the
output, on the globals, on the exit status and on the reports, in their order.

Each stage contributes its own reason. Text in which no word is left open is scanned piece by
piece; a list of statements that reads without a complaint is read alike when more tokens
follow; resolution takes statements one by one; and a run of statements in a row is a run of
the one part and then of the other. What remains is bookkeeping about labels: as part of the
whole, the second unit stands `lastLine first` lines further down, and the first unit runs on
a machine that already has the addresses of the second, which it never looks up.
-/

namespace Kix

/-! ## Lines of the whole and of the parts -/

namespace Relabeling

/-- **Back to the lines of the parts**: behind the first `k` lines counting begins
anew. -/
def split (k : Nat) : Relabeling := { line := fun line => if line ≤ k then line else line - k }

/-- Shifting lines and splitting them again. -/
theorem line_split_later {k line : Nat} (pos : 1 ≤ line) :
    (split k).line ((later k).line line) = line := by
  show (if line + k ≤ k then line + k else line + k - k) = line
  rw [if_neg (by omega), Nat.add_sub_cancel]

end Relabeling

/-- Tokens stand on the lines of their source. -/
theorem line_of_mem_tokens {source : String} {t : Token} (h : t ∈ tokens source) :
    1 ≤ t.line ∧ t.line ≤ lastLine source := by
  rw [tokens_eq] at h
  rcases List.mem_append.1 h with word | last
  · exact (mem_words word).2
  · cases List.mem_singleton.1 last
    exact ⟨Nat.le_add_right 1 _, Nat.le_refl _⟩

/-- The lines of the first part stay. -/
theorem tokens_split (source : String) :
    (tokens source).map (Token.relabel (.split (lastLine source))) = tokens source := by
  refine (List.map_congr_left fun t mem => ?_).trans (List.map_id _)
  show Token.mk _ _ _ _ = t
  rw [show (Relabeling.split (lastLine source)).line t.line = t.line from
    if_pos (line_of_mem_tokens mem).2]

/-- The lines of the second part come back. -/
theorem tokens_later_split (k : Nat) (source : String) :
    ((tokens source).map (Token.relabel (.later k))).map (Token.relabel (.split k))
      = tokens source := by
  rw [List.map_map]
  refine (List.map_congr_left fun t mem => ?_).trans (List.map_id _)
  show Token.mk _ _ _ _ = t
  rw [Token.line_relabel, Relabeling.line_split_later (line_of_mem_tokens mem).1]
  rfl

/-- Parsing tokens on other lines. -/
theorem parse_line (line : Nat → Nat) {ts : List Token} (closed : ∃ t ∈ ts, t.kind = .eof)
    (firstId : OccurrenceId) :
    parse (ts.map (Token.relabel { line })) firstId
      = ⟨relabelBody { line } (parse ts firstId).program, (parse ts firstId).nextId,
        (parse ts firstId).reports.map (Report.relabel { line })⟩ :=
  parse_relabel { line } closed firstId

section Parsing

variable {first second : String} {firstId n n' : OccurrenceId} {p q : Program}

/-- The first part is as it was in the whole. -/
theorem relabelBody_split (parsed : parse (tokens first) firstId = ⟨p, n, []⟩) :
    relabelBody (.split (lastLine first)) p = p := by
  have same := parse_line (Relabeling.split (lastLine first)).line
    (exists_eof_mem_tokens first) firstId
  rw [show Relabeling.mk (fun id => id) (Relabeling.split (lastLine first)).line
    = .split (lastLine first) from rfl, tokens_split, parsed] at same
  exact (congrArg Parse.program same).symm

/-- The second part, on later lines. -/
theorem parse_later (k : Nat) (parsed : parse (tokens second) firstId = ⟨q, n, []⟩) :
    parse ((tokens second).map (Token.relabel (.later k))) firstId
      = ⟨relabelBody (.later k) q, n, []⟩ := by
  have moved := parse_line (Relabeling.later k).line (exists_eof_mem_tokens second) firstId
  rw [parsed] at moved
  exact moved

/-- The second part comes back. -/
theorem relabelBody_later_split (k : Nat) (parsed : parse (tokens second) firstId = ⟨q, n, []⟩) :
    relabelBody (.split k) (relabelBody (.later k) q) = q := by
  have closed : ∃ t ∈ (tokens second).map (Token.relabel (.later k)), t.kind = .eof := by
    obtain ⟨t, mem, isEof⟩ := exists_eof_mem_tokens second
    exact ⟨_, List.mem_map_of_mem mem, isEof⟩
  have back := parse_line (Relabeling.split k).line closed firstId
  rw [parse_later k parsed, show Relabeling.mk (fun id => id) (Relabeling.split k).line
    = .split k from rfl, tokens_later_split, parsed] at back
  exact (congrArg Parse.program back).symm

/-- **Reading the whole is reading its parts.** -/
theorem parse_joined (clean : lexicalReports first = [])
    (parsed : parse (tokens first) firstId = ⟨p, n, []⟩)
    (parsed' : parse (tokens second) n = ⟨q, n', []⟩) :
    parse (tokens (first ++ "\n" ++ second)) firstId
      = ⟨p ++ relabelBody (.later (lastLine first)) q, n', []⟩ := by
  have moved := parse_later (lastLine first) parsed'
  rw [tokens_eq, List.map_append] at moved
  rw [tokens_eq] at parsed
  rw [tokens_eq, words_joined second clean, lastLine_joined]
  have noEof : ∀ t ∈ (words second).map (Token.relabel (.later (lastLine first))),
      t.kind ≠ .eof := by
    intro t mem
    obtain ⟨t', mem', rfl⟩ := List.mem_map.1 mem
    exact (mem_words mem').1
  exact parse_append (fun t mem => (mem_words mem).1) noEof rfl rfl parsed moved

end Parsing

/-! ## Units that compile -/

/-- **A unit that compiles**: scanning and reading report nothing, and resolving nothing
static. -/
structure Session.Accepts (s : Session) (source : String) (program : Program)
    (next : OccurrenceId) : Prop where
  clear : s.log.hadError = false
  scanned : lexicalReports source = []
  parsed : parse (tokens source) s.nextId = ⟨program, next, []⟩
  resolved : (resolve s.policy program).reports.any Report.isStatic = false

/-- The session behind a run that has made the given reports. -/
def Session.behind (s : Session) (next : OccurrenceId) (m : Machine) (reports : List Report) :
    Session :=
  { s with
    machine := m
    nextId := next
    log := (s.log.addAll reports).drain.2
    err := s.err.putReports reports }

namespace Session

variable {s : Session} {source : String} {program : Program} {next : OccurrenceId}

/-- A unit that compiles is accepted. -/
theorem accepts_of_compile (compiled : (s.compile source).1 = some program) :
    ∃ next, s.Accepts source program next := by
  have read := (allStatic_lexicalReports source).append (allStatic_parse (tokens source) s.nextId)
  rw [compile_eq] at compiled
  split at compiled
  · exact nomatch compiled
  next quiet =>
  split at compiled
  · exact nomatch compiled
  next quiet' =>
  obtain rfl := Option.some.inj compiled
  obtain ⟨clear, none⟩ := Bool.or_eq_false_iff.1 (eq_false_of_ne_true quiet)
  obtain ⟨scanned, parsed⟩ := List.append_eq_nil_iff.1 (read.eq_nil none)
  refine ⟨(s.reading source).nextId, clear, scanned, ?_, ?_⟩
  · show s.reading source = _
    generalize same : s.reading source = result at *
    obtain ⟨program, next, reports⟩ := result
    have none : reports = [] := (congrArg Parse.reports same).symm.trans parsed
    rw [none]
  · exact (Bool.or_eq_false_iff.1 (eq_false_of_ne_true quiet')).2

/-- Being behind two units is being behind both. -/
theorem behind_behind (s : Session) (next next' : OccurrenceId) (m m' : Machine)
    (rs rs' : List Report) :
    (s.behind next m rs).behind next' m' rs' = s.behind next' m' (rs ++ rs') := by
  unfold behind
  rw [Sink.putReports_append]
  congr 1
  show ReportLog.mk [] (_ || _ || _) (_ || _ || _) = ReportLog.mk [] (_ || _) (_ || _)
  rw [List.any_append, List.any_append, Bool.or_assoc, Bool.or_assoc]

/-- The lines of reports do not matter to the exit status. -/
theorem exitCode_behind_relabel (s : Session) (next : OccurrenceId) (m m' : Machine)
    (ρ : Relabeling) (rs : List Report) :
    (s.behind next m (rs.map (Report.relabel ρ))).exitCode = (s.behind next m' rs).exitCode := by
  have static : Report.isStatic ∘ Report.relabel ρ = Report.isStatic :=
    funext (Report.isStatic_relabel ρ)
  have runtime : Report.isRuntime ∘ Report.relabel ρ = Report.isRuntime :=
    funext (Report.isRuntime_relabel ρ)
  have log : (s.log.addAll (rs.map (Report.relabel ρ))).drain.2 = (s.log.addAll rs).drain.2 := by
    show ReportLog.mk [] (_ || _) (_ || _) = ReportLog.mk [] (_ || _) (_ || _)
    rw [List.any_map, List.any_map, static, runtime]
  unfold exitCode behind
  rw [log]

section Accepted

variable (h : s.Accepts source program next)

include h

theorem Accepts.afterReading : s.afterReading source = { s with nextId := next } := by
  have nothing : s.log.addAll [] = s.log := by simp [ReportLog.addAll]
  unfold Session.afterReading
  rw [show s.reading source = _ from h.parsed, h.scanned, List.append_nil, nothing]

theorem Accepts.resolving : s.resolving source = resolve s.policy program := by
  unfold Session.resolving
  rw [show s.reading source = _ from h.parsed]

/-- The reports of an accepted unit are those of resolving it. -/
theorem Accepts.compileReports :
    s.compileReports source = (resolve s.policy program).reports := by
  unfold Session.compileReports
  rw [h.afterReading, h.resolving, show s.reading source = _ from h.parsed, h.scanned]
  exact if_neg (by rw [h.clear]; exact Bool.false_ne_true)

/-- **Compiling an accepted unit.** -/
theorem Accepts.compile (rested : s.log.pending = []) :
    s.compile source = (some program, s.behind next (s.machine.extend
      (resolve s.policy program).entries) (resolve s.policy program).reports) := by
  have checked : s.afterResolving source
      = s.behind next s.machine (resolve s.policy program).reports := by
    unfold afterResolving
    rw [h.afterReading, h.resolving]
    unfold behind Sink.putReports
    show Session.mk _ _ _ _ (List.foldl _ s.err (s.log.pending ++ _)) = _
    rw [rested, List.nil_append]
    rfl
  have quiet : (s.behind next s.machine (resolve s.policy program).reports).log.hadError
      = false := by
    show (s.log.hadError || (resolve s.policy program).reports.any Report.isStatic) = false
    rw [h.clear, h.resolved]
    rfl
  rw [compile_eq, h.afterReading, checked, h.resolving, show s.reading source = _ from h.parsed,
    if_neg (by rw [h.clear]; exact Bool.false_ne_true),
    if_neg (by rw [quiet]; exact Bool.false_ne_true)]
  rfl

/-- **Running a unit that compiles.** -/
theorem Accepts.run? (rested : s.log.pending = []) (steps : Nat) :
    s.run? steps source
      = ((s.machine.extend (resolve s.policy program).entries).run? steps program).map
          fun r => s.behind next r.2 ((resolve s.policy program).reports ++ r.1.toList) := by
  unfold Session.run? execute?
  rw [h.compile rested]
  dsimp only
  congr 1
  funext r
  rw [← behind_behind s next next (s.machine.extend (resolve s.policy program).entries)]
  rfl

end Accepted

/-! ## The reports of a run -/

/-- **The reports that running a unit makes**, in order, when `k` lines of text come before
the unit. -/
def runReports (s : Session) (k steps : Nat) (source : String) : List Report :=
  (s.compileReports source).map (Report.relabel (.later k)) ++
    match s.compile source with
    | (some program, s') =>
      ((s'.machine.run? steps (relabelBody (.later k) program)).bind Prod.fst).toList
    | (none, _) => []

/-- What a run of an accepted unit reports. -/
theorem Accepts.runReports (h : s.Accepts source program next) (rested : s.log.pending = [])
    {k steps : Nat} {r : Option Report} {m : Machine}
    (ran : (s.machine.extend (resolve s.policy program).entries).run? steps
      (relabelBody (.later k) program) = some (r, m)) :
    s.runReports k steps source
      = (resolve s.policy program).reports.map (Report.relabel (.later k)) ++ r.toList := by
  unfold Session.runReports
  rw [h.compileReports, h.compile rested]
  show _ ++ (Option.bind ((s.machine.extend _).run? steps _) _).toList = _
  rw [ran]
  rfl

/-- **A unit that begins on the first line**: what a run of it reports, and where it
leaves the session. -/
theorem Accepts.ended (h : s.Accepts source program next) (rested : s.log.pending = [])
    {steps : Nat} {r : Option Report} {m : Machine}
    (ran : (s.machine.extend (resolve s.policy program).entries).run? steps program
      = some (r, m)) :
    s.runReports 0 steps source = (resolve s.policy program).reports ++ r.toList
      ∧ s.run? steps source
        = some (s.behind next m ((resolve s.policy program).reports ++ r.toList)) := by
  constructor
  · have nothing : Relabeling.later 0 = {} := rfl
    have report : Report.relabel {} = id := funext (Report.relabel_of_line {} fun _ => rfl)
    rw [h.runReports rested (r := r) (m := m), nothing, report, List.map_id]
    rw [nothing, relabelBody_nothing]
    exact ran
  · rw [h.run? rested, ran]
    rfl

end Session

/-! ## One unit after the other -/

/-- Resolving the whole is resolving its parts. -/
theorem resolve_joined (policy : Policy) (p q : Program) (k : Nat) :
    resolve policy (p ++ relabelBody (.later k) q)
      = ⟨(resolve policy p).entries ++ (resolve policy q).entries,
        (resolve policy p).reports
          ++ (resolve policy q).reports.map (Report.relabel (.later k))⟩ := by
  have entry : (Relabeling.later k).entry = id := rfl
  rw [resolve_append, resolve_relabel, entry, List.map_id]

/-- **Two units in turn**, in a session that was fresh: the first one is run and reports
nothing that ends the run, and then the second compiles. -/
structure InTurn (s : Session) (first second : String) (p q : Program) (n n' : OccurrenceId)
    (steps : Nat) (m : Machine) : Prop where
  fresh : ∃ policy out err clock, s = .fresh policy out err clock
  accepts : s.Accepts first p n
  ran : (s.machine.extend (resolve s.policy p).entries).run? steps p = some (none, m)
  accepts' : (s.behind n m (resolve s.policy p).reports).Accepts second q n'

namespace InTurn

variable {s : Session} {first second : String} {p q : Program} {n n' : OccurrenceId}
  {steps : Nat} {m : Machine}

section Facts

variable (h : InTurn s first second p q n n' steps m)

include h

theorem rested : s.log.pending = [] := by
  obtain ⟨policy, out, err, clock, rfl⟩ := h.fresh
  rfl

/-- What is known between the units. -/
theorem between : History.Sound ⟨s.behind n m (resolve s.policy p).reports, [p]⟩
    ∧ History.Rested ⟨s.behind n m (resolve s.policy p).reports, [p]⟩ := by
  have performed : History.perform? ⟨s, []⟩ (.run first steps)
      = some ⟨s.behind n m (resolve s.policy p).reports, [p]⟩ := by
    unfold History.perform?
    dsimp only
    rw [h.accepts.run? h.rested, h.ran, h.accepts.compile h.rested]
    show some (History.mk (s.behind n m (_ ++ [])) [p]) = _
    rw [List.append_nil]
  obtain ⟨policy, out, err, clock, rfl⟩ := h.fresh
  have sound := History.sound_fresh policy out err clock
  exact ⟨sound.perform performed,
    (History.rested_fresh policy out err clock).perform sound performed⟩

/-- The whole has the addresses of both units. -/
theorem extend_append : s.machine.addresses.extend
      ((resolve s.policy p).entries ++ (resolve s.policy q).entries)
    = (m.extend (resolve s.policy q).entries).addresses := by
  show _ = m.addresses.extend _
  rw [(Machine.of_run? h.ran).1]
  exact Std.HashMap.insertMany_append

/-- For the first unit the addresses of the second are numbers left out. -/
theorem addresses_skip (id : OccurrenceId) :
    (m.extend (resolve s.policy q).entries).addresses[(Relabeling.skip n (n' - n)).id id]?
      = m.addresses[id]? := by
  obtain ⟨sound, rested⟩ := h.between
  have compiled := h.accepts'.compile rested.pending
  have sound' := sound.compile compiled
  by_cases old : id < n
  · have kept := (sound.extends_afterCompile second).address id old
    rw [show (Relabeling.skip n (n' - n)).id id = id from if_pos old]
    unfold History.afterCompile at kept
    rw [compiled] at kept
    exact kept
  · have le := Nat.not_lt.1 old
    have beyond : n' ≤ (Relabeling.skip n (n' - n)).id id := by
      have numbers : ∀ a b c : Nat, b ≤ a → c ≤ a + (c - b) := by omega
      rw [Relabeling.skip_of_le le]
      exact numbers id n n' le
    rw [show m.addresses[id]? = none from sound.consistent.unaddressed id le]
    exact sound'.consistent.unaddressed _ beyond

/-- **The first unit runs as part of the whole** as it runs alone. -/
theorem exists_run?_first :
    ∃ m₁, (s.machine.extend ((resolve s.policy p).entries ++ (resolve s.policy q).entries)).run?
        steps p = some (none, m₁)
      ∧ ∀ line, m.Relabeled { line } m →
        m₁.Relabeled { line } (m.extend (resolve s.policy q).entries) := by
  obtain ⟨sound, rested⟩ := h.between
  have spares := Relabeling.spares_skip n (n' - n)
  have table : ∀ id : OccurrenceId,
      (s.machine.addresses.extend ((resolve s.policy p).entries
        ++ (resolve s.policy q).entries))[(Relabeling.skip n (n' - n)).id id]?
      = (s.machine.addresses.extend (resolve s.policy p).entries)[id]? := by
    intro id
    rw [h.extend_append, h.addresses_skip, (Machine.of_run? h.ran).1]
    rfl
  have start : (s.machine.extend (resolve s.policy p).entries).Relabeled (.skip n (n' - n))
      (s.machine.extend ((resolve s.policy p).entries ++ (resolve s.policy q).entries)) := by
    obtain ⟨policy, out, err, clock, rfl⟩ := h.fresh
    exact Machine.relabeled_fresh _ out clock table
  have kept : relabelBody (.skip n (n' - n)) p = p :=
    spares.relabelBody fun _ => sound.identity_lt List.mem_cons_self
  have ran := Machine.run?_relabeled _ start steps p
  rw [kept, h.ran] at ran
  generalize again : (s.machine.extend _).run? steps p = r at ran
  cases ran with
  | @some _ ended same =>
    obtain ⟨report, m₁⟩ := ended
    obtain ⟨rfl, relabeled⟩ := same
    refine ⟨m₁, rfl, fun line steady => ?_⟩
    have unmoved : m.Relabeled (.skip n (n' - n)) m := rested.steady _ spares
    exact
      { globals := fun name => by
          rw [relabeled.globals, ← unmoved.globals]
          exact steady.globals name
        store := by
          rw [relabeled.store, ← unmoved.store]
          exact steady.store
        current := relabeled.current.symm
        addresses := fun id => by
          rw [(Machine.of_run? again).1, ← h.extend_append]
          rfl
        nextClosure := relabeled.nextClosure.symm
        out := relabeled.out.symm
        clock := relabeled.clock.symm
        readings := relabeled.readings.symm }

/-- The machine between the units holds lines of the first only. -/
theorem steady_split : m.Relabeled (.split (lastLine first)) m := by
  have start : (s.machine.extend (resolve s.policy p).entries).Relabeled
      (.split (lastLine first)) (s.machine.extend (resolve s.policy p).entries) := by
    obtain ⟨policy, out, err, clock, rfl⟩ := h.fresh
    exact Machine.relabeled_fresh _ out clock fun _ => rfl
  have ran := Machine.run?_relabeled _ start steps p
  rw [relabelBody_split h.accepts.parsed, h.ran] at ran
  cases ran with
  | some same => exact same.2

theorem steady : m.Relabeled {} m :=
  h.between.2.steady {} ⟨rfl, fun _ _ => rfl, fun _ le => le⟩

/-! ## The whole -/

/-- **The whole compiles.** -/
theorem accepts_whole :
    s.Accepts (first ++ "\n" ++ second) (p ++ relabelBody (.later (lastLine first)) q) n' where
  clear := h.accepts.clear
  scanned := by
    rw [lexicalReports_joined second h.accepts.scanned, h.accepts'.scanned]
    rfl
  parsed := parse_joined h.accepts.scanned h.accepts.parsed h.accepts'.parsed
  resolved := by
    rw [resolve_joined, List.any_append, List.any_map, h.accepts.resolved]
    have same : Report.isStatic ∘ Report.relabel (.later (lastLine first)) = Report.isStatic :=
      funext (Report.isStatic_relabel _)
    rw [same]
    exact h.accepts'.resolved

/-- **Running the whole** is running the second unit behind the first, on later lines. -/
theorem exists_run?_whole :
    ∃ m₁ : Machine, (∀ steps', steps ≤ steps' →
        (s.machine.extend ((resolve s.policy p).entries ++ (resolve s.policy q).entries)).run?
          (steps' + p.length) (p ++ relabelBody (.later (lastLine first)) q)
        = m₁.run? steps' (relabelBody (.later (lastLine first)) q))
      ∧ m₁.Relabeled {} (m.extend (resolve s.policy q).entries)
      ∧ m₁.Relabeled (.split (lastLine first)) (m.extend (resolve s.policy q).entries) := by
  obtain ⟨m₁, ran, relabeled⟩ := h.exists_run?_first
  refine ⟨m₁, fun steps' le => ?_, relabeled _ h.steady, relabeled _ h.steady_split⟩
  have top : (s.machine.extend
      ((resolve s.policy p).entries ++ (resolve s.policy q).entries)).current = none := by
    obtain ⟨policy, out, err, clock, rfl⟩ := h.fresh
    rfl
  exact Machine.run?_append top (bodyReturns_eq_false s.policy h.accepts.resolved) ran _ le

end Facts

end InTurn

/-- **The whole comes to the same as its parts**: `start` is a session in which the parts
are run one after the other, given `steps` and `n` steps, `s` and `b` are the sessions
behind them, and `j` is the session behind a run of the whole from `start`. Functions that
the globals and frames hold correspond by the lines of their bodies, and nothing else of a
value differs. -/
structure SameAsWhole (first second : String) (start s b j : Session) (steps n n' : Nat) :
    Prop where
  output : j.machine.out = b.machine.out
  globals : ∀ name, b.machine.global? name
    = (j.machine.global? name).map (Value.relabel (.split (lastLine first)))
  store : b.machine.store = j.machine.store.relabel (.split (lastLine first))
  exitCode : j.exitCode = b.exitCode
  whole : start.runReports 0 n' (first ++ "\n" ++ second)
    = start.runReports 0 steps first ++ s.runReports (lastLine first) n second
  parts : start.runReports 0 steps first ++ s.runReports 0 n second
    = (start.runReports 0 n' (first ++ "\n" ++ second)).map
      (Report.relabel (.split (lastLine first)))
  written : b.err = start.err.putReports
    (start.runReports 0 steps first ++ s.runReports 0 n second)
  written' : j.err = start.err.putReports (start.runReports 0 n' (first ++ "\n" ++ second))

namespace InTurn

variable {s : Session} {first second : String} {p q : Program} {n n' : OccurrenceId}
  {steps : Nat} {m : Machine}

/-- The reports of the parts are those of the whole, on the lines of the parts. -/
theorem reports_split (h : InTurn s first second p q n n' steps m) :
    (resolve s.policy p).reports ++ (resolve s.policy q).reports
      = ((resolve s.policy p).reports
        ++ (resolve s.policy q).reports.map (Report.relabel (.later (lastLine first)))).map
          (Report.relabel (.split (lastLine first))) := by
  have stays := resolve_relabel (.split (lastLine first)) s.policy p
  rw [relabelBody_split h.accepts.parsed] at stays
  have back := resolve_relabel (.split (lastLine first)) s.policy
    (relabelBody (.later (lastLine first)) q)
  rw [relabelBody_later_split _ h.accepts'.parsed, resolve_relabel] at back
  rw [List.map_append]
  exact congrArg₂ _ (congrArg Resolved.reports stays) (congrArg Resolved.reports back)

/-- **Runs of the whole and of the second unit** that end, end alike. -/
theorem sameAsWhole (h : InTurn s first second p q n n' steps m) {l l' : Nat}
    {r : Option Report} {mb mj mm : Machine}
    (part : (m.extend (resolve s.policy q).entries).run? l q
      = some (r.map (Report.relabel (.split (lastLine first))), mb))
    (moved : (m.extend (resolve s.policy q).entries).run? l
      (relabelBody (.later (lastLine first)) q) = some (r, mm))
    (whole : (s.machine.extend ((resolve s.policy p).entries
      ++ (resolve s.policy q).entries)).run? l' (p ++ relabelBody (.later (lastLine first)) q)
      = some (r, mj))
    (machine : mj.Relabeled (.split (lastLine first)) mb) :
    ∃ b j, (s.behind n m (resolve s.policy p).reports).run? l second = some b
      ∧ s.run? l' (first ++ "\n" ++ second) = some j
      ∧ SameAsWhole first second s (s.behind n m (resolve s.policy p).reports) b j steps l l' := by
  have firstReports := (h.accepts.ended h.rested h.ran).1
  obtain ⟨partReports, b⟩ := h.accepts'.ended rfl part
  have movedReports := h.accepts'.runReports rfl moved
  obtain ⟨wholeReports, j⟩ := h.accepts_whole.ended h.rested (by rw [resolve_joined]; exact whole)
  rw [resolve_joined] at wholeReports j
  rw [Session.behind_behind] at b
  rw [Option.toList_none, List.append_nil] at firstReports
  have parts : (resolve s.policy p).reports ++ ((resolve s.policy q).reports
        ++ (r.map (Report.relabel (.split (lastLine first)))).toList)
      = ((resolve s.policy p).reports
        ++ (resolve s.policy q).reports.map (Report.relabel (.later (lastLine first)))
        ++ r.toList).map (Report.relabel (.split (lastLine first))) := by
    rw [List.map_append, ← h.reports_split, ← Option.toList_map, List.append_assoc]
  refine ⟨_, _, b, j, ?_⟩
  exact
    { output := machine.out.symm
      globals := machine.globals
      store := machine.store
      exitCode := by
        rw [show (s.behind n m _).policy = s.policy from rfl, parts]
        exact (s.exitCode_behind_relabel n' mb mj _ _).symm
      whole := by
        rw [wholeReports, firstReports, movedReports, List.append_assoc]
        rfl
      parts := by
        rw [wholeReports, firstReports, partReports]
        exact parts
      written := by
        rw [firstReports, partReports]
        rfl
      written' := by
        rw [wholeReports]
        rfl }

/-- The second unit, behind the first in the whole and on a machine of its own, on its own
lines and on later ones. -/
theorem run?_second (h : InTurn s first second p q n n' steps m) {m₁ : Machine}
    (same : m₁.Relabeled {} (m.extend (resolve s.policy q).entries))
    (apart : m₁.Relabeled (.split (lastLine first)) (m.extend (resolve s.policy q).entries))
    (l : Nat) :
    Option.Rel (fun r r' => r'.1 = r.1.map (Report.relabel (.split (lastLine first)))
        ∧ r.2.Relabeled (.split (lastLine first)) r'.2
        ∧ ∃ mm, (m.extend (resolve s.policy q).entries).run? l
          (relabelBody (.later (lastLine first)) q) = some (r.1, mm))
      (m₁.run? l (relabelBody (.later (lastLine first)) q))
      ((m.extend (resolve s.policy q).entries).run? l q) := by
  have moved := Machine.run?_relabeled _ same l (relabelBody (.later (lastLine first)) q)
  have back := Machine.run?_relabeled _ apart l (relabelBody (.later (lastLine first)) q)
  have report : Report.relabel {} = id := funext (Report.relabel_of_line {} fun _ => rfl)
  rw [relabelBody_nothing, report] at moved
  rw [relabelBody_later_split _ h.accepts'.parsed] at back
  generalize m₁.run? l _ = r, (m.extend _).run? l q = r', (m.extend _).run? l _ = r'' at *
  cases back with
  | none => exact .none
  | some ends =>
    cases moved with
    | @some _ ended ends' =>
      obtain ⟨report, mm⟩ := ended
      have unmoved : report = _ := ends'.1.trans (congrFun Option.map_id _)
      refine .some ⟨ends.1, ends.2, mm, ?_⟩
      rw [unmoved]
      rfl

/-- **If the second unit comes to an end, so does the whole.** -/
theorem run_whole (h : InTurn s first second p q n n' steps m) {l : Nat} {b : Session}
    (ran : (s.behind n m (resolve s.policy p).reports).run? l second = some b) :
    ∃ l' j, s.run? l' (first ++ "\n" ++ second) = some j
      ∧ SameAsWhole first second s (s.behind n m (resolve s.policy p).reports) b j steps l l' := by
  obtain ⟨m₁, whole, same, apart⟩ := h.exists_run?_whole
  have ended := ran
  rw [h.accepts'.run? rfl] at ended
  obtain ⟨⟨r', mb⟩, part, -⟩ := Option.map_eq_some_iff.1 ended
  have alike := h.run?_second same apart l
  rw [show (m.extend (resolve s.policy q).entries).run? l q = some (r', mb) from part] at alike
  generalize inWhole : m₁.run? l _ = result at alike
  cases alike with
  | @some ended _ ends =>
    obtain ⟨r, mj⟩ := ended
    obtain ⟨rfl, machine, mm, moved⟩ := ends
    have longer := Machine.run?_of_le (Nat.le_max_right steps l) inWhole
    rw [← whole _ (Nat.le_max_left steps l)] at longer
    obtain ⟨b', j, ran', joined, alike⟩ := h.sameAsWhole part moved longer machine
    cases ran.symm.trans ran'
    exact ⟨_, j, joined, alike⟩

/-- **If the whole comes to an end, so does the second unit.** -/
theorem run_parts (h : InTurn s first second p q n n' steps m) {l' : Nat} {j : Session}
    (ran : s.run? l' (first ++ "\n" ++ second) = some j) :
    ∃ l b, (s.behind n m (resolve s.policy p).reports).run? l second = some b
      ∧ SameAsWhole first second s (s.behind n m (resolve s.policy p).reports) b j steps l l' := by
  obtain ⟨m₁, whole, same, apart⟩ := h.exists_run?_whole
  have ended := ran
  rw [h.accepts_whole.run? h.rested, resolve_joined] at ended
  obtain ⟨⟨r, mj⟩, joined, -⟩ := Option.map_eq_some_iff.1 ended
  have le : l' ≤ max steps l' + p.length :=
    Nat.le_trans (Nat.le_max_right steps l') (Nat.le_add_right _ _)
  have longer := Machine.run?_of_le le joined
  rw [whole _ (Nat.le_max_left steps l')] at longer
  have alike := h.run?_second same apart (max steps l')
  rw [longer] at alike
  generalize part : (m.extend (resolve s.policy q).entries).run? _ q = result at alike
  cases alike with
  | @some _ ended ends =>
    obtain ⟨r', mb⟩ := ended
    obtain ⟨rfl, machine, mm, moved⟩ := ends
    obtain ⟨b, j', ran', ran'', alike⟩ := h.sameAsWhole part moved joined machine
    cases ran.symm.trans ran''
    exact ⟨_, b, ran', alike⟩

end InTurn

/-! ## Splitting a program -/

/-- A session with the status zero has seen no error. -/
theorem ReportLog.of_exitCode_eq_zero {log : ReportLog} (h : log.exitCode = 0) :
    log.hadError = false ∧ log.hadRuntimeError = false := by
  unfold exitCode at h
  split at h
  · exact nomatch h
  · split at h
    · exact nomatch h
    · next static runtime => exact ⟨eq_false_of_ne_true static, eq_false_of_ne_true runtime⟩

/-- After a unit that does not compile there is a static report. -/
theorem Session.hadError_of_compile_eq_none {s : Session} {source : String}
    (rejected : (s.compile source).1 = none) : (s.compile source).2.log.hadError = true := by
  rw [compile_eq] at rejected ⊢
  by_cases static : (s.afterReading source).log.hadError = true
  · rw [if_pos static]
    exact static
  rw [if_neg static] at rejected ⊢
  by_cases static' : (s.afterResolving source).log.hadError = true
  · rw [if_pos static']
    exact static'
  · rw [if_neg static'] at rejected
    exact nomatch rejected

/-- A run that leaves the exit status 0 was one of a unit that compiles, and it was not
ended by a report. -/
theorem exists_inTurn {policy : Policy} {out err : Sink} {clock : Nat → Nat}
    {first second : String} {steps : Nat} {s : Session}
    (ran : (Session.fresh policy out err clock).run? steps first = some s)
    (clean : s.exitCode = 0) (compiles : (s.compile second).1.isSome = true) :
    ∃ p q n n' m, InTurn (.fresh policy out err clock) first second p q n n' steps m
      ∧ s = (Session.fresh policy out err clock).behind n m (resolve policy p).reports := by
  obtain ⟨noStatic, noRuntime⟩ := ReportLog.of_exitCode_eq_zero clean
  cases compiled : ((Session.fresh policy out err clock).compile first).1 with
  | none =>
    have static := Session.hadError_of_compile_eq_none compiled
    unfold Session.run? at ran
    rw [show (Session.fresh policy out err clock).compile first = (none, _) from
      Prod.ext compiled rfl] at ran
    cases ran
    exact absurd static (Bool.eq_false_iff.1 noStatic)
  | some p =>
    obtain ⟨n, accepts⟩ := Session.accepts_of_compile compiled
    rw [accepts.run? rfl] at ran
    obtain ⟨⟨report, m⟩, hrun, rfl⟩ := Option.map_eq_some_iff.1 ran
    obtain rfl : report = none := by
      refine Option.eq_none_iff_forall_not_mem.2 fun r hr => ?_
      have endsRun := (Machine.of_run? hrun).2 r hr
      have mem : r ∈ (resolve policy p).reports ++ report.toList :=
        List.mem_append_right _ (Option.mem_toList.2 hr)
      have none : List.any (_ ++ _) Report.isRuntime = false := noRuntime
      exact List.any_eq_false.1 none r mem endsRun
    have same : (Session.fresh policy out err clock).behind n m
        ((resolve policy p).reports ++ (none : Option Report).toList)
        = (Session.fresh policy out err clock).behind n m (resolve policy p).reports :=
      congrArg _ (List.append_nil _)
    obtain ⟨q, compiled'⟩ := Option.isSome_iff_exists.1 compiles
    obtain ⟨n', accepts'⟩ := Session.accepts_of_compile compiled'
    rw [show (Session.fresh policy out err clock).policy = policy from rfl, same] at accepts'
    exact ⟨p, q, n, n', m, ⟨⟨policy, out, err, clock, rfl⟩, accepts, hrun, accepts'⟩, same⟩

/-- **Splitting a program into units does not change it.** The first unit runs in a fresh
session without a static or runtime report, and the second then compiles. The whole compiles
as well. Whenever the second unit comes to an end so does the whole, whenever the whole comes
to an end so does the second unit, and they end alike. -/
theorem split_program_runs_alike (policy : Policy) (out err : Sink) (clock : Nat → Nat)
    (first second : String) {steps : Nat} {s : Session}
    (ran : (Session.fresh policy out err clock).run? steps first = some s)
    (clean : s.exitCode = 0) (compiles : (s.compile second).1.isSome = true) :
    ((Session.fresh policy out err clock).compile (first ++ "\n" ++ second)).1.isSome = true
    ∧ (∀ n b, s.run? n second = some b →
        ∃ n' j, (Session.fresh policy out err clock).run? n' (first ++ "\n" ++ second) = some j
          ∧ SameAsWhole first second (.fresh policy out err clock) s b j steps n n')
    ∧ ∀ n' j, (Session.fresh policy out err clock).run? n' (first ++ "\n" ++ second) = some j →
        ∃ n b, s.run? n second = some b
          ∧ SameAsWhole first second (.fresh policy out err clock) s b j steps n n' := by
  obtain ⟨p, q, n, n', m, h, rfl⟩ := exists_inTurn ran clean compiles
  refine ⟨?_, fun _ _ => h.run_whole, fun _ _ => h.run_parts⟩
  rw [h.accepts_whole.compile h.rested]
  rfl

/-- A function on two lines, with a comment behind it. -/
def twoLineFunction : String := "fun f(a) \x7b\n  return a; \x7d // f"

/-- Its tokens. -/
def twoLineFunctionTokens : List Token :=
  [.onLine 1 .funWord "fun", .onLine 1 .identifier "f", .onLine 1 .leftParen "(",
    .onLine 1 .identifier "a", .onLine 1 .rightParen ")", .onLine 1 .leftBrace "\x7b",
    .onLine 2 .returnWord "return", .onLine 2 .identifier "a", .onLine 2 .semicolon ";",
    .onLine 2 .rightBrace "\x7d", .endOfInput 2]

/-- Its program. -/
def twoLineFunctionProgram : Program :=
  [.function (.onLine 1 .identifier "f") [.onLine 1 .identifier "a"]
    [.ret (.onLine 2 .returnWord "return") (.var 0 (.onLine 2 .identifier "a"))]]

theorem accepts_twoLineFunction :
    (Session.fresh {} {} {} fun _ => 0).Accepts twoLineFunction twoLineFunctionProgram 1 where
  clear := rfl
  scanned := by decide +kernel
  parsed := by
    have scanned : tokens twoLineFunction = twoLineFunctionTokens := by decide +kernel
    have parsed : parse twoLineFunctionTokens 0 = ⟨twoLineFunctionProgram, 1, []⟩ := by cbv
    rw [scanned]
    exact parsed
  resolved := by decide

/-- A block with a variable that is not used, and a call that fails. -/
def failingCall : String := "\x7b var c; \x7d\nnil();"

/-- Its tokens. -/
def failingCallTokens : List Token :=
  [.onLine 1 .leftBrace "\x7b", .onLine 1 .varWord "var", .onLine 1 .identifier "c",
    .onLine 1 .semicolon ";", .onLine 1 .rightBrace "\x7d", .onLine 2 .nilWord "nil",
    .onLine 2 .leftParen "(", .onLine 2 .rightParen ")", .onLine 2 .semicolon ";",
    .endOfInput 2]

/-- Its program. -/
def failingCallProgram : Program :=
  [.block [.var (.onLine 1 .identifier "c") .absent],
    .expression (.call (.literal .nil) (.onLine 2 .rightParen ")") [])]

theorem accepts_failingCall (m : Machine) :
    ((Session.fresh {} {} {} fun _ => 0).behind 1 m []).Accepts failingCall failingCallProgram
      1 where
  clear := rfl
  scanned := by decide +kernel
  parsed := by
    have scanned : tokens failingCall = failingCallTokens := by decide +kernel
    have parsed : parse failingCallTokens 1 = ⟨failingCallProgram, 1, []⟩ := by cbv
    rw [scanned]
    exact parsed
  resolved := by
    show (resolve {} failingCallProgram).reports.any Report.isStatic = false
    decide

/-- Both run, and the second ends with the call of something that is no function. -/
theorem run_twoLineFunction_failingCall : ∃ m m' m'',
    ((Session.fresh {} {} {} fun _ => 0).machine.extend
      (resolve {} twoLineFunctionProgram).entries).run? 3 twoLineFunctionProgram = some (none, m)
    ∧ (m.extend (resolve {} failingCallProgram).entries).run? 5 failingCallProgram
      = some (some (.runtime 2 .notCallable), m')
    ∧ (m.extend (resolve {} failingCallProgram).entries).run? 5
        (relabelBody (.later 2) failingCallProgram) = some (some (.runtime 4 .notCallable), m'') :=
  ⟨_, _, _, rfl, rfl, rfl⟩

/-- A function runs as a unit, and then a unit warns and fails. In the whole the function keeps
its lines, and the warning and the failure stand two lines further on. -/
theorem split_program_runs_alike_failing_call :
    ∃ s b j n', (Session.fresh {} {} {} fun _ => 0).run? 3 twoLineFunction = some s
      ∧ s.exitCode = 0 ∧ (s.compile failingCall).1.isSome = true
      ∧ s.run? 5 failingCall = some b
      ∧ s.runReports 0 5 failingCall
        = [.warning (Token.onLine 1 .identifier "c").place .unusedVariable,
          .runtime 2 .notCallable]
      ∧ s.runReports (lastLine twoLineFunction) 5 failingCall
        = [.warning { Token.onLine 1 .identifier "c" with line := 3 }.place .unusedVariable,
          .runtime 4 .notCallable]
      ∧ (Session.fresh {} {} {} fun _ => 0).run? n' (twoLineFunction ++ "\n" ++ failingCall)
        = some j
      ∧ SameAsWhole twoLineFunction failingCall (.fresh {} {} {} fun _ => 0) s b j 3 5 n' := by
  obtain ⟨m, m', m'', first, second, moved⟩ := run_twoLineFunction_failingCall
  have ran : (Session.fresh {} {} {} fun _ => 0).run? 3 twoLineFunction
      = some (.behind _ 1 m []) := (accepts_twoLineFunction.ended rfl first).2
  have accepts := accepts_failingCall m
  have compiles := congrArg (fun r => r.1.isSome) (accepts.compile rfl)
  obtain ⟨reports, ran'⟩ := accepts.ended rfl second
  have reports' := accepts.runReports (k := 2) rfl moved
  obtain ⟨n', j, joined, same⟩ := (split_program_runs_alike {} {} {} (fun _ => 0) _ _ ran rfl
    compiles).2.1 _ _ ran'
  exact ⟨_, _, j, n', ran, rfl, compiles, ran', reports, reports', joined, same⟩

end Kix
