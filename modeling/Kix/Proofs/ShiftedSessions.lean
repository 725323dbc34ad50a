import Kix.Proofs.Identities
import Kix.Proofs.RelabeledReading
import Kix.Proofs.RelabeledResolution
import Kix.Proofs.RelabeledRuns
import Kix.Proofs.Transcripts

/-!
# Sessions that number differently

Two sessions may have read different amounts of text so far and still be the same to
whoever uses them: the second has left out some numbers, and gives the occurrences of
whatever comes next higher numbers by a fixed amount. `Session.Shifted` says this of two
sessions. It is kept by compiling, by executing and by running a unit
(`Session.Shifted.compile`, `Session.Shifted.execute`, `Session.Shifted.run`), and the
same units compile.

That a session is related to itself in this way needs an argument of its own: nothing
the machine holds has a number that is still to be given out (`History.Rested`).
-/

namespace Kix

/-! ## Numbers that are left out -/

namespace Relabeling

/-- **Leaving out numbers**: from `n` on, every number is higher by `k`. -/
def skip (n k : Nat) : Relabeling := { id := fun id => if id < n then id else id + k }

/-- A relabeling that concerns only the numbers from `n` on. -/
structure Spares (ρ : Relabeling) (n : OccurrenceId) : Prop where
  line : ρ.line = fun line => line
  below : ∀ id < n, ρ.id id = id
  above : ∀ id, n ≤ id → n ≤ ρ.id id

variable {n k : Nat}

/-- The numbers from `n` on are higher. -/
theorem skip_of_le {id : OccurrenceId} (h : n ≤ id) : (skip n k).id id = id + k :=
  if_neg (Nat.not_lt.2 h)

/-- Leaving out numbers from `n` on concerns only those. -/
theorem spares_skip (n k : Nat) : (skip n k).Spares n where
  line := rfl
  below _ h := if_pos h
  above id h := by
    rw [skip_of_le h]
    exact Nat.le_add_right_of_le h

/-- No two numbers become one. -/
theorem skip_injective (n k : Nat) : Function.Injective (skip n k).id := by
  suffices numbers : ∀ a b : Nat, (if a < n then a else a + k) = (if b < n then b else b + k) →
      a = b from fun a b => numbers a b
  intro a b same
  split at same <;> split at same <;> omega

/-- A relabeling that spares more numbers spares fewer. -/
theorem Spares.mono {ρ : Relabeling} {m : OccurrenceId} (h : ρ.Spares n) (le : m ≤ n) :
    ρ.Spares m where
  line := h.line
  below id hid := h.below id (Nat.lt_of_lt_of_le hid le)
  above id hid := by
    by_cases old : id < n
    · rw [h.below id old]
      exact hid
    · exact Nat.le_trans le (h.above id (Nat.not_lt.1 old))

/-- A body numbered below `n` is left alone. -/
theorem Spares.relabelBody {ρ : Relabeling} (h : ρ.Spares n) {body : List Stmt}
    (old : ∀ id ∈ identities body, id < n) : relabelBody ρ body = body := by
  rw [relabelBody_congr (σ := {}) h.line body, relabelBody_nothing]
  intro o ho
  exact h.below o.id (old _ (List.mem_map_of_mem ho))

/-- No report changes when lines do not. -/
theorem Spares.report {ρ : Relabeling} (h : ρ.Spares n) : Report.relabel ρ = fun r => r :=
  funext (Report.relabel_of_line ρ fun line => congrFun h.line line)

end Relabeling

/-! ## Tables -/

/-- Adding the relabeled entries to a relabeled table. -/
theorem getElem?_extend_relabel {ρ : Relabeling} (injective : Function.Injective ρ.id)
    (entries : List (OccurrenceId × Address)) {table table' : AddressTable}
    (h : ∀ id : OccurrenceId, table'[ρ.id id]? = table[id]?) (id : OccurrenceId) :
    (table'.extend (entries.map ρ.entry))[ρ.id id]? = (table.extend entries)[id]? := by
  unfold AddressTable.extend
  induction entries generalizing table table' with
  | nil =>
    rw [List.map_nil, Std.HashMap.insertMany_nil, Std.HashMap.insertMany_nil]
    exact h id
  | cons entry rest ih =>
    rw [List.map_cons, Std.HashMap.insertMany_cons, Std.HashMap.insertMany_cons]
    refine ih fun other => ?_
    rw [Std.HashMap.getElem?_insert, Std.HashMap.getElem?_insert, h other]
    have same : (ρ.id entry.1 == ρ.id other) = (entry.1 == other) :=
      Bool.eq_iff_iff.2 (by simpa using injective.eq_iff)
    show (if (ρ.id entry.1 == ρ.id other) = true then _ else _) = _
    rw [same]
    rfl

/-- New entries, relabeled, in a table that is relabeled. -/
theorem Machine.Relabeled.extend {ρ : Relabeling} (injective : Function.Injective ρ.id)
    {m m' : Machine} (h : m.Relabeled ρ m') (entries : List (OccurrenceId × Address)) :
    (m.extend entries).Relabeled ρ (m'.extend (entries.map ρ.entry)) :=
  { h with addresses := getElem?_extend_relabel injective entries h.addresses }

/-! ## Reading -/

/-- A source text ends with the mark of the end, so reading needs no other one. -/
theorem exists_eof_mem_tokens (source : String) : ∃ t ∈ tokens source, t.kind = .eof := by
  suffices closed : ∀ (segs : List Segment) (line : Nat),
      ∃ last, .token (.endOfInput last) ∈ itemsFrom line segs by
    obtain ⟨last, mem⟩ := closed (segments source.toList) 1
    exact ⟨.endOfInput last, List.mem_filterMap.2 ⟨_, mem, rfl⟩, rfl⟩
  intro segs
  induction segs with
  | nil => exact fun line => ⟨line, List.mem_singleton_self _⟩
  | cons s rest ih =>
    intro line
    obtain ⟨last, mem⟩ := ih (line + newlines s.text)
    refine ⟨last, ?_⟩
    unfold itemsFrom
    dsimp only
    split
    · exact List.mem_cons_of_mem _ mem
    · exact mem

/-- **Reading a unit with higher numbers.** -/
theorem parse_skip {n firstId : OccurrenceId} (le : n ≤ firstId) (k : Nat) (source : String) :
    parse (tokens source) (firstId + k)
      = ⟨relabelBody (.skip n k) (parse (tokens source) firstId).program,
        (parse (tokens source) firstId).nextId + k, (parse (tokens source) firstId).reports⟩ := by
  have shifted := parse_relabel { amount := k } (exists_eof_mem_tokens source) firstId
  have tokensKept : Token.relabel ({ amount := k } : Shift) = id := rfl
  have reportsKept : Report.relabel ({ amount := k } : Shift) = id :=
    funext (Report.relabel_of_line _ fun _ => rfl)
  rw [tokensKept, reportsKept, List.map_id, List.map_id] at shifted
  -- What was read is numbered from `firstId` on, where shifting and skipping are the same.
  have program : relabelBody ({ amount := k } : Shift) (parse (tokens source) firstId).program
      = relabelBody (.skip n k) (parse (tokens source) firstId).program := by
    refine relabelBody_congr (ρ := Shift.relabeling { amount := k }) (σ := .skip n k) rfl _
      fun o ho => ?_
    have later := (parse_numbered (tokens source) firstId).low_le o ho
    exact (Relabeling.skip_of_le (Nat.le_trans le later)).symm
  rw [program] at shifted
  exact shifted

/-! ## Shifted sessions -/

/-- **The second session is the first one with numbers left out.** -/
structure Session.Shifted (n k : Nat) (s s' : Session) : Prop where
  policy : s'.policy = s.policy
  machine : s.machine.Relabeled (.skip n k) s'.machine
  log : s'.log = s.log
  le : n ≤ s.nextId
  nextId : s'.nextId = s.nextId + k
  err : s'.err = s.err

namespace Session.Shifted

variable {n k : Nat} {s s' : Session}

theorem flush (h : Shifted n k s s') : Shifted n k s.flush s'.flush :=
  { h with
    log := congrArg (fun log : ReportLog => log.drain.2) h.log
    err := by
      show List.foldl _ s'.err s'.log.pending = List.foldl _ s.err s.log.pending
      rw [h.log, h.err] }

/-- A source is read alike, with the later numbers left out. -/
theorem reading (h : Shifted n k s s') (source : String) :
    s'.reading source
      = ⟨relabelBody (.skip n k) (s.reading source).program, (s.reading source).nextId + k,
        (s.reading source).reports⟩ := by
  unfold Session.reading
  rw [h.nextId]
  exact parse_skip h.le k source

/-- It is resolved alike, with the entries under the shifted numbers. -/
theorem resolving (h : Shifted n k s s') (source : String) :
    s'.resolving source
      = ⟨(s.resolving source).entries.map (Relabeling.skip n k).entry,
        (s.resolving source).reports⟩ := by
  have resolved := resolve_relabel (.skip n k) s.policy (s.reading source).program
  rw [(Relabeling.spares_skip n k).report, List.map_id'] at resolved
  unfold Session.resolving
  rw [h.policy, h.reading source]
  exact resolved

/-- The sessions behind the reading. -/
theorem afterReading (h : Shifted n k s s') (source : String) :
    Shifted n k (s.afterReading source) (s'.afterReading source) := by
  unfold Session.afterReading
  rw [h.reading source]
  exact { h with
    log := congrArg (ReportLog.addAll · _) h.log
    le := Nat.le_trans h.le (parse_nextId_le _ _)
    nextId := rfl }

/-- The sessions behind the resolving, whose reports are the same. -/
theorem afterResolving (h : Shifted n k s s') (source : String) :
    Shifted n k (s.afterResolving source) (s'.afterResolving source) := by
  have read := h.afterReading source
  unfold Session.afterResolving
  rw [h.resolving source]
  exact flush { read with log := congrArg (ReportLog.addAll · _) read.log }

/-- **Compiling in both sessions**: the same units compile. -/
theorem compile (h : Shifted n k s s') (source : String) :
    (s'.compile source).1 = (s.compile source).1.map (relabelBody (.skip n k))
      ∧ Shifted n k (s.compile source).2 (s'.compile source).2 := by
  have read := h.afterReading source
  have checked := h.afterResolving source
  rw [compile_eq, compile_eq, read.log, checked.log]
  by_cases static : (s.afterReading source).log.hadError = true
  · rw [if_pos static, if_pos static]
    exact ⟨rfl, read.flush⟩
  rw [if_neg static, if_neg static]
  by_cases static' : (s.afterResolving source).log.hadError = true
  · rw [if_pos static', if_pos static']
    exact ⟨rfl, checked⟩
  rw [if_neg static', if_neg static', h.reading source, h.resolving source]
  have extended := h.machine.extend (Relabeling.skip_injective n k) (s.resolving source).entries
  exact ⟨rfl, { checked with machine := extended }⟩

/-- **Executing the same unit in both sessions.** -/
theorem execute (h : Shifted n k s s') (steps : Nat) (program : Program) :
    Option.Rel (Shifted n k) (s.execute? steps program)
      (s'.execute? steps (relabelBody (.skip n k) program)) := by
  have ran := Machine.run?_relabeled (.skip n k) h.machine steps program
  rw [(Relabeling.spares_skip n k).report] at ran
  unfold execute?
  generalize s.machine.run? steps program = r, s'.machine.run? steps _ = r' at ran ⊢
  cases ran with
  | none => exact .none
  | @some ended ended' same =>
    obtain ⟨report, m⟩ := ended
    obtain ⟨report', m'⟩ := ended'
    obtain ⟨sameReport, relabeled⟩ := same
    rw [Option.map_id'] at sameReport
    cases sameReport
    exact .some (flush { h with
      machine := relabeled
      log := congrArg (ReportLog.addAll · _) h.log })

/-- **Running a unit in both sessions.** -/
theorem run (h : Shifted n k s s') (steps : Nat) (source : String) :
    Option.Rel (Shifted n k) (s.run? steps source) (s'.run? steps source) := by
  have compiled := h.compile source
  unfold run?
  generalize s.compile source = r, s'.compile source = r' at compiled ⊢
  obtain ⟨unit?, t⟩ := r
  obtain ⟨unit?', t'⟩ := r'
  obtain ⟨rfl, shifted⟩ := compiled
  cases unit? with
  | none => exact .some shifted
  | some program => exact shifted.execute steps program

end Session.Shifted

/-! ## Sessions at rest -/

/-- **Between operations** no report waits to be written, and nothing in the machine has
a number that is still to be given out. -/
structure History.Rested (h : History) : Prop where
  pending : h.session.log.pending = []
  steady : ∀ ρ : Relabeling, ρ.Spares h.session.nextId →
    h.session.machine.Relabeled ρ h.session.machine

namespace History

/-- In a fresh session there are no numbers at all. -/
theorem rested_fresh (policy : Policy) (out err : Sink) (clock : Nat → Nat) :
    Rested ⟨.fresh policy out err clock, []⟩ where
  pending := rfl
  steady ρ _ := by
    refine Machine.relabeled_fresh ρ out clock fun id => ?_
    rw [Std.HashMap.getElem?_empty, Std.HashMap.getElem?_empty]

variable {h h' : History} {source : String} {steps : Nat}

/-- Relabeling numbers that are still to be given out does not change the table. -/
theorem Sound.addresses_spared (sound : h.Sound) {ρ : Relabeling}
    (spares : ρ.Spares h.session.nextId) (id : OccurrenceId) :
    h.session.machine.addresses[ρ.id id]? = h.session.machine.addresses[id]? := by
  by_cases old : id < h.session.nextId
  · rw [spares.below id old]
  · have new := Nat.not_lt.1 old
    rw [sound.consistent.unaddressed id new,
      sound.consistent.unaddressed _ (spares.above id new)]

/-- Compiling gives out numbers and files addresses under them, all of them below the next
one. -/
theorem Rested.compile (rested : h.Rested) (sound : h.Sound) (source : String) :
    (h.afterCompile source).Rested where
  pending := h.session.pending_compile source
  steady ρ spares := by
    have sound' : (h.afterCompile source).Sound := sound.compile rfl
    have before := rested.steady ρ (spares.mono (sound.extends_afterCompile source).bound_le)
    have addresses := sound'.addresses_spared spares
    show Machine.Relabeled ρ (h.session.compile source).2.machine
      (h.session.compile source).2.machine
    rw [h.session.machine_compile source]
    exact { before with addresses := addresses }

/-- Executing a unit brings its numbers into the machine, which were given out before. -/
theorem Rested.execute (rested : h.Rested) (sound : h.Sound) {program : Program}
    (hunit : program ∈ h.units) {s : Session}
    (executed : h.session.execute? steps program = some s) : Rested ⟨s, h.units⟩ := by
  obtain ⟨⟨report, m⟩, hrun, rfl⟩ := Option.map_eq_some_iff.1 executed
  refine ⟨rfl, fun ρ spares => ?_⟩
  have ran := Machine.run?_relabeled ρ (rested.steady ρ spares) steps program
  rw [spares.relabelBody fun _ => sound.identity_lt hunit, hrun] at ran
  cases ran with
  | some same => exact same.2

/-- **One operation.** -/
theorem Rested.perform (rested : h.Rested) (sound : h.Sound) {operation : Operation}
    (performed : h.perform? operation = some h') : h'.Rested := by
  cases operation with
  | compile source =>
    cases performed
    exact rested.compile sound source
  | run source steps =>
    obtain ⟨s, hrun, rfl⟩ := Option.map_eq_some_iff.1 performed
    have compiled := rested.compile sound source
    have sound' : (h.afterCompile source).Sound := sound.compile rfl
    unfold afterCompile at compiled sound'
    unfold Session.run? at hrun
    generalize h.session.compile source = result at hrun compiled sound' ⊢
    obtain ⟨unit?, s'⟩ := result
    cases unit? with
    | none =>
      cases hrun
      exact compiled
    | some program => exact compiled.execute sound' (by simp) hrun
  | execute unit steps =>
    obtain ⟨program, hunit, result⟩ := Option.bind_eq_some_iff.1 performed
    obtain ⟨s, executed, rfl⟩ := Option.map_eq_some_iff.1 result
    exact rested.execute sound (List.mem_of_getElem? hunit) executed
  | reset =>
    cases performed
    exact ⟨rested.pending, rested.steady⟩

/-- **Any number of operations**, one after the other. -/
theorem Rested.performAll (rested : h.Rested) (sound : h.Sound) {operations : List Operation}
    (performed : h.performAll? operations = some h') : h'.Rested := by
  induction operations generalizing h with
  | nil =>
    cases performed
    exact rested
  | cons operation rest ih =>
    obtain ⟨h₁, first, later⟩ := Option.bind_eq_some_iff.1 performed
    exact ih (rested.perform sound first) (sound.perform first) later

end History

end Kix
