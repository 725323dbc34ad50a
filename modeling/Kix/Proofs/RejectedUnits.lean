import Kix.Proofs.ShiftedSessions
import Kix.Proofs.StaticReports

/-!
# A rejected unit leaves no trace

At a prompt a line that does not compile is reported and forgotten. It has still been
read: the names in it have used up numbers, so that from then on every unit is numbered
differently, and so are the functions that it makes and the table in which their
variables are looked up.

None of this can be seen. `Observation` is what a user sees of an operation: the output,
the text on the error stream, the exit status, and the global variables, in which the
numbers inside functions are left out. The text is taken from a stream of its own, and on
an error stream that takes everything it is what the operations add
(`History.exists_observeAll?`). Whatever was done with a session before and whatever is
done with it after, the user sees the same with the rejected unit as without it
(`rejected_unit_leaves_no_trace`).
-/

namespace Kix

/-- **What is seen of an operation.** -/
structure Observation where
  /-- All that was written to the output so far. -/
  output : ByteArray
  /-- What the operation wrote to the error stream, as `History.perform?_watched` says. -/
  diagnostics : ByteArray
  exitCode : Nat
  globals : String → Option Value

/-- The text that was seen on the error stream. -/
def Observation.transcript : List Observation → ByteArray
  | [] => .empty
  | o :: rest => o.diagnostics ++ transcript rest

namespace History

/-- What is seen behind an operation that was watched. -/
def observation (h : History) : Observation where
  output := h.session.machine.out.written
  diagnostics := h.session.err.written
  exitCode := h.session.exitCode
  globals name := (h.session.machine.global? name).map Value.unnumbered

/-- **What is seen of operations** performed one after the other, each of them watched.
There is no result where one of them has none. -/
def observeAll? (h : History) : List Operation → Option (List Observation)
  | [] => some []
  | operation :: rest =>
    (h.watched.perform? operation).bind fun h' =>
      (h'.observeAll? rest).map (h'.observation :: ·)

/-! ## What is seen and what is written -/

/-- What is seen does not depend on the error stream. -/
theorem observeAll?_withErr (h : History) (err : Sink) (operations : List Operation) :
    (h.withErr err).observeAll? operations = h.observeAll? operations := by
  cases operations <;> rfl

/-- **What is seen is what is written.** Operations add the text that is seen of them to an
error stream without a limit. -/
theorem exists_observeAll? {h h' : History} (unlimited : h.session.err.limit = none)
    {operations : List Operation} (performed : h.performAll? operations = some h') :
    ∃ seen, h.observeAll? operations = some seen
      ∧ h'.session.err.written = h.session.err.written ++ Observation.transcript seen
      ∧ h'.session.err.limit = none := by
  induction operations generalizing h with
  | nil =>
    cases performed
    exact ⟨[], rfl, ByteArray.append_empty.symm, unlimited⟩
  | cons operation rest ih =>
    obtain ⟨h₁, first, others⟩ := Option.bind_eq_some_iff.1 performed
    obtain ⟨text, watched, written, unlimited₁⟩ := perform?_watched unlimited first
    obtain ⟨seen, observed, written', unlimited'⟩ := ih unlimited₁ others
    refine ⟨(h₁.withErr text).observation :: seen, ?_, ?_, unlimited'⟩
    · unfold observeAll?
      rw [watched, Option.bind_some, observeAll?_withErr, observed]
      rfl
    · rw [written', written, ByteArray.append_assoc]
      rfl

/-- Operations of which something is seen can be performed. -/
theorem exists_performAll? {h : History} {operations : List Operation} {seen : List Observation}
    (observed : h.observeAll? operations = some seen) :
    ∃ h', h.performAll? operations = some h' := by
  induction operations generalizing h seen with
  | nil => exact ⟨h, rfl⟩
  | cons operation rest ih =>
    obtain ⟨g, watched, others⟩ := Option.bind_eq_some_iff.1 observed
    obtain ⟨seen', observed', -⟩ := Option.map_eq_some_iff.1 others
    obtain ⟨err, performed⟩ := perform?_of_watched watched
    rw [← observeAll?_withErr g err] at observed'
    obtain ⟨h', later⟩ := ih observed'
    exact ⟨h', Option.bind_eq_some_iff.2 ⟨_, performed, later⟩⟩

end History

/-! ## Shifted histories -/

/-- Leaving out numbers is nothing where numbers do not count. -/
theorem Value.unnumbered_relabel {ρ : Relabeling} {n : OccurrenceId} (spares : ρ.Spares n)
    (v : Value) : (v.relabel ρ).unnumbered = v.unnumbered := by
  have after : Relabeling.after .unnumbering ρ = .unnumbering := by
    unfold Relabeling.after
    rw [spares.line]
    rfl
  cases v with
  | closure f =>
    have tokens : Token.relabel .unnumbering ∘ Token.relabel ρ = Token.relabel .unnumbering := by
      funext t
      show (t.relabel ρ).relabel .unnumbering = _
      rw [Token.relabel_relabel, after]
    show Value.closure ⟨_, _, _, _, _⟩ = Value.closure ⟨_, _, _, _, _⟩
    dsimp only [Closure.relabel]
    rw [relabelBody_relabel, after, List.map_map, tokens]
  | _ => rfl

/-- **The second history is the first one with numbers left out.** -/
structure History.Shifted (n k : Nat) (h h' : History) : Prop where
  session : Session.Shifted n k h.session h'.session
  units : h'.units = h.units.map (relabelBody (.skip n k))

namespace History.Shifted

variable {n k : Nat} {h h' : History}

theorem watched (shifted : Shifted n k h h') : Shifted n k h.watched h'.watched :=
  ⟨{ shifted.session with err := rfl }, shifted.units⟩

theorem observation (shifted : Shifted n k h h') : h'.observation = h.observation := by
  have machine := shifted.session.machine
  unfold History.observation Session.exitCode
  rw [machine.out, shifted.session.err, shifted.session.log]
  congr 1
  funext name
  unfold Machine.global?
  rw [machine.globals, Option.map_map]
  congr 1
  funext v
  exact Value.unnumbered_relabel (Relabeling.spares_skip n k) v

/-- **An operation on both histories.** -/
theorem perform (shifted : Shifted n k h h') (operation : Operation) :
    Option.Rel (Shifted n k) (h.perform? operation) (h'.perform? operation) := by
  have appended (unit? : Option Program) : h'.units ++ (unit?.map (relabelBody (.skip n k))).toList
      = (h.units ++ unit?.toList).map (relabelBody (.skip n k)) := by
    rw [shifted.units, List.map_append]
    cases unit? <;> rfl
  cases operation with
  | compile source =>
    obtain ⟨unit, session⟩ := shifted.session.compile source
    refine .some ⟨session, ?_⟩
    show h'.units ++ (h'.session.compile source).1.toList = _
    rw [unit]
    exact appended _
  | run source steps =>
    have unit := (shifted.session.compile source).1
    have ran := shifted.session.run steps source
    unfold perform?
    dsimp only
    rw [unit]
    generalize h.session.run? steps source = r, h'.session.run? steps source = r' at ran ⊢
    cases ran with
    | none => exact .none
    | some session => exact .some ⟨session, appended _⟩
  | execute unit steps =>
    unfold perform?
    dsimp only
    rw [shifted.units, List.getElem?_map]
    cases h.units[unit]? with
    | none => exact .none
    | some program =>
      have executed := shifted.session.execute steps program
      dsimp only [Option.map_some, Option.bind_some]
      generalize h.session.execute? steps program = r, h'.session.execute? steps _ = r'
        at executed ⊢
      cases executed with
      | none => exact .none
      | some session => exact .some ⟨session, rfl⟩
  | reset =>
    exact .some ⟨{ shifted.session with
      log := congrArg ReportLog.reset shifted.session.log }, shifted.units⟩

/-- So nothing else is seen of any number of operations. -/
theorem observeAll (shifted : Shifted n k h.watched h'.watched) (later : List Operation) :
    h'.observeAll? later = h.observeAll? later := by
  induction later generalizing h h' with
  | nil => rfl
  | cons operation rest ih =>
    have performed := shifted.perform operation
    unfold observeAll?
    generalize h.watched.perform? operation = r, h'.watched.perform? operation = r'
      at performed ⊢
    cases performed with
    | none => rfl
    | some next =>
      dsimp only [Option.bind_some]
      rw [next.observation, ih next.watched]

end History.Shifted

/-! ## Rejected units -/

/-- Forgetting a rejected unit, the log is as it was. -/
theorem History.Rested.log_reset {h : History} (rested : h.Rested)
    (clear : h.session.log.hadError = false) (source : String) :
    (h.session.compile source).2.reset.log = h.session.log := by
  show ReportLog.mk (h.session.compile source).2.log.pending false
    (h.session.compile source).2.log.hadRuntimeError
    = ReportLog.mk h.session.log.pending h.session.log.hadError h.session.log.hadRuntimeError
  rw [Session.pending_compile, Session.hadRuntimeError_compile, rested.pending, clear]

/-- **Rejecting a unit and forgetting it** leaves out some numbers. -/
theorem History.Rested.rejected {h : History} (rested : h.Rested) (sound : h.Sound)
    (clear : h.session.log.hadError = false) {source : String}
    (rejected : (h.session.compile source).1 = none) :
    ∃ k, Shifted h.session.nextId k h.watched
      (History.watched ⟨(h.session.compile source).2.reset, h.units⟩) := by
  obtain ⟨machine, read⟩ := Session.of_compile_eq_none (Prod.ext rejected rfl)
  obtain ⟨k, nextId⟩ := Nat.exists_eq_add_of_le read
  have spares := Relabeling.spares_skip h.session.nextId k
  refine ⟨k, { policy := ?_, machine := ?_, log := ?_, le := ?_, nextId := ?_, err := rfl }, ?_⟩
  · exact h.session.policy_compile source
  · show h.session.machine.Relabeled _ (h.session.compile source).2.machine
    rw [machine]
    exact rested.steady _ spares
  · exact rested.log_reset clear source
  · exact Nat.le_refl _
  · exact nextId
  · -- the units were numbered before
    have kept : h.units.map (relabelBody (.skip h.session.nextId k)) = h.units.map id :=
      List.map_congr_left fun unit hunit => spares.relabelBody fun _ => sound.identity_lt hunit
    exact (kept.trans (List.map_id _)).symm

/-- **A rejected unit leaves no trace.** In any session without a static report, whatever
was done with it before: if a unit does not compile, running it and resetting the session
changes nothing of what is seen of any later operations. On an error stream without a
limit, the later operations write the same text behind that of the rejected unit as they
write without it. -/
theorem rejected_unit_leaves_no_trace (policy : Policy) (out err : Sink) (clock : Nat → Nat)
    (before : List Operation) {h : History}
    (reached : History.performAll? ⟨.fresh policy out err clock, []⟩ before = some h)
    (clear : h.session.log.hadError = false) {source : String}
    (rejected : (h.session.compile source).1 = none) (steps : Nat) (later : List Operation) :
    ((h.performAll? [.run source steps, .reset]).bind fun h' => h'.observeAll? later)
        = h.observeAll? later
      ∧ (err.limit = none → ∀ g, h.performAll? later = some g → ∃ g' seen,
        h.performAll? ([.run source steps, .reset] ++ later) = some g'
          ∧ h.observeAll? later = some seen
          ∧ g.session.err.written = h.session.err.written ++ Observation.transcript seen
          ∧ g'.session.err.written
            = (h.session.compile source).2.err.written ++ Observation.transcript seen) := by
  have fresh := History.sound_fresh policy out err clock
  have rested := (History.rested_fresh policy out err clock).performAll fresh reached
  obtain ⟨k, shifted⟩ := rested.rejected (fresh.performAll reached) clear rejected
  have ran : h.session.run? steps source = some (h.session.compile source).2 := by
    unfold Session.run?
    rw [show h.session.compile source = (none, (h.session.compile source).2) from
      Prod.ext rejected rfl]
  have performed : h.performAll? [.run source steps, .reset]
      = some ⟨(h.session.compile source).2.reset, h.units⟩ := by
    show (((h.session.run? steps source).map _).bind _) = _
    rw [ran, rejected]
    show some (History.mk _ (h.units ++ [])) = _
    rw [List.append_nil]
  have alike := shifted.observeAll later
  rw [History.performAll?_append, performed]
  refine ⟨alike, fun unlimited g ends => ?_⟩
  obtain ⟨-, -, -, unlimited⟩ := History.exists_observeAll? unlimited reached
  obtain ⟨-, -, -, unlimited'⟩ := History.exists_observeAll? unlimited performed
  obtain ⟨seen, observed, written, -⟩ := History.exists_observeAll? unlimited ends
  obtain ⟨g', ends'⟩ := History.exists_performAll? (alike.trans observed)
  obtain ⟨seen', observed', written', -⟩ := History.exists_observeAll? unlimited' ends'
  rw [alike, observed] at observed'
  cases observed'
  exact ⟨g', seen, ends', observed, written, written'⟩

/-- Two names in a row: the first is read and numbered, the second is one too many. -/
def strayName : String := "a b"

theorem compile_strayName (s : Session) :
    (s.compile strayName).1 = none ∧ (s.compile strayName).2.nextId = s.nextId + 1 := by
  have scanned : tokens strayName
      = [.onLine 1 .identifier "a", .onLine 1 .identifier "b", .endOfInput 1] := by
    decide +kernel
  have next : (parse (tokens strayName) 0).nextId = 1 := by
    rw [scanned]
    cbv
  have reported : (parse (tokens strayName) 0).reports.any Report.isStatic = true := by
    rw [scanned]
    cbv
  have read := parse_skip (Nat.zero_le 0) s.nextId strayName
  rw [Nat.zero_add, next] at read
  have static : (s.afterReading strayName).log.hadError = true := by
    show (s.log.hadError || (lexicalReports strayName
      ++ (parse (tokens strayName) s.nextId).reports).any Report.isStatic) = true
    rw [read, List.any_append, reported, Bool.or_true, Bool.or_true]
  rw [Session.compile_eq, if_pos static]
  refine ⟨rfl, ?_⟩
  show (parse (tokens strayName) s.nextId).nextId = _
  rw [read, Nat.add_comm]

/-- Behind a unit with a function a stray name is rejected, and has used up a number. -/
theorem rejected_unit_leaves_no_trace_stray_name :
    ∃ h, History.performAll? ⟨.fresh {} {} {} fun _ => 0, []⟩ [.compile growingFrame] = some h
      ∧ h.session.log.hadError = false
      ∧ (h.session.compile strayName).1 = none
      ∧ (h.session.compile strayName).2.nextId = h.session.nextId + 1
      ∧ ∀ steps later,
        ((h.performAll? [.run strayName steps, .reset]).bind fun h' => h'.observeAll? later)
            = h.observeAll? later
          ∧ ∀ g, h.performAll? later = some g → ∃ g' seen,
            h.performAll? ([.run strayName steps, .reset] ++ later) = some g'
              ∧ h.observeAll? later = some seen
              ∧ g.session.err.written = h.session.err.written ++ Observation.transcript seen
              ∧ g'.session.err.written
                = (h.session.compile strayName).2.err.written ++ Observation.transcript seen := by
  obtain ⟨s, compiled⟩ := compile_growingFrame
  have performed := History.performAll?_compile
    (h := ⟨.fresh {} {} {} fun _ => 0, []⟩) compiled
  have clear := Session.hadError_of_compile compiled
  obtain ⟨rejected, next⟩ := compile_strayName s
  refine ⟨_, performed, clear, rejected, next, fun steps later => ?_⟩
  obtain ⟨seen, written⟩ := rejected_unit_leaves_no_trace {} {} {} (fun _ => 0) _ performed clear
    rejected steps later
  exact ⟨seen, written rfl⟩

end Kix
