import Kix.Proofs.MissingVariables

/-!
# Identities are handed out once

Every occurrence of a name that is ever read in a session gets an identity, and
the table of addresses is kept by identity for as long as the session lasts. If
an identity were ever given to two occurrences, an old function could find the
address of a new variable under it, and only when the function is called again.

That this cannot happen is the content of `identities_never_reused`. The numbers
that a unit gets lie between the session's next number before and after it was
compiled, whether it compiled or not, so no two units share any, and compiling a
unit only ever adds entries for numbers that the table did not have. What the
table says of an occurrence is therefore the same at every later **moment**,
between operations and in the middle of an execution alike.

The invariant behind it is that the legend of a session only ever grows
(`History.Sound.extends_performAll`).
-/

namespace Kix

/-- The identities of the occurrences in a program. -/
def identities (program : Program) : List OccurrenceId :=
  (bodyOccurrences program).map Occurrence.id

/-- The source that an operation has read, if it reads one. -/
def Operation.source? : Operation → Option String
  | .compile source | .run source _ => some source
  | .execute _ _ | .reset => none

namespace History

/-- What reading a source gives, as things stand. -/
def reading (h : History) (source : String) : Parse := parse (tokens source) h.session.nextId

/-- The history behind the compilation of a source. -/
def afterCompile (h : History) (source : String) : History :=
  ⟨(h.session.compile source).2, h.units ++ (h.session.compile source).1.toList⟩

/-- **A moment from here on**: a machine as it is behind some further operations,
or as some task finds it in an execution of a unit there, which need not end. -/
inductive Moment (h : History) : Machine → Prop where
  | between {later : List Operation} {h' : History} (performed : h.performAll? later = some h') :
      Moment h h'.session.machine
  | during {later : List Operation} {h' : History} {unit : Program} {steps steps' : Nat}
      {t : Task} {m : Machine} (performed : h.performAll? later = some h')
      (hunit : unit ∈ h'.units) (visits : Visits steps (.body unit) h'.session.machine steps' t m) :
      Moment h m

/-! ## A run is a compilation and an execution -/

/-- Operations before and after. -/
theorem performAll?_append (h : History) (before after : List Operation) :
    h.performAll? (before ++ after)
      = (h.performAll? before).bind fun h' => h'.performAll? after := by
  induction before generalizing h with
  | nil => rfl
  | cons operation rest ih =>
    show (h.perform? operation).bind _ = ((h.perform? operation).bind _).bind _
    rw [Option.bind_assoc]
    congr 1
    funext h'
    exact ih h'

/-- Whatever an operation that reads a source leads to, it gets there by
compiling the source first. -/
theorem exists_performAll?_afterCompile {h h' : History} {operation : Operation}
    {source : String} (reads : operation.source? = some source)
    (performed : h.perform? operation = some h') :
    ∃ later, (h.afterCompile source).performAll? later = some h' := by
  cases operation with
  | compile source =>
    cases reads
    exact ⟨[], performed⟩
  | run source steps =>
    cases reads
    obtain ⟨s, hrun, rfl⟩ := Option.map_eq_some_iff.1 performed
    unfold Session.run? at hrun
    unfold afterCompile
    generalize h.session.compile source = compiled at hrun ⊢
    obtain ⟨unit?, s'⟩ := compiled
    cases unit? with
    | none =>
      cases hrun
      exact ⟨[], rfl⟩
    | some program =>
      -- the unit that was compiled last is executed
      refine ⟨[.execute h.units.length steps], ?_⟩
      have last : (h.units ++ [program])[h.units.length]? = some program := by simp
      show (((h.units ++ [program])[h.units.length]?.bind _).bind _) = _
      rw [last]
      show ((Session.execute? s' steps program).map _).bind _ = _
      rw [show s'.execute? steps program = some s from hrun]
      rfl
  | execute unit steps => cases reads
  | reset => cases reads

end History

/-! ## Legends only grow -/

namespace Legend.Extends

variable {L L' L'' : Legend}

theorem refl (L : Legend) : L.Extends L := ⟨Nat.le_refl _, fun _ _ => rfl, fun _ _ => Iff.rfl⟩

theorem trans (h : L.Extends L') (h' : L'.Extends L'') : L.Extends L'' where
  bound_le := Nat.le_trans h.bound_le h'.bound_le
  address id hid := (h'.address id (Nat.lt_of_lt_of_le hid h.bound_le)).trans (h.address id hid)
  isSelfAssignment id hid :=
    (h'.isSelfAssignment id (Nat.lt_of_lt_of_le hid h.bound_le)).trans (h.isSelfAssignment id hid)

end Legend.Extends

/-- Compiling gives out the numbers that parsing takes. -/
theorem Session.nextId_compile (s : Session) (source : String) :
    (s.compile source).2.nextId = (parse (tokens source) s.nextId).nextId := by
  unfold Session.compile
  dsimp only
  split
  · rfl
  · split <;> rfl

namespace History

/-- What a history tells about the occurrences in its units. -/
def legend (h : History) : Legend := h.session.legend h.units

variable {h h' : History}

/-- A compilation extends the legend. -/
theorem Sound.extends_afterCompile (sound : h.Sound) (source : String) :
    h.legend.Extends (h.afterCompile source).legend := by
  unfold afterCompile
  generalize compiled : h.session.compile source = result
  obtain ⟨unit?, s⟩ := result
  cases unit? with
  | some program => exact (Session.compiled_of_compile compiled).extends h.units
  | none =>
    obtain ⟨machine, read⟩ := Session.of_compile_eq_none compiled
    have extended := (sound.consistent.of_eq machine read).2
    show h.legend.Extends (Session.legend s (h.units ++ []))
    rwa [List.append_nil]

/-- An execution changes no address. -/
theorem Sound.extends_execute (sound : h.Sound) {s : Session} {steps : Nat} {program : Program}
    (hunit : program ∈ h.units) (executed : h.session.execute? steps program = some s) :
    h.legend.Extends (History.legend ⟨s, h.units⟩) := by
  obtain ⟨w, n, alike⟩ := sound.alike
  have agrees := Machine.run?_agrees alike sound.current (sound.consistent.known _ hunit) steps
  obtain ⟨⟨report, m⟩, hrun, rfl⟩ := Option.map_eq_some_iff.1 executed
  rw [hrun] at agrees
  generalize n.run? steps program = r' at agrees
  cases agrees with
  | some agree =>
    obtain ⟨w', alike'⟩ := agree.alike
    exact ⟨Nat.le_refl _, fun id _ => alike'.addresses id, fun _ _ => Iff.rfl⟩

/-- **Every operation keeps what is known of the occurrences so far.** -/
theorem Sound.extends_perform (sound : h.Sound) {operation : Operation}
    (performed : h.perform? operation = some h') : h.legend.Extends h'.legend := by
  cases operation with
  | compile source =>
    cases performed
    exact sound.extends_afterCompile source
  | run source steps =>
    obtain ⟨s, hrun, rfl⟩ := Option.map_eq_some_iff.1 performed
    have first := sound.extends_afterCompile source
    unfold afterCompile at first
    unfold Session.run? at hrun
    generalize compiled : h.session.compile source = result at hrun first ⊢
    obtain ⟨unit?, s'⟩ := result
    cases unit? with
    | none =>
      cases hrun
      exact first
    | some program =>
      have last : program ∈ h.units ++ [program] := by simp
      exact first.trans ((sound.compile compiled).extends_execute last hrun)
  | execute unit steps =>
    obtain ⟨program, hunit, result⟩ := Option.bind_eq_some_iff.1 performed
    obtain ⟨s, executed, rfl⟩ := Option.map_eq_some_iff.1 result
    exact sound.extends_execute (List.mem_of_getElem? hunit) executed
  | reset =>
    cases performed
    exact .refl _

/-- **Operations only extend the legend.** -/
theorem Sound.extends_performAll (sound : h.Sound) {operations : List Operation}
    (performed : h.performAll? operations = some h') : h.legend.Extends h'.legend := by
  induction operations generalizing h with
  | nil =>
    cases performed
    exact .refl _
  | cons operation rest ih =>
    obtain ⟨h₁, first, later⟩ := Option.bind_eq_some_iff.1 performed
    exact (sound.extends_perform first).trans (ih (sound.perform first) later)

/-- The identities in a unit were handed out before. -/
theorem Sound.identity_lt (sound : h.Sound) {unit : Program} (hunit : unit ∈ h.units)
    {id : OccurrenceId} (hid : id ∈ identities unit) : id < h.session.nextId := by
  unfold identities at hid
  rw [← occurrence_bodySites [], List.map_map] at hid
  obtain ⟨site, hsite, rfl⟩ := List.mem_map.1 hid
  exact ((sound.consistent.known unit hunit).covered site hsite).below

end History

theorem Ready.addresses {L : Legend} {m : Machine} {t : Task} (ready : Ready L m t)
    (id : OccurrenceId) : m.addresses[id]? = L.address? id := by
  cases ready with
  | expression alike | arguments alike | call alike | statement alike | body alike =>
    exact alike.addresses id

/-- At every moment the table says of an occurrence what it said before. -/
theorem History.Sound.moment {h : History} (sound : h.Sound) {m : Machine} (moment : h.Moment m)
    {id : OccurrenceId} (hid : id < h.session.nextId) :
    m.addresses[id]? = h.session.machine.addresses[id]? := by
  cases moment with
  | between performed => exact (sound.extends_performAll performed).address id hid
  | during performed hunit visits =>
    have ready := ((sound.performAll performed).ready hunit).visit visits
    exact (ready.addresses id).trans ((sound.extends_performAll performed).address id hid)

/-! ## The table of addresses -/

/-- The identities that a program has addresses for are among its identities. -/
theorem entries_sublist_identities (policy : Policy) (program : Program) :
    ((resolve policy program).entries.map Prod.fst).Sublist (identities program) := by
  rw [resolve_entries, identities, ← occurrence_bodySites [], List.map_map]
  induction bodySites [] program with
  | nil => simp
  | cons site rest ih =>
    cases haddr : site.address? with
    | none => simpa [List.filterMap_cons, Site.entry?, haddr] using ih.cons _
    | some a => simpa [List.filterMap_cons, Site.entry?, haddr] using ih

/-- **No identity is ever used twice.** After any operations let a source be
compiled. Its occurrences have numbers of their own, handed out by this
compilation; no source read later has any of them; if it compiles, the table gets
entries only for numbers that it did not know; and at every moment from then on
the table says the same of each occurrence in each unit. -/
theorem identities_never_reused (policy : Policy) (out err : Sink) (clock : Nat → Nat)
    (operations : List Operation) {h : History}
    (performed : History.performAll? ⟨.fresh policy out err clock, []⟩ operations = some h)
    (source : String) :
    Numbered h.session.nextId (h.afterCompile source).session.nextId
      (bodyOccurrences (h.reading source).program)
    ∧ (∀ (operation : Operation) (later : List Operation) (h' : History) (source' : String),
        operation.source? = some source → h.performAll? (operation :: later) = some h' →
        (identities (h.reading source).program).Disjoint
          (identities (h'.reading source').program))
    ∧ (∀ program : Program, (h.session.compile source).1 = some program →
        program = (h.reading source).program
        ∧ (h.afterCompile source).session.machine
          = h.session.machine.extend (resolve h.session.policy program).entries
        ∧ ((resolve h.session.policy program).entries.map Prod.fst).Nodup
        ∧ ∀ entry ∈ (resolve h.session.policy program).entries,
          h.session.machine.addresses[entry.1]? = none)
    ∧ ∀ unit ∈ (h.afterCompile source).units, ∀ id ∈ identities unit,
        ∀ m : Machine, (h.afterCompile source).Moment m →
          m.addresses[id]? = (h.afterCompile source).session.machine.addresses[id]? := by
  have sound := (History.sound_fresh policy out err clock).performAll performed
  have sound' : (h.afterCompile source).Sound := sound.compile rfl
  have numbered : Numbered h.session.nextId (h.afterCompile source).session.nextId
      (bodyOccurrences (h.reading source).program) := by
    show Numbered _ (h.session.compile source).2.nextId _
    rw [Session.nextId_compile]
    exact parse_numbered (tokens source) h.session.nextId
  refine ⟨numbered, ?_, ?_, fun unit hunit id hid m moment =>
    sound'.moment moment (sound'.identity_lt hunit hid)⟩
  · intro operation later h' source' reads performed' id hid hid'
    obtain ⟨h₁, first, others⟩ := Option.bind_eq_some_iff.1 performed'
    obtain ⟨between, hbetween⟩ := History.exists_performAll?_afterCompile reads first
    have reached : (h.afterCompile source).performAll? (between ++ later) = some h' := by
      rw [History.performAll?_append, hbetween]
      exact others
    have grown := (sound'.extends_performAll reached).bound_le
    -- below the number behind the first compilation, and not below it
    obtain ⟨o, ho, rfl⟩ := List.mem_map.1 hid
    obtain ⟨o', ho', same⟩ := List.mem_map.1 hid'
    have below := numbered.lt_high o ho
    have above := (parse_numbered (tokens source') h'.session.nextId).low_le o' ho'
    rw [same] at above
    exact absurd (Nat.lt_of_lt_of_le below grown) (Nat.not_lt.2 above)
  · intro program compiled
    have c : Session.Compiled h.session source program (h.session.compile source).2 :=
      Session.compiled_of_compile (Prod.ext compiled rfl)
    have same : program = (h.reading source).program := c.program_eq
    have keys := entries_sublist_identities h.session.policy program
    refine ⟨same, c.machine_eq, keys.nodup (same ▸ numbered.nodup), fun entry hentry => ?_⟩
    have hmem := keys.subset (List.mem_map_of_mem hentry)
    obtain ⟨o, ho, hid⟩ := List.mem_map.1 hmem
    have above := numbered.low_le o (same ▸ ho)
    rw [hid] at above
    exact sound.consistent.unaddressed entry.1 above

/-- The same text compiled twice is two units, and the second leaves the addresses of
the first alone. -/
theorem identities_never_reused_growing_frame :
    ∃ h, History.performAll? ⟨.fresh {} {} {} fun _ => 0, []⟩ [.compile growingFrame] = some h
      ∧ h.units = [growingFrameProgram]
      ∧ Numbered h.session.nextId (h.afterCompile growingFrame).session.nextId
        (bodyOccurrences (h.reading growingFrame).program)
      ∧ ∀ id ∈ identities growingFrameProgram, ∀ m, (h.afterCompile growingFrame).Moment m →
        m.addresses[id]? = (h.afterCompile growingFrame).session.machine.addresses[id]? := by
  obtain ⟨s, compiled⟩ := compile_growingFrame
  have performed := History.performAll?_compile
    (h := ⟨.fresh {} {} {} fun _ => 0, []⟩) compiled
  obtain ⟨numbered, -, -, lasting⟩ := identities_never_reused {} {} {} (fun _ => 0)
    [.compile growingFrame] performed growingFrame
  exact ⟨_, performed, rfl, numbered, lasting _ (List.mem_append_left _ List.mem_cons_self)⟩

end Kix
