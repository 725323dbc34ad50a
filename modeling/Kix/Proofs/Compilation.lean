import Mathlib.Data.List.Nodup
import Kix.Proofs.Simulation
import Kix.Session

/-!
# What compiling establishes

A unit that compiles leaves its addresses in the table of the session, beside
those of all units before it. Since no two occurrences of a session share an
identity, the table says of each occurrence what the resolver found for it, and
later units change none of it: the legend of the session describes every unit
compiled so far (`Session.Consistent`).

With this the simulation becomes a statement about source texts. Whatever a
fresh session compiles runs as evaluation by name says (`run_agrees_by_name`).
-/

namespace Kix

/-! ## Tables of addresses -/

section Table

variable (table : AddressTable) {sites : List Site}

/-- Entries of other occurrences change nothing. -/
theorem getElem?_extend_of_notMem {id : OccurrenceId}
    (h : id ∉ sites.map (·.occurrence.id)) :
    (table.extend (sites.filterMap Site.entry?))[id]? = table[id]? := by
  unfold AddressTable.extend
  induction sites generalizing table with
  | nil => rw [List.filterMap_nil, Std.HashMap.insertMany_nil]
  | cons t rest ih =>
    rw [List.map_cons, List.mem_cons, not_or] at h
    cases hentry : t.entry? with
    | none => rw [List.filterMap_cons_none hentry, ih table h.2]
    | some entry =>
      obtain ⟨a, -, rfl⟩ := Option.map_eq_some_iff.1 hentry
      rw [List.filterMap_cons_some hentry, Std.HashMap.insertMany_cons, ih _ h.2,
        Std.HashMap.getElem?_insert, if_neg (by simpa using Ne.symm h.1)]

/-- **The table holds the address of a site**, if occurrences have identities of
their own. -/
theorem getElem?_extend_of_mem (distinct : (sites.map (·.occurrence.id)).Nodup) {s : Site}
    (hs : s ∈ sites) :
    (table.extend (sites.filterMap Site.entry?))[s.occurrence.id]?
      = s.address?.or table[s.occurrence.id]? := by
  induction sites generalizing table with
  | nil => exact absurd hs List.not_mem_nil
  | cons t rest ih =>
    rw [List.map_cons, List.nodup_cons] at distinct
    cases hentry : t.entry? with
    | none =>
      rw [List.filterMap_cons_none hentry]
      rcases List.mem_cons.1 hs with rfl | later
      · rw [getElem?_extend_of_notMem table distinct.1, Option.map_eq_none_iff.1 hentry,
          Option.none_or]
      · exact ih table distinct.2 later
    | some entry =>
      obtain ⟨a, haddr, rfl⟩ := Option.map_eq_some_iff.1 hentry
      have tail := fun h => ih (table.insert t.occurrence.id a) distinct.2 h
      unfold AddressTable.extend at tail ⊢
      rw [List.filterMap_cons_some hentry, Std.HashMap.insertMany_cons]
      rcases List.mem_cons.1 hs with rfl | later
      · have front := getElem?_extend_of_notMem (table.insert s.occurrence.id a) distinct.1
        unfold AddressTable.extend at front
        rw [front, Std.HashMap.getElem?_insert_self, haddr, Option.some_or]
      · have other : t.occurrence.id ≠ s.occurrence.id := fun same =>
          distinct.1 (same ▸ List.mem_map_of_mem later)
        rw [tail later, Std.HashMap.getElem?_insert, if_neg (by simpa using other)]

end Table

/-! ## Compiled units -/

namespace Session

/-- The legend of a session that has compiled some units. -/
def legend (s : Session) (units : List Program) : Legend where
  address? id := s.machine.addresses[id]?
  isSelfAssignment id := ∃ unit ∈ units, id ∈ selfAssignments unit
  bound := s.nextId

/-- **The legend describes all units**, and nothing in it is about occurrences
that are still to come. -/
structure Consistent (s : Session) (units : List Program) : Prop where
  unaddressed : ∀ id, s.nextId ≤ id → s.machine.addresses[id]? = none
  known : ∀ unit ∈ units, BodyKnown (s.legend units) [] unit

/-- What a unit that compiles has passed. -/
structure Compiled (s : Session) (source : String) (program : Program) (s' : Session) : Prop where
  program_eq : program = (parse ((scan source).filterMap Item.token?) s.nextId).program
  nextId_eq : s'.nextId = (parse ((scan source).filterMap Item.token?) s.nextId).nextId
  machine_eq : s'.machine = s.machine.extend (resolve s.policy program).entries
  accepted : ∀ report ∈ (resolve s.policy program).reports, report.isStatic = false

variable {s s' : Session} {source : String} {program : Program} {units : List Program}

/-- **A compilation that gave a program**, as its stages have left it. -/
theorem compiled_of_compile (h : s.compile source = (some program, s')) :
    Compiled s source program s' := by
  unfold compile at h
  dsimp only at h
  split at h
  · exact nomatch congrArg Prod.fst h
  · split at h
    · exact nomatch congrArg Prod.fst h
    · next notClean =>
      cases h
      refine ⟨rfl, rfl, rfl, fun report hreport => ?_⟩
      have clean := eq_false_of_ne_true notClean
      have none := (Bool.or_eq_false_iff.1 clean).2
      exact eq_false_of_ne_true fun static =>
        absurd (List.any_eq_true.2 ⟨report, hreport, static⟩) (Bool.eq_false_iff.1 none)

/-- A source compiles if no stage has anything static to report. -/
theorem exists_compile {ts : List Token} {next : OccurrenceId} (clean : s.log.hadError = false)
    (scanned : scan source = ts.map Item.token) (parsed : parse ts s.nextId = ⟨program, next, []⟩)
    (accepted : (resolve s.policy program).reports.any Report.isStatic = false) :
    ∃ s', s.compile source = (some program, s') := by
  have hts : (ts.map Item.token).filterMap Item.token? = ts := by
    rw [List.filterMap_map]
    exact List.filterMap_some
  have hfaults : (ts.map Item.token).filterMap Item.fault? = [] := by
    rw [List.filterMap_map]
    exact List.filterMap_none ts
  have none : (s.log.addAll ([] ++ [])).hadError = false := by
    show (s.log.hadError || false) = false
    rw [clean]
    rfl
  have none' : ((s.log.addAll ([] ++ [])).addAll (resolve s.policy program).reports).hadError
      = false := by
    show ((s.log.addAll ([] ++ [])).hadError || _) = false
    rw [none, accepted]
    rfl
  unfold compile
  dsimp only
  rw [scanned, hts, hfaults, parsed, if_neg (by rw [none]; exact Bool.false_ne_true)]
  refine ⟨_, if_neg ?_⟩
  show ¬ ((s.log.addAll ([] ++ [])).addAll (resolve s.policy program).reports).hadError = true
  rw [none']
  exact Bool.false_ne_true

/-- A unit that does not compile is read all the same, and changes nothing
else of the machine. -/
theorem of_compile_eq_none (h : s.compile source = (none, s')) :
    s'.machine = s.machine ∧ s.nextId ≤ s'.nextId := by
  have read := parse_nextId_le ((scan source).filterMap Item.token?) s.nextId
  unfold compile at h
  dsimp only at h
  split at h
  · cases h
    exact ⟨rfl, read⟩
  · split at h
    · cases h
      exact ⟨rfl, read⟩
    · exact nomatch congrArg Prod.fst h

/-- The sites of a unit are numbered from where the session stood. -/
theorem Compiled.numbered (c : Compiled s source program s') :
    Numbered s.nextId s'.nextId ((bodySites [] program).map Site.occurrence) := by
  have numbered := parse_numbered ((scan source).filterMap Item.token?) s.nextId
  rwa [← c.program_eq, ← c.nextId_eq, ← occurrence_bodySites []] at numbered

end Session

/-- A self assignment stands in the initializer of the variable that it assigns. -/
theorem mem_selfAssignments {program : Program} {id : OccurrenceId} :
    id ∈ selfAssignments program ↔ ∃ site ∈ bodySites [] program,
      site.isOwn = true ∧ site.occurrence.reads = false ∧ site.occurrence.id = id := by
  unfold selfAssignments
  constructor
  · intro h
    obtain ⟨site, hsite, rfl⟩ := List.mem_map.1 h
    obtain ⟨hmem, hown⟩ := List.mem_filter.1 hsite
    rw [Bool.and_eq_true, Bool.not_eq_true'] at hown
    exact ⟨site, hmem, hown.1, hown.2, rfl⟩
  · rintro ⟨site, hmem, hown, hreads, rfl⟩
    refine List.mem_map_of_mem (List.mem_filter.2 ⟨hmem, ?_⟩)
    rw [hown, hreads]
    rfl

namespace Session

variable {s s' : Session} {source : String} {program : Program} {units : List Program}

/-- What a unit assigns in initializers was numbered when it was compiled. -/
theorem Consistent.selfAssignment_lt (h : s.Consistent units) {unit : Program}
    (hunit : unit ∈ units) {id : OccurrenceId} (hid : id ∈ selfAssignments unit) :
    id < s.nextId := by
  obtain ⟨site, hsite, -, -, rfl⟩ := mem_selfAssignments.1 hid
  exact ((h.known unit hunit).covered site hsite).below

/-- **A new unit changes nothing that was known of the old ones.** -/
theorem Compiled.extends (c : Compiled s source program s') (units : List Program) :
    (s.legend units).Extends (s'.legend (units ++ [program])) where
  bound_le := by
    show s.nextId ≤ s'.nextId
    rw [c.nextId_eq]
    exact parse_nextId_le _ _
  address id hid := by
    show s'.machine.addresses[id]? = s.machine.addresses[id]?
    rw [c.machine_eq]
    show (s.machine.addresses.extend _)[id]? = _
    rw [resolve_entries]
    -- The new entries are for numbers that the old units never saw.
    refine getElem?_extend_of_notMem _ fun hmem => ?_
    obtain ⟨site, hsite, rfl⟩ := List.mem_map.1 hmem
    exact absurd hid (Nat.not_lt.2 (c.numbered.low_le _ (List.mem_map_of_mem hsite)))
  isSelfAssignment id hid := by
    show (∃ unit ∈ units ++ [program], id ∈ selfAssignments unit)
      ↔ ∃ unit ∈ units, id ∈ selfAssignments unit
    constructor
    · rintro ⟨unit, hunit, hself⟩
      rcases List.mem_append.1 hunit with old | new
      · exact ⟨unit, old, hself⟩
      · obtain rfl := List.mem_singleton.1 new
        obtain ⟨site, hsite, -, -, rfl⟩ := mem_selfAssignments.1 hself
        exact absurd hid (Nat.not_lt.2 (c.numbered.low_le _ (List.mem_map_of_mem hsite)))
    · rintro ⟨unit, hunit, hself⟩
      exact ⟨unit, List.mem_append_left _ hunit, hself⟩

/-- The legend describes a unit as soon as it is compiled. -/
theorem Compiled.bodyKnown (c : Compiled s source program s') (h : s.Consistent units) :
    BodyKnown (s'.legend (units ++ [program])) [] program where
  placed := by
    rw [c.program_eq]
    exact parse_placed _ _
  covered site hsite := by
    have numbered := c.numbered
    have hmem := List.mem_map_of_mem (f := Site.occurrence) hsite
    have distinct : ((bodySites [] program).map (·.occurrence.id)).Nodup := by
      have ids := numbered.nodup
      rwa [List.map_map] at ids
    exact {
      below := numbered.lt_high _ hmem
      address := by
        show s'.machine.addresses[site.occurrence.id]? = site.address?
        rw [c.machine_eq]
        show (s.machine.addresses.extend _)[site.occurrence.id]? = site.address?
        rw [resolve_entries, getElem?_extend_of_mem _ distinct hsite,
          h.unaddressed _ (numbered.low_le _ hmem), Option.or_none]
      reads := resolve_reads_visible s.policy program c.accepted hsite
      assigns := fun hreads => by
        constructor
        · rintro ⟨unit, hunit, hself⟩
          -- No old unit has the site's number, and in the new one no other site has it.
          rcases List.mem_append.1 hunit with old | new
          · have below := h.selfAssignment_lt old hself
            exact absurd below (Nat.not_lt.2 (numbered.low_le _ hmem))
          · obtain rfl := List.mem_singleton.1 new
            obtain ⟨site', hsite', hown, -, hid⟩ := mem_selfAssignments.1 hself
            obtain rfl := List.inj_on_of_nodup_map distinct hsite' hsite hid
            exact hown
        · intro hown
          exact ⟨program, List.mem_append_right _ (List.mem_singleton_self _),
            mem_selfAssignments.2 ⟨site, hsite, hown, hreads, rfl⟩⟩ }

/-- After another unit, numbers and addresses still belong together. -/
theorem Compiled.consistent (c : Compiled s source program s') (h : s.Consistent units) :
    s'.Consistent (units ++ [program]) where
  unaddressed id hid := by
    have later : s.nextId ≤ id := Nat.le_trans (c.extends units).bound_le hid
    rw [c.machine_eq]
    show (s.machine.addresses.extend _)[id]? = none
    rw [resolve_entries, getElem?_extend_of_notMem _ fun hmem => ?_, h.unaddressed id later]
    obtain ⟨site, hsite, rfl⟩ := List.mem_map.1 hmem
    exact absurd (c.numbered.lt_high _ (List.mem_map_of_mem hsite)) (Nat.not_lt.2 hid)
  known unit hunit := by
    rcases List.mem_append.1 hunit with old | new
    · have known := h.known unit old
      exact ⟨known.placed, known.covered.mono (c.extends units)⟩
    · rw [List.mem_singleton.1 new]
      exact c.bodyKnown h

/-- A unit that does not compile leaves everything as consistent as it was. -/
theorem Consistent.of_eq (h : s.Consistent units) (machine : s'.machine = s.machine)
    (read : s.nextId ≤ s'.nextId) :
    s'.Consistent units ∧ (s.legend units).Extends (s'.legend units) := by
  have wider : (s.legend units).Extends (s'.legend units) :=
    ⟨read, fun id _ => by
      show s'.machine.addresses[id]? = s.machine.addresses[id]?
      rw [machine], fun _ _ => Iff.rfl⟩
  refine ⟨⟨fun id hid => ?_, fun unit hunit => ?_⟩, wider⟩
  · rw [machine]
    exact h.unaddressed id (Nat.le_trans read hid)
  · exact ⟨(h.known unit hunit).placed, (h.known unit hunit).covered.mono wider⟩

end Session

/-! ## Fresh machines -/

/-- The native functions are put into both tables, one by one. -/
theorem Like.rel_insert_natives {L : Legend} {σ : Store Value} {w : Placement}
    (fs : List Native) {t : Std.HashMap String Value} {t' : Std.HashMap String Lexical.Value}
    (h : ∀ x : String, Option.Rel (Like L σ w) t[x]? t'[x]?) (x : String) :
    Option.Rel (Like L σ w) (t.insertMany (fs.map fun f => (f.name, Value.native f)))[x]?
      (t'.insertMany (fs.map fun f => (f.name, Lexical.Value.native f)))[x]? := by
  induction fs generalizing t t' with
  | nil =>
    rw [List.map_nil, List.map_nil, Std.HashMap.insertMany_nil, Std.HashMap.insertMany_nil]
    exact h x
  | cons f rest ih =>
    rw [List.map_cons, List.map_cons, Std.HashMap.insertMany_cons, Std.HashMap.insertMany_cons]
    exact ih (Like.rel_insert h f.name (.native f))

/-- Machines with the native functions and nothing else are alike. -/
theorem alike_fresh (L : Legend) (out : Sink) (clock : Nat → Nat) (addresses : AddressTable)
    (h : ∀ id : OccurrenceId, addresses[id]? = L.address? id) :
    Alike L (fun _ => []) { addresses, out, clock } { out, clock } where
  addresses := h
  globals name := by
    show Option.Rel _ (Std.HashMap.ofList _)[name]? (Std.HashMap.ofList _)[name]?
    rw [Std.HashMap.ofList_eq_insertMany_empty, Std.HashMap.ofList_eq_insertMany_empty]
    refine Like.rel_insert_natives Native.all (fun x => ?_) name
    rw [Std.HashMap.getElem?_empty, Std.HashMap.getElem?_empty]
    exact .none
  contents h := nomatch h
  bounded h := nomatch h
  injective h := nomatch h
  unplaced _ _ := rfl
  nextClosure := rfl
  out := rfl
  clock := rfl
  readings := rfl

/-- Machines stay alike when more code is described. -/
theorem Alike.extend {L L' : Legend} {w : Placement} {m : Machine} {n : Lexical.Machine}
    (h : Alike L w m n) (hL : L.Extends L') (addresses : AddressTable)
    (haddr : ∀ id : OccurrenceId, addresses[id]? = L'.address? id) :
    Alike L' w { m with addresses } n := by
  have rel {a : Option Value} {a' : Option Lexical.Value}
      (h : Option.Rel (Like L m.store w) a a') : Option.Rel (Like L' m.store w) a a' := by
    cases h with
    | none => exact .none
    | some like => exact .some (like.extend hL)
  exact { h with
    addresses := haddr
    globals := fun name => rel (h.globals name)
    contents := fun hcell => rel (h.contents hcell) }

/-! ## Runs of compiled units -/

/-- **Runs that agree**: with the same report, if any, the same output, and
machines that are alike, the global variables among the rest. -/
structure Agree (L : Legend) (r : Option Report × Machine)
    (r' : Option Report × Lexical.Machine) : Prop where
  report : r.1 = r'.1
  out : r.2.out = r'.2.out
  alike : ∃ w, Alike L w r.2 r'.2

/-- **Runs agree** from machines that are alike. -/
theorem Machine.run?_agrees {L : Legend} {w : Placement} {m : Machine} {n : Lexical.Machine}
    (alike : Alike L w m n) (current : m.current = none) {program : Program}
    (known : BodyKnown L [] program) (steps : Nat) :
    Option.Rel (Agree L) (m.run? steps program) (n.run? steps program) := by
  have running : Running m.store w [] m.current none := by
    rw [current]
    exact .atTop
  have ends := (simulates L steps).executeAll alike running known
  unfold Machine.run? Lexical.Machine.run?
  generalize executeAll steps program m = r, Lexical.executeAll steps none program n = r' at ends ⊢
  cases ends with
  | ok alike _ _ _ => exact .some ⟨by rw [alike.out], alike.out.symm, _, alike.at_frame none⟩
  | @halted halt _ _ _ alike =>
    cases halt with
    | fault report => exact .some ⟨rfl, alike.out.symm, _, alike.at_frame none⟩
    | exhausted => exact .none

/-- A run comes back to the global scope. -/
theorem Machine.current_of_run? {m m' : Machine} {steps : Nat} {program : Program}
    {report : Option Report} (h : m.run? steps program = some (report, m')) :
    m'.current = none := by
  unfold Machine.run? at h
  dsimp only at h
  split at h
  · cases h
    rfl
  · cases h
    rfl
  · exact nomatch h

/-- A session in which nothing was compiled yet. -/
def Session.fresh (policy : Policy) (out err : Sink) (clock : Nat → Nat) : Session :=
  { policy, machine := { out, clock }, err }

theorem Session.consistent_fresh (policy : Policy) (out err : Sink) (clock : Nat → Nat) :
    (Session.fresh policy out err clock).Consistent [] where
  unaddressed _ _ := Std.HashMap.getElem?_empty
  known _ hunit := absurd hunit List.not_mem_nil

/-- **Running with addresses refines evaluation by name.** Whatever a fresh
session compiles, its run and its evaluation by name come to an end together,
with the same report and the same output, and leave machines that are alike. -/
theorem run_agrees_by_name (policy : Policy) (out err : Sink) (clock : Nat → Nat)
    (source : String) {program : Program} {s : Session}
    (compiled : (Session.fresh policy out err clock).compile source = (some program, s))
    (steps : Nat) :
    Option.Rel (Agree (s.legend [program])) (s.machine.run? steps program)
      (Lexical.Machine.run? { out, clock } steps program) := by
  have c := Session.compiled_of_compile compiled
  have known := c.bodyKnown (Session.consistent_fresh policy out err clock)
  have machine : s.machine = { addresses := s.machine.addresses, out, clock } := by
    rw [c.machine_eq]
    rfl
  have alike := alike_fresh (s.legend [program]) out clock s.machine.addresses fun _ => rfl
  rw [← machine] at alike
  refine Machine.run?_agrees alike ?_ known steps
  rw [machine]

/-- A function is made when its frame has one variable and called when it has
three. -/
def growingFrame : String :=
  "\x7b var a = true; fun f() \x7b return a; \x7d var b = f(); print b; \x7d"

/-- Its tokens, but for the end of the input. -/
def growingFrameTokens : List Token :=
  [.onLine 1 .leftBrace "\x7b", .onLine 1 .varWord "var", .onLine 1 .identifier "a",
    .onLine 1 .equal "=", .onLine 1 .trueWord "true", .onLine 1 .semicolon ";",
    .onLine 1 .funWord "fun", .onLine 1 .identifier "f", .onLine 1 .leftParen "(",
    .onLine 1 .rightParen ")", .onLine 1 .leftBrace "\x7b", .onLine 1 .returnWord "return",
    .onLine 1 .identifier "a", .onLine 1 .semicolon ";", .onLine 1 .rightBrace "\x7d",
    .onLine 1 .varWord "var", .onLine 1 .identifier "b", .onLine 1 .equal "=",
    .onLine 1 .identifier "f", .onLine 1 .leftParen "(", .onLine 1 .rightParen ")",
    .onLine 1 .semicolon ";", .onLine 1 .printWord "print", .onLine 1 .identifier "b",
    .onLine 1 .semicolon ";", .onLine 1 .rightBrace "\x7d", .endOfInput 1]

/-- Its program. -/
def growingFrameProgram : Program :=
  [.block [
    .var (.onLine 1 .identifier "a") (.literal (.bool true)),
    .function (.onLine 1 .identifier "f") []
      [.ret (.onLine 1 .returnWord "return") (.var 0 (.onLine 1 .identifier "a"))],
    .var (.onLine 1 .identifier "b")
      (.call (.var 1 (.onLine 1 .identifier "f")) (.onLine 1 .rightParen ")") []),
    .print (.var 2 (.onLine 1 .identifier "b"))]]

theorem compile_growingFrame :
    ∃ s, (Session.fresh {} {} {} fun _ => 0).compile growingFrame
      = (some growingFrameProgram, s) := by
  have scanned : scan growingFrame = growingFrameTokens.map Item.token := by
    decide +kernel
  have parsed : parse growingFrameTokens 0 = ⟨growingFrameProgram, 3, []⟩ := by
    cbv
  exact Session.exists_compile rfl scanned parsed (by decide)

theorem run_agrees_by_name_growing_frame :
    ∃ s, (Session.fresh {} {} {} fun _ => 0).compile growingFrame = (some growingFrameProgram, s)
      ∧ ∀ steps, Option.Rel (Agree (s.legend [growingFrameProgram]))
        (s.machine.run? steps growingFrameProgram)
        (Lexical.Machine.run? {} steps growingFrameProgram) := by
  obtain ⟨s, compiled⟩ := compile_growingFrame
  exact ⟨s, compiled, run_agrees_by_name {} {} {} (fun _ => 0) _ compiled⟩

end Kix
