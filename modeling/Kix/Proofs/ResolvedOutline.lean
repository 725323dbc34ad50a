import Kix.Proofs.BoundNames

/-!
# What resolving finds at each stop

Resolving a program finds addresses and reports. Each of them belongs to a stop on the way
through the outline of the program, and what is found at a stop depends on the outline alone,
not on the way there: at a part that is passed, whether the part breaks a rule
(`Outline.violation?`) and which address an occurrence has; behind a scope that is left, which
of its declarations are read nowhere (`Outline.unused?`).

The addresses and the reports of a program are those of its stops, in order (`resolve_eq`).
The invariant of the walk is that its stack is the one of the path that it has come to
(`Outline.Reached`). About a declaration the stack knows only whether it has been read *so
far*. But whoever reads it stands inside its scope, so when the scope is left no further read
can come.
-/

namespace Kix

/-- Whether a part is the scope of a function. -/
def Part.isFunction : Part → Bool
  | scope isFunction _ => isFunction
  | declaration _ | occurrence _ _ | ret _ => false

namespace Outline

variable (root : Outline)

/-- Whether a scope is that of a function, or lies inside one. -/
def inFunction : Path → Bool
  | [] => false
  | i :: scope => (root.part? (i :: scope)).any Part.isFunction || inFunction scope

/-! ## What belongs to a stop -/

/-- The occurrence at a stop, with its path. -/
def occurrenceAt? : Stop → Option (Path × Occurrence)
  | .passes path => ((root.part? path).bind Part.occurrence?).map (path, ·)
  | .leaves _ => none

/-- The entry of an occurrence in the table of addresses. -/
def recorded? (node : Path × Occurrence) : Option (OccurrenceId × Address) :=
  (root.bound? node.2.name.lexeme node.1).map fun d => (node.2.id, root.addressFrom node.1 d)

/-- The declaration that an occurrence reads. -/
def read? (node : Path × Occurrence) : Option Path :=
  if node.2.reads then root.bound? node.2.name.lexeme node.1 else none

/-- **The occurrences in an outline**, with their paths. -/
def occurrences : List (Path × Occurrence) := root.stops.filterMap root.occurrenceAt?

/-- What is read at stops. -/
def readsAt (stops : List Stop) : List Path :=
  (stops.filterMap root.occurrenceAt?).filterMap root.read?

/-- **What is read in the whole outline.** -/
def reads : List Path := root.readsAt root.stops

/-- The report about a part that breaks a rule. -/
def violation? : Path → Option Report
  | [] => none
  | i :: scope =>
    match root.part? (i :: scope) with
    | some (.declaration d) =>
      if !scope.isEmpty && (root.latest? d.name.lexeme scope i).isSome then
        some (.scoping d.name.place .alreadyDeclared)
      else none
    | some (.occurrence o initialized) =>
      if o.reads && (!scope.isEmpty && initialized.any (·.lexeme == o.name.lexeme)) then
        some (.scoping o.name.place .readInOwnInitializer)
      else none
    | some (.ret keyword) =>
      if root.inFunction scope then none
      else some (.scoping keyword.place .returnOutsideFunction)
    | some (.scope _ _) | none => none

variable (policy : Policy)

/-- The report about a declaration that is read nowhere, if the policy wants one. -/
def unused? (d : Path) : Option Report :=
  (root.binding? root.reads d).bind (Resolution.unusedReport? policy)

/-- **The reports at a stop.** -/
def reportsAt : Stop → List Report
  | .passes path => (root.violation? path).toList
  | .leaves scope => (root.declarations scope).filterMap (root.unused? policy)

/-! ## The walk -/

/-- **The walk has come to a path**: its stack is the one there, and what has been read so far
lies before it. -/
structure Reached (read : List Path) (path : Path) (r : Resolution) : Prop where
  scopes : r.scopes = root.stack read path
  before : ∀ d ∈ read, d.Before path
  known : ∀ d ∈ read, d ∈ root.reads

/-- **What walking over stops does**: it comes to a path, and finds what belongs to the
stops. -/
structure Walks (read : List Path) (stops : List Stop) (path : Path) (r r' : Resolution) :
    Prop where
  reached : root.Reached ((root.readsAt stops).reverse ++ read) path r'
  entries : r'.entries
    = ((stops.filterMap root.occurrenceAt?).filterMap root.recorded?).reverse ++ r.entries
  reports : r'.reports = (stops.flatMap (root.reportsAt policy)).reverse ++ r.reports

variable {root policy} {read : List Path} {stops stops' : List Stop} {scope path path' : Path}
  {i : Nat} {r r' r'' : Resolution}

/-- The occurrence that is passed at a stop. -/
theorem occurrenceAt?_eq_some_iff {s : Stop} {o : Occurrence} :
    root.occurrenceAt? s = some (path, o) ↔
      s = .passes path ∧ ∃ initialized, root.part? path = some (.occurrence o initialized) := by
  constructor
  · intro h
    cases s with
    | leaves => nomatch h
    | passes path =>
      obtain ⟨o, found, same⟩ := Option.map_eq_some_iff.1 h
      cases same
      obtain ⟨part, hpart, hocc⟩ := Option.bind_eq_some_iff.1 found
      cases part with
      | occurrence _ initialized => cases hocc; exact ⟨rfl, initialized, hpart⟩
      | declaration | ret | scope => nomatch hocc
  · rintro ⟨rfl, initialized, found⟩
    rw [occurrenceAt?, found]
    rfl

/-- The occurrences in an outline are its parts of that kind. -/
theorem mem_occurrences_iff {o : Occurrence} :
    (path, o) ∈ root.occurrences ↔
      ∃ initialized, root.part? path = some (.occurrence o initialized) := by
  constructor
  · intro h
    obtain ⟨s, -, at'⟩ := List.mem_filterMap.1 h
    exact (occurrenceAt?_eq_some_iff.1 at').2
  · rintro ⟨initialized, found⟩
    exact List.mem_filterMap.2 ⟨.passes path, mem_stops_iff.2 ⟨_, found, rfl⟩,
      occurrenceAt?_eq_some_iff.2 ⟨rfl, initialized, found⟩⟩

theorem readsAt_append :
    root.readsAt (stops ++ stops') = root.readsAt stops ++ root.readsAt stops' := by
  rw [readsAt, List.filterMap_append, List.filterMap_append]
  rfl

/-- **Walking twice is walking over all stops**, the later ones with what the earlier ones
read. -/
theorem Walks.trans (h : root.Walks policy read stops path r r')
    (h' : root.Walks policy ((root.readsAt stops).reverse ++ read) stops' path' r' r'') :
    root.Walks policy read (stops ++ stops') path' r r'' where
  reached := by
    rw [readsAt_append, List.reverse_append, List.append_assoc]
    exact h'.reached
  entries := by
    rw [h'.entries, h.entries, List.filterMap_append, List.filterMap_append, List.reverse_append,
      List.append_assoc]
  reports := by
    rw [h'.reports, h.reports, List.flatMap_append, List.reverse_append, List.append_assoc]

/-- At a part that is neither an occurrence nor a scope, nothing is read and no address is
found. -/
theorem walks_of_plain {part : Part} (found : root.part? (i :: scope) = some part)
    (plain : part.occurrence? = none) (reached : root.Reached read (i :: scope) r)
    (scopes : r'.scopes = root.stack read ((i + 1) :: scope)) (entries : r'.entries = r.entries)
    (reports : r'.reports = (root.violation? (i :: scope)).toList ++ r.reports) :
    root.Walks policy read [.passes (i :: scope)] ((i + 1) :: scope) r r' := by
  have none : [Stop.passes (i :: scope)].filterMap root.occurrenceAt? = [] := by
    rw [List.filterMap_cons, occurrenceAt?, found, Option.bind_some, plain]
    rfl
  refine ⟨⟨?_, fun d hd => ?_, fun d hd => ?_⟩, ?_, ?_⟩
  · rw [readsAt, none]
    exact scopes
  · rw [readsAt, none] at hd
    exact (reached.before d hd).mono (Nat.le_succ i)
  · rw [readsAt, none] at hd
    exact reached.known d hd
  · rw [none, entries]
    rfl
  · rw [reports, List.flatMap_singleton, reportsAt]
    cases root.violation? (i :: scope) <;> rfl

theorem declaration?_of_part? {part : Part} (found : root.part? path = some part) :
    root.declaration? path = part.declaration? := by
  rw [declaration?, found, Option.bind_some]

/-- **Walking a declaration.** Nothing that has been read so far can be the declaration that is
only now made. -/
theorem walks_declaration {d : Declaration}
    (found : root.part? (i :: scope) = some (.declaration d))
    (reached : root.Reached read (i :: scope) r) :
    root.Walks policy read [.passes (i :: scope)] ((i + 1) :: scope) r
      ((r.declare d.name d.isFunction).define d.name) := by
  have declared : root.declaration? (i :: scope) = some d := declaration?_of_part? found
  have unread : decide (i :: scope ∈ read) = false :=
    decide_eq_false fun mem => Path.not_before_self _ (reached.before _ mem)
  have hscopes := reached.scopes
  obtain ⟨scopes, entries, reports⟩ := r
  cases hscopes
  cases scope with
  | nil =>
    refine walks_of_plain found rfl reached rfl rfl ?_
    rw [violation?, found]
    rfl
  | cons j outer =>
    have next : root.stack read ((i + 1) :: j :: outer)
        = (⟨d.name, d.isFunction, true, false⟩ :: root.bindings read (j :: outer) i)
          :: root.stack read (j :: outer) := by
      rw [stack, bindings, binding?_of_declaration? declared, unread]
      rfl
    -- the new declaration is the latest of its name, so it is the one that is defined
    refine walks_of_plain found rfl reached ?_ ?_ ?_
    · rw [next]
      unfold Resolution.declare
      dsimp only [stack]
      split <;> simp [Resolution.define, Resolution.report, Scope.update]
    · rw [Resolution.entries_define, Resolution.entries_declare]
    · rw [Resolution.reports_define, violation?, found]
      unfold Resolution.declare
      dsimp only [stack]
      rw [slot?_bindings, Option.isSome_map]
      cases (root.latest? d.name.lexeme (j :: outer) i).isSome <;> rfl

/-- A visit marks what it reads, and nothing else. -/
theorem scopes_visitAs (r : Resolution) (own : Bool) (o : Occurrence) :
    (r.visitAs own o).scopes
      = if o.reads then Scope.markUsed o.name.lexeme r.scopes else r.scopes := by
  have kept : ((if own then r.report (.scoping o.name.place .readInOwnInitializer) else r).record
      o.id o.name).scopes = r.scopes := by
    unfold Resolution.record
    split <;> split <;> rfl
  unfold Resolution.visitAs
  dsimp only
  split
  · rw [kept]
  · exact kept

/-- A visit records the address of the name. -/
theorem entries_visitAs (r : Resolution) (own : Bool) (o : Occurrence) :
    (r.visitAs own o).entries
      = ((Scope.locate o.name.lexeme r.scopes).map (o.id, ·)).toList ++ r.entries := by
  have recorded (r : Resolution) : (r.record o.id o.name).entries
      = ((Scope.locate o.name.lexeme r.scopes).map (o.id, ·)).toList ++ r.entries := by
    unfold Resolution.record
    cases Scope.locate o.name.lexeme r.scopes <;> rfl
  have kept : (r.visitAs own o).entries
      = ((if own then r.report (.scoping o.name.place .readInOwnInitializer) else r).record
        o.id o.name).entries := by
    unfold Resolution.visitAs
    dsimp only
    split <;> rfl
  rw [kept, recorded]
  split <;> rfl

/-- A visit reports reading in the own initializer. -/
theorem reports_visitAs (r : Resolution) (own : Bool) (o : Occurrence) :
    (r.visitAs own o).reports
      = (if own then some (Report.scoping o.name.place .readInOwnInitializer) else none).toList
        ++ r.reports := by
  have kept : (r.visitAs own o).reports
      = ((if own then r.report (.scoping o.name.place .readInOwnInitializer) else r).record
        o.id o.name).reports := by
    unfold Resolution.visitAs
    dsimp only
    split <;> rfl
  rw [kept, Resolution.reports_record]
  split <;> rfl

theorem isEmpty_stack : (root.stack read (i :: scope)).isEmpty = scope.isEmpty := by
  cases scope <;> rfl

/-- **Walking an occurrence.** -/
theorem walks_occurrence {o : Occurrence} {initialized : Option Token}
    (found : root.part? (i :: scope) = some (.occurrence o initialized))
    (reached : root.Reached read (i :: scope) r) :
    root.Walks policy read [.passes (i :: scope)] ((i + 1) :: scope) r
      (r.visitAs (o.reads && (!r.scopes.isEmpty && initialized.any (·.lexeme == o.name.lexeme)))
        o) := by
  have at' : [Stop.passes (i :: scope)].filterMap root.occurrenceAt? = [(i :: scope, o)] := by
    rw [List.filterMap_cons, occurrenceAt?_eq_some_iff.2 ⟨rfl, initialized, found⟩]
    rfl
  have readsAt_eq : (root.readsAt [.passes (i :: scope)]).reverse
      = (root.read? (i :: scope, o)).toList := by
    rw [readsAt, at', List.filterMap_cons]
    cases root.read? (i :: scope, o) <;> rfl
  -- what is read here is one of the reads of the whole outline
  have node : (i :: scope, o) ∈ root.occurrences := mem_occurrences_iff.2 ⟨initialized, found⟩
  refine ⟨⟨?_, fun d hd => ?_, fun d hd => ?_⟩, ?_, ?_⟩
  · rw [readsAt_eq, scopes_visitAs, reached.scopes,
      stack_succ_of_none (declaration?_of_part? found), read?]
    split
    · exact markUsed_stack
    · rfl
  · rw [readsAt_eq] at hd
    rcases List.mem_append.1 hd with here | earlier
    · have bound := Option.mem_toList.1 here
      rw [read?] at bound
      split at bound
      · exact (before_of_bound? bound).mono (Nat.le_succ i)
      · nomatch bound
    · exact (reached.before d earlier).mono (Nat.le_succ i)
  · rw [readsAt_eq] at hd
    rcases List.mem_append.1 hd with here | earlier
    · exact List.mem_filterMap.2 ⟨_, node, Option.mem_toList.1 here⟩
    · exact reached.known d earlier
  · rw [entries_visitAs, reached.scopes, locate_stack, at', List.filterMap_cons, recorded?,
      Option.map_map]
    cases root.bound? o.name.lexeme (i :: scope) <;> rfl
  · rw [reports_visitAs, reached.scopes, isEmpty_stack, List.flatMap_singleton, reportsAt,
      violation?, found]
    dsimp only
    split <;> rfl

/-! ## Scopes -/

/-- **What is read of a scope is read inside it.** -/
theorem mem_readsAt_of_mem_reads {parts : Outline} {j : Nat}
    (hscope : root.scope? scope = some parts) (h : j :: scope ∈ root.reads) :
    j :: scope ∈ root.readsAt (stopsFrom scope 0 parts) := by
  obtain ⟨⟨path, o⟩, node, hread⟩ := List.mem_filterMap.1 h
  obtain ⟨initialized, found⟩ := mem_occurrences_iff.1 node
  refine List.mem_filterMap.2 ⟨(path, o), List.mem_filterMap.2 ⟨.passes path, ?_,
    occurrenceAt?_eq_some_iff.2 ⟨rfl, initialized, found⟩⟩, hread⟩
  rw [read?] at hread
  split at hread
  · obtain ⟨i, k, scope', same, -, -, inside, -⟩ := of_bound?_eq_some hread
    cases same
    refine passes_mem_stopsFrom hscope ((List.suffix_cons i scope).trans inside) ?_ found rfl
    rintro rfl
    exact Nat.not_succ_le_self _ inside.length_le
  · nomatch hread

/-- What is held of a scope at its end, if all reads are known, tells what is unused in it. -/
theorem filterMap_unusedReport? {parts : Outline} (hscope : root.scope? scope = some parts) :
    (root.bindings root.reads scope parts.length).filterMap (Resolution.unusedReport? policy)
      = ((root.declarations scope).filterMap (root.unused? policy)).reverse := by
  rw [← List.reverse_reverse (List.filterMap _ _), filterMap_reverse_bindings, declarations,
    hscope]
  rfl

/-- **Leaving a scope.** What has been read so far of its declarations is all that is ever read
of them. -/
theorem Walks.close {isFunction : Bool} {parts : List Part}
    (found : root.part? (i :: scope) = some (.scope isFunction parts))
    (h : root.Walks policy read (stopsFrom (i :: scope) 0 parts) (parts.length :: i :: scope)
      r.openScope r') :
    root.Walks policy read (stopsFrom (i :: scope) 0 parts ++ [.leaves (i :: scope)])
      ((i + 1) :: scope) r (r'.closeScope policy) := by
  have hscope := scope?_of_part? found
  have reads_eq : root.readsAt (stopsFrom (i :: scope) 0 parts ++ [.leaves (i :: scope)])
      = root.readsAt (stopsFrom (i :: scope) 0 parts) := by
    rw [readsAt_append]
    exact List.append_nil _
  have complete : root.bindings ((root.readsAt (stopsFrom (i :: scope) 0 parts)).reverse ++ read)
      (i :: scope) parts.length = root.bindings root.reads (i :: scope) parts.length :=
    bindings_congr fun j _ => ⟨h.reached.known _, fun mem => List.mem_append_left _
      (List.mem_reverse.2 (mem_readsAt_of_mem_reads hscope mem))⟩
  have hscopes := h.reached.scopes
  rw [stack, complete] at hscopes
  unfold Resolution.closeScope
  rw [hscopes]
  dsimp only
  rw [filterMap_unusedReport? hscope]
  refine ⟨⟨?_, fun d hd => ?_, fun d hd => ?_⟩, ?_, ?_⟩
  · rw [reads_eq, stack_succ_of_none (declaration?_of_part? found)]
  · rw [reads_eq] at hd
    exact (h.reached.before d hd).leave
  · rw [reads_eq] at hd
    exact h.reached.known d hd
  · rw [List.filterMap_append]
    exact h.entries.trans (by rw [List.filterMap_cons, occurrenceAt?]; simp [Resolution.openScope])
  · rw [List.flatMap_append, List.flatMap_singleton, reportsAt, List.reverse_append,
      List.append_assoc]
    exact congrArg (_ ++ ·) h.reports

/-- A scope is entered at its first part. -/
theorem Reached.openScope (reached : root.Reached read (i :: scope) r) :
    root.Reached read (0 :: i :: scope) r.openScope where
  scopes := congrArg ([] :: ·) reached.scopes
  before d hd := (reached.before d hd).enter 0
  known := reached.known

end Outline

open Outline

variable {root : Outline} (policy : Policy)

mutual

/-- **Walking a part is walking its stops.** -/
theorem Part.walk_walks (scope : Path) (i : Nat) :
    ∀ (part : Part) {read : List Path} {r : Resolution}, root.part? (i :: scope) = some part →
      root.Reached read (i :: scope) r →
      root.Walks policy read (part.stops (i :: scope)) ((i + 1) :: scope) r
        (part.walk policy (root.inFunction scope) r)
  | .declaration d, _, r, found, reached => by
    rw [Part.walk, Part.stops]
    exact walks_declaration found reached
  | .occurrence o initialized, _, r, found, reached => by
    rw [Part.walk, Part.stops]
    exact walks_occurrence found reached
  | .ret keyword, _, r, found, reached => by
    rw [Part.walk, Part.stops]
    refine walks_of_plain found rfl reached ?_ ?_ ?_
    · rw [stack_succ_of_none (declaration?_of_part? found), ← reached.scopes]
      split <;> rfl
    · split <;> rfl
    · rw [violation?, found]
      dsimp only
      split <;> rfl
  | .scope isFunction parts, _, r, found, reached => by
    have hscope := scope?_of_part? found
    have inside : root.inFunction (i :: scope) = (root.inFunction scope || isFunction) := by
      rw [Outline.inFunction, found, Bool.or_comm]
      rfl
    have inner := walkParts_walks (i :: scope) 0 parts
      (fun j => by rw [Nat.zero_add, part?_cons hscope]) reached.openScope
    rw [Nat.zero_add] at inner
    rw [Part.walk, Part.stops, ← inside]
    exact inner.close found

/-- **Walking the parts of a scope** makes their stops. -/
theorem walkParts_walks (scope : Path) (i : Nat) :
    ∀ (parts : List Part) {read : List Path} {r : Resolution},
      (∀ j, root.part? ((i + j) :: scope) = parts[j]?) → root.Reached read (i :: scope) r →
      root.Walks policy read (stopsFrom scope i parts) ((i + parts.length) :: scope) r
        (walkParts policy (root.inFunction scope) parts r)
  | [], _, r, _, reached => by
    rw [walkParts, stopsFrom]
    exact ⟨reached, rfl, rfl⟩
  | part :: rest, _, r, found, reached => by
    have first := part.walk_walks scope i (found 0) reached
    have others := walkParts_walks scope (i + 1) rest
      (fun j => by rw [Nat.add_right_comm]; exact found (j + 1)) first.reached
    rw [walkParts, stopsFrom, List.length_cons, Nat.add_comm rest.length, ← Nat.add_assoc]
    exact first.trans others

end

/-- **Resolving a program finds what belongs to the stops of its outline**, in order. -/
theorem resolve_eq (program : Program) :
    resolve policy program
      = ⟨(bodyOutline program).occurrences.filterMap (bodyOutline program).recorded?,
        (bodyOutline program).stops.flatMap ((bodyOutline program).reportsAt policy)⟩ := by
  have start : (bodyOutline program).Reached [] [0] {} :=
    ⟨rfl, fun _ h => absurd h List.not_mem_nil, fun _ h => absurd h List.not_mem_nil⟩
  have walked := walkParts_walks policy [] 0 (bodyOutline program)
    (fun j => by rw [Nat.zero_add]; rfl) start
  have same := resolveBody_eq_walk policy false program (Γ := []) (r := {}) rfl
  unfold resolve
  dsimp only
  rw [same, show false = (bodyOutline program).inFunction [] from rfl, walked.entries,
    walked.reports, List.append_nil, List.append_nil, List.reverse_reverse, List.reverse_reverse]
  rfl

/-- **The entries of a program** are those of its occurrences. -/
theorem entries_resolve (program : Program) :
    (resolve policy program).entries
      = (bodyOutline program).occurrences.filterMap (bodyOutline program).recorded? :=
  congrArg Resolved.entries (resolve_eq policy program)

/-- **The reports of a program** are those of its stops, in order. -/
theorem reports_resolve (program : Program) :
    (resolve policy program).reports
      = (bodyOutline program).stops.flatMap ((bodyOutline program).reportsAt policy) :=
  congrArg Resolved.reports (resolve_eq policy program)

end Kix
