import Kix.Proofs.ProgramShape
import Kix.Scope.Resolution

/-!
# The sites of a program

Resolving walks a program with a stack of scopes that it changes as it goes.
What the walk finds at an occurrence depends only on where the occurrence
stands, and this module says on what: on the names that the scopes around it
declare before it – its **context** – and on whether it stands in the
initializer of a variable of its own scope. An occurrence together with these
is a **site**, and `bodySites` lists the sites of a program without any walk.

The main results are that the addresses of a program are the addresses of its
sites, in order (`resolve_entries`), and that a program without static reports
reads no variable at a site in that variable's own initializer
(`resolve_reads_visible`).
-/

namespace Kix

/-! ## Contexts -/

/-- The names that the open scopes declare, the innermost scope and the latest
name first. The global scope is not among them. -/
abbrev Context := List (List String)

namespace Context

/-- The number of names before the latest declaration of a name. -/
def slot? (name : String) : List String → Option Nat
  | [] => none
  | x :: older => if x == name then some older.length else slot? name older

/-- **Where a name leads** from a place with the given context. -/
def locate (name : String) : Context → Option Address
  | [] => none
  | scope :: outer =>
    match slot? name scope with
    | some slot => some ⟨0, slot⟩
    | none => (locate name outer).map Address.outward

/-- Declaring a name in the innermost scope; the global scope keeps no list. -/
def declare (name : String) : Context → Context
  | [] => []
  | scope :: outer => (name :: scope) :: outer

/-- The name that may not be read in its own initializer: none in the global
scope. -/
def hidden (name : String) : Context → Option String
  | [] => none
  | _ :: _ => some name

end Context

/-- The context behind a statement. -/
def Stmt.extend (Γ : Context) : Stmt → Context
  | .var name _ | .function name _ _ => Γ.declare name.lexeme
  | .branch _ thenBranch elseBranch => elseBranch.extend (thenBranch.extend Γ)
  | .loop _ body => body.extend Γ
  | .expression _ | .print _ | .block _ | .ret _ _ | .absent => Γ

/-- A statement that declares nothing keeps its context. -/
theorem Stmt.extend_of_placed {s : Stmt} (placed : s.Placed) (Γ : Context)
    (h : s.declared? = none) : s.extend Γ = Γ := by
  match s, placed, h with
  | .branch _ thenBranch elseBranch, ⟨⟨hthen, pthen⟩, helse, pelse⟩, _ =>
    rw [Stmt.extend, Stmt.extend_of_placed pthen Γ hthen, Stmt.extend_of_placed pelse Γ helse]
  | .loop _ body, ⟨hbody, pbody⟩, _ => rw [Stmt.extend, Stmt.extend_of_placed pbody Γ hbody]
  | .expression _, _, _ | .print _, _, _ | .block _, _, _ | .ret _ _, _, _ | .absent, _, _ => rfl

/-- A statement declares names in the innermost scope only. -/
theorem Stmt.exists_extend_cons : ∀ (s : Stmt) (names : List String) (Γ : Context),
    ∃ names', s.extend (names :: Γ) = names' :: Γ
  | .var name _, names, _ | .function name _ _, names, _ => ⟨name.lexeme :: names, rfl⟩
  | .branch _ thenBranch elseBranch, names, Γ => by
    obtain ⟨names', hthen⟩ := thenBranch.exists_extend_cons names Γ
    rw [Stmt.extend, hthen]
    exact elseBranch.exists_extend_cons names' Γ
  | .loop _ body, names, Γ => body.exists_extend_cons names Γ
  | .expression _, names, _ | .print _, names, _ | .block _, names, _ | .ret _ _, names, _
  | .absent, names, _ => ⟨names, rfl⟩

/-! ## Sites -/

/-- **A site**: an occurrence, the context in which it stands, and the name
whose initializer it stands in, if that name is declared in a scope. -/
structure Site where
  occurrence : Occurrence
  context : Context
  hidden : Option String

namespace Site

/-- The address that an occurrence has where it stands. -/
def address? (s : Site) : Option Address := s.context.locate s.occurrence.name.lexeme

/-- The entry of a site in the table of addresses, if it has an address. -/
def entry? (s : Site) : Option (OccurrenceId × Address) :=
  s.address?.map fun a => (s.occurrence.id, a)

/-- Whether a variable occurs in its own initializer. -/
def isOwn (s : Site) : Bool := s.hidden == some s.occurrence.name.lexeme

end Site

/-- The sites in an expression all have its context. -/
def Expr.sites (Γ : Context) (hidden : Option String) (e : Expr) : List Site :=
  e.occurrences.map fun o => ⟨o, Γ, hidden⟩

mutual

/-- The sites in a statement. -/
def Stmt.sites (Γ : Context) : Stmt → List Site
  | .expression value | .print value | .ret _ value => value.sites Γ none
  | .var name initializer =>
    initializer.sites (Γ.declare name.lexeme) (Γ.hidden name.lexeme)
  | .block body => bodySites ([] :: Γ) body
  | .branch condition thenBranch elseBranch =>
    condition.sites Γ none ++ (thenBranch.sites Γ ++ elseBranch.sites (thenBranch.extend Γ))
  | .loop condition body => condition.sites Γ none ++ body.sites Γ
  | .function name params body =>
    bodySites ((params.map Token.lexeme).reverse :: Γ.declare name.lexeme) body
  | .absent => []

/-- **The sites of a body**: each statement stands in the context that the
statements before it leave. -/
def bodySites (Γ : Context) : List Stmt → List Site
  | [] => []
  | s :: rest => s.sites Γ ++ bodySites (s.extend Γ) rest

end

/-- The sites of an expression are its occurrences, in order. -/
theorem Expr.occurrence_sites (Γ : Context) (hidden : Option String) (e : Expr) :
    (e.sites Γ hidden).map Site.occurrence = e.occurrences := by
  rw [Expr.sites, List.map_map]
  exact List.map_id _

mutual

/-- The sites are the occurrences of a statement, in order. -/
theorem Stmt.occurrence_sites (Γ : Context) :
    ∀ s : Stmt, (s.sites Γ).map Site.occurrence = s.occurrences
  | .expression value | .print value | .ret _ value => by
    rw [Stmt.sites, Stmt.occurrences, value.occurrence_sites]
  | .var name initializer => by
    rw [Stmt.sites, Stmt.occurrences, initializer.occurrence_sites]
  | .block body => by
    rw [Stmt.sites, Stmt.occurrences, occurrence_bodySites _ body]
  | .branch condition thenBranch elseBranch => by
    rw [Stmt.sites, Stmt.occurrences, List.map_append, List.map_append,
      condition.occurrence_sites, thenBranch.occurrence_sites, elseBranch.occurrence_sites]
  | .loop condition body => by
    rw [Stmt.sites, Stmt.occurrences, List.map_append, condition.occurrence_sites,
      body.occurrence_sites]
  | .function name params body => by
    rw [Stmt.sites, Stmt.occurrences, occurrence_bodySites _ body]
  | .absent => rfl

/-- The same for a body. -/
theorem occurrence_bodySites (Γ : Context) :
    ∀ body : List Stmt, (bodySites Γ body).map Site.occurrence = bodyOccurrences body
  | [] => rfl
  | s :: rest => by
    rw [bodySites, bodyOccurrences, List.map_append, s.occurrence_sites,
      occurrence_bodySites _ rest]

end

/-- The assignments of a program to a variable inside its own initializer. -/
def selfAssignments (program : Program) : List OccurrenceId :=
  ((bodySites [] program).filter fun s => s.isOwn && !s.occurrence.reads).map (·.occurrence.id)

/-! ## Walking an expression -/

/-- Resolving one occurrence. -/
def Resolution.visit (r : Resolution) (o : Occurrence) : Resolution :=
  if o.reads then r.read o.id o.name else r.record o.id o.name

mutual

/-- Walking an expression visits its occurrences one by one. -/
theorem Expr.resolve_eq_foldl : ∀ (e : Expr) (r : Resolution),
    e.resolve r = e.occurrences.foldl Resolution.visit r
  | .literal _, r | .absent, r => by rw [Expr.resolve, Expr.occurrences, List.foldl_nil]
  | .group inner, r => by rw [Expr.resolve, Expr.occurrences, inner.resolve_eq_foldl]
  | .unary _ operand, r => by rw [Expr.resolve, Expr.occurrences, operand.resolve_eq_foldl]
  | .binary left _ right, r | .logical left _ right, r => by
    rw [Expr.resolve, Expr.occurrences, List.foldl_append, left.resolve_eq_foldl,
      right.resolve_eq_foldl]
  | .conditional condition thenBranch elseBranch, r => by
    rw [Expr.resolve, Expr.occurrences, List.foldl_append, List.foldl_append,
      condition.resolve_eq_foldl, thenBranch.resolve_eq_foldl, elseBranch.resolve_eq_foldl]
  | .var id name, r => by rw [Expr.resolve, Expr.occurrences]; rfl
  | .assign id name value, r => by
    rw [Expr.resolve, Expr.occurrences, List.foldl_append, value.resolve_eq_foldl]
    rfl
  | .call callee _ arguments, r => by
    rw [Expr.resolve, Expr.occurrences, List.foldl_append, callee.resolve_eq_foldl,
      resolveArguments_eq_foldl arguments]

/-- Resolving arguments is visiting their occurrences in order. -/
theorem resolveArguments_eq_foldl : ∀ (es : List Expr) (r : Resolution),
    resolveArguments es r = (argumentOccurrences es).foldl Resolution.visit r
  | [], r => by rw [resolveArguments, argumentOccurrences, List.foldl_nil]
  | e :: rest, r => by
    rw [resolveArguments, argumentOccurrences, List.foldl_append, e.resolve_eq_foldl,
      resolveArguments_eq_foldl rest]

end

/-! ## What the walk keeps of its scopes

Of a scope only the names and whether they are defined matter for addresses and
for reads; which variables were used does not. -/

/-- The names of a scope, each with whether its initializer has been passed. -/
def Scope.flags (scope : Scope) : List (String × Bool) :=
  scope.map fun b => (b.name.lexeme, b.defined)

/-- The names of the open scopes. -/
def Resolution.flags (r : Resolution) : List (List (String × Bool)) := r.scopes.map Scope.flags

/-- The context at which the walk stands. -/
def Resolution.names (r : Resolution) : Context := r.flags.map (·.map Prod.fst)

namespace Scope

/-- A slot is found by the names alone. -/
theorem slot?_eq (name : String) (scope : Scope) :
    slot? name scope = Context.slot? name (scope.flags.map Prod.fst) := by
  induction scope with
  | nil => rfl
  | cons b older ih =>
    have hlen : (Scope.flags older).length = older.length := List.length_map _
    show (if b.name.lexeme == name then some older.length else slot? name older)
      = if b.name.lexeme == name then some ((Scope.flags older).map Prod.fst).length
        else Context.slot? name ((Scope.flags older).map Prod.fst)
    rw [List.length_map, hlen, ih]

/-- An address is found by the names alone. -/
theorem locate_eq (name : String) (scopes : List Scope) :
    locate name scopes = Context.locate name ((scopes.map flags).map (·.map Prod.fst)) := by
  induction scopes with
  | nil => rfl
  | cons scope outer ih =>
    show (match slot? name scope with
      | some slot => some (Address.mk 0 slot)
      | none => (locate name outer).map Address.outward) = _
    rw [slot?_eq, ih]
    rfl

/-- A change that keeps a name and its flag keeps the flags. -/
theorem flags_update (name : String) {f : Binding → Binding}
    (h : ∀ b, ((f b).name.lexeme, (f b).defined) = (b.name.lexeme, b.defined)) (scope : Scope) :
    flags (update name f scope) = scope.flags := by
  induction scope with
  | nil => rfl
  | cons b older ih =>
    rw [update]
    split
    · show ((f b).name.lexeme, (f b).defined) :: flags older = _
      rw [h b]
      rfl
    · show (b.name.lexeme, b.defined) :: flags (update name f older) = _
      rw [ih]
      rfl

/-- Marking a variable as used declares nothing and defines nothing. -/
theorem flags_markUsed (name : String) (scopes : List Scope) :
    (markUsed name scopes).map flags = scopes.map flags := by
  induction scopes with
  | nil => rfl
  | cons scope outer ih =>
    rw [markUsed]
    split
    · have same := flags_update name (f := ({ · with used := true })) (fun b => rfl) scope
      rw [List.map_cons, List.map_cons, same]
    · rw [List.map_cons, List.map_cons, ih]

/-- Whether the latest declaration of a name is not defined yet. -/
theorem any_find?_eq (name : String) (scope : Scope) :
    (find? scope name).any (!·.defined) = (scope.flags.find? (·.1 == name)).any (!·.2) := by
  induction scope with
  | nil => rfl
  | cons b older ih =>
    show (List.find? (·.name.lexeme == name) (b :: older)).any (!·.defined)
      = (List.find? (·.1 == name) ((b.name.lexeme, b.defined) :: flags older)).any (!·.2)
    rw [List.find?_cons, List.find?_cons]
    cases hname : b.name.lexeme == name with
    | true => rfl
    | false => exact ih

end Scope

namespace Resolution

/-- The reports of a walk that are static. -/
def IsClean (r : Resolution) : Prop := ∀ report ∈ r.reports, report.isStatic = false

/-- A walk that is clean was so before. -/
theorem IsClean.of_suffix {r r' : Resolution} (h : r'.IsClean) (hs : r.reports <:+ r'.reports) :
    r.IsClean :=
  fun report hr => h report (hs.subset hr)

theorem flags_record (r : Resolution) (id : OccurrenceId) (name : Token) :
    (r.record id name).flags = r.flags := by
  unfold record
  split <;> rfl

/-- An occurrence is filed under the address that its name has. -/
theorem entries_record (r : Resolution) (id : OccurrenceId) (name : Token) :
    (r.record id name).entries
      = ((r.names.locate name.lexeme).map fun a => (id, a)).toList ++ r.entries := by
  unfold record
  rw [Scope.locate_eq]
  split
  · next address found =>
    rw [show r.names.locate name.lexeme = some address from found]
    rfl
  · next found =>
    rw [show r.names.locate name.lexeme = none from found]
    rfl

theorem reports_record (r : Resolution) (id : OccurrenceId) (name : Token) :
    (r.record id name).reports = r.reports := by
  unfold record
  split <;> rfl

theorem flags_read (r : Resolution) (id : OccurrenceId) (name : Token) :
    (r.read id name).flags = r.flags := by
  unfold read
  show (Scope.markUsed name.lexeme _).map Scope.flags = _
  rw [Scope.flags_markUsed]
  show (record id name _).flags = _
  rw [flags_record]
  split <;> rfl

/-- Reading a variable files it. -/
theorem entries_read (r : Resolution) (id : OccurrenceId) (name : Token) :
    (r.read id name).entries
      = ((r.names.locate name.lexeme).map fun a => (id, a)).toList ++ r.entries := by
  show (record id name _).entries = _
  rw [entries_record]
  split <;> rfl

/-- **Reading a variable in its own initializer is reported**, and nothing else is. -/
theorem reports_read (r : Resolution) (id : OccurrenceId) (name : Token) :
    (r.read id name).reports
      = if r.isBeingInitialized name then .scoping name.place .readInOwnInitializer :: r.reports
        else r.reports := by
  show (record id name _).reports = _
  rw [reports_record]
  split <;> rfl

theorem flags_visit (r : Resolution) (o : Occurrence) : (r.visit o).flags = r.flags := by
  unfold visit
  split
  · exact flags_read r o.id o.name
  · exact flags_record r o.id o.name

/-- **A visit adds the entry of the site.** -/
theorem entries_visit (r : Resolution) (o : Occurrence) (hidden : Option String) :
    (r.visit o).entries = (Site.entry? ⟨o, r.names, hidden⟩).toList ++ r.entries := by
  unfold visit
  split
  · exact entries_read r o.id o.name
  · exact entries_record r o.id o.name

/-- A visit reports what reading reports. -/
theorem reports_visit (r : Resolution) (o : Occurrence) :
    (r.visit o).reports
      = if o.reads && r.isBeingInitialized o.name then
          .scoping o.name.place .readInOwnInitializer :: r.reports
        else r.reports := by
  unfold visit
  cases o.reads with
  | true => exact reports_read r o.id o.name
  | false => exact reports_record r o.id o.name

/-- Whether a name is being initialized is seen by the flags of the innermost scope. -/
theorem isBeingInitialized_eq (r : Resolution) (name : Token) :
    r.isBeingInitialized name
      = r.flags.head?.any fun scope => (scope.find? (·.1 == name.lexeme)).any (!·.2) := by
  obtain ⟨scopes, entries, reports⟩ := r
  cases scopes with
  | nil => rfl
  | cons scope outer => exact Scope.any_find?_eq name.lexeme scope

end Resolution

/-- Visiting occurrences keeps the context and adds the entries of their sites;
it stays clean only if none of them reads a variable being initialized. -/
theorem foldl_visit (os : List Occurrence) (hidden : Option String) (r : Resolution) :
    (os.foldl Resolution.visit r).flags = r.flags ∧
      (os.foldl Resolution.visit r).entries
        = ((os.map (Site.mk · r.names hidden)).filterMap Site.entry?).reverse ++ r.entries ∧
      r.reports <:+ (os.foldl Resolution.visit r).reports ∧
      ((os.foldl Resolution.visit r).IsClean →
        ∀ o ∈ os, o.reads = true → r.isBeingInitialized o.name = false) := by
  induction os generalizing r with
  | nil => exact ⟨rfl, rfl, List.suffix_refl _, fun _ o ho => absurd ho List.not_mem_nil⟩
  | cons o rest ih =>
    obtain ⟨hflags, hentries, hreports, hclean⟩ := ih (r.visit o)
    have hnames : (r.visit o).names = r.names :=
      congrArg (List.map (List.map Prod.fst)) (r.flags_visit o)
    have first : r.reports <:+ (r.visit o).reports := by
      rw [Resolution.reports_visit]
      split
      · exact List.suffix_cons _ _
      · exact List.suffix_refl _
    refine ⟨hflags.trans (r.flags_visit o), ?_, first.trans hreports, fun clean o' ho' hreads => ?_⟩
    · rw [List.foldl_cons, hentries, hnames, r.entries_visit o hidden, List.map_cons,
        List.filterMap_cons]
      cases Site.entry? ⟨o, r.names, hidden⟩ <;> simp
    · rcases List.mem_cons.1 ho' with rfl | ho'
      · -- a read of a variable being initialized would have left a static report
        cases hinit : r.isBeingInitialized o'.name with
        | false => rfl
        | true =>
          have reported : Report.scoping o'.name.place .readInOwnInitializer
              ∈ (r.visit o').reports := by
            rw [Resolution.reports_visit, hreads, hinit]
            exact List.mem_cons_self
          have static := clean.of_suffix hreports _ reported
          rw [Report.isStatic] at static
          exact static
      · have later := hclean clean o' ho' hreads
        rwa [Resolution.isBeingInitialized_eq, r.flags_visit o,
          ← Resolution.isBeingInitialized_eq] at later

/-! ## Walking statements -/

namespace Context

/-- All names of a context, defined. -/
def defined (Γ : Context) : List (List (String × Bool)) := Γ.map (·.map (·, true))

/-- The names of a context and a further one, which is not defined yet. -/
def pending (name : String) : Context → List (List (String × Bool))
  | [] => []
  | scope :: outer => ((name, false) :: scope.map (·, true)) :: defined outer

theorem names_defined (Γ : Context) : Γ.defined.map (·.map Prod.fst) = Γ := by
  rw [defined, List.map_map]
  refine (List.map_congr_left fun scope _ => ?_).trans (List.map_id Γ)
  show (scope.map (·, true)).map Prod.fst = scope
  rw [List.map_map]
  exact List.map_id scope

/-- While a variable is being declared, its name is there already. -/
theorem names_pending (name : String) (Γ : Context) :
    (Γ.pending name).map (·.map Prod.fst) = Γ.declare name := by
  cases Γ with
  | nil => rfl
  | cons scope outer =>
    have whole := names_defined (scope :: outer)
    rw [defined, List.map_cons, List.map_cons, List.cons_eq_cons] at whole
    show (name :: (scope.map (·, true)).map Prod.fst) :: (defined outer).map (·.map Prod.fst)
      = (name :: scope) :: outer
    rw [whole.1, names_defined]

/-- All defined: nothing is being initialized. -/
theorem find?_defined (scope : List String) (name : String) :
    ((scope.map (·, true)).find? (·.1 == name)).any (!·.2) = false := by
  induction scope with
  | nil => rfl
  | cons x older ih =>
    rw [List.map_cons, List.find?_cons]
    cases x == name with
    | true => rfl
    | false => exact ih

end Context

namespace Resolution

theorem names_of_flags {r : Resolution} {Γ : Context} (h : r.flags = Γ.defined) : r.names = Γ := by
  rw [names, h, Γ.names_defined]

/-- While a variable is being initialized, it alone may not be read. -/
theorem isBeingInitialized_of_pending {r : Resolution} {Γ : Context} {x : String}
    (h : r.flags = Γ.pending x) (name : Token) :
    r.isBeingInitialized name = (Γ.hidden x == some name.lexeme) := by
  rw [isBeingInitialized_eq, h]
  cases Γ with
  | nil => rfl
  | cons scope outer =>
    show ((((x, false) :: scope.map (·, true)).find? (·.1 == name.lexeme)).any (!·.2))
      = (some x == some name.lexeme)
    rw [List.find?_cons, Option.some_beq_some]
    cases x == name.lexeme with
    | true => rfl
    | false => exact Context.find?_defined scope name.lexeme

/-- Declaring a name puts it in front, not defined yet. -/
theorem flags_declare {r : Resolution} {Γ : Context} (h : r.flags = Γ.defined) (name : Token)
    (isFunction : Bool) : (r.declare name isFunction).flags = Γ.pending name.lexeme := by
  obtain ⟨scopes, entries, reports⟩ := r
  cases scopes with
  | nil =>
    cases Γ with
    | nil => rfl
    | cons scope outer => cases h
  | cons scope outer =>
    cases Γ with
    | nil => cases h
    | cons names outer' =>
      obtain ⟨hscope, houter⟩ := List.cons_eq_cons.1 h
      have shape : (((name.lexeme, false) :: Scope.flags scope) :: outer.map Scope.flags)
          = Context.pending name.lexeme (names :: outer') := by
        rw [hscope, houter]
        rfl
      unfold declare
      dsimp only
      split <;> exact shape

theorem entries_declare (r : Resolution) (name : Token) (isFunction : Bool) :
    (r.declare name isFunction).entries = r.entries := by
  unfold declare
  split
  · rfl
  · dsimp only
    split <;> rfl

/-- Declaring a name only adds reports. -/
theorem reports_declare (r : Resolution) (name : Token) (isFunction : Bool) :
    r.reports <:+ (r.declare name isFunction).reports := by
  unfold declare
  split
  · exact List.suffix_refl _
  · dsimp only
    split
    · exact List.suffix_cons _ _
    · exact List.suffix_refl _

/-- **Defining a name** makes everything defined again. -/
theorem flags_define {r : Resolution} {Γ : Context} {name : Token}
    (h : r.flags = Γ.pending name.lexeme) :
    (r.define name).flags = (Γ.declare name.lexeme).defined := by
  obtain ⟨scopes, entries, reports⟩ := r
  cases scopes with
  | nil =>
    cases Γ with
    | nil => rfl
    | cons scope outer => cases h
  | cons scope outer =>
    cases Γ with
    | nil => cases h
    | cons names outer' =>
      obtain ⟨hscope, houter⟩ := List.cons_eq_cons.1 h
      cases scope with
      | nil => cases hscope
      | cons b older =>
        obtain ⟨hb, hrest⟩ := List.cons_eq_cons.1 hscope
        have holder : Scope.flags older = names.map (·, true) := hrest
        have hname : b.name.lexeme = name.lexeme := congrArg Prod.fst hb
        show Scope.flags (if b.name.lexeme == name.lexeme then { b with defined := true } :: older
            else b :: Scope.update name.lexeme ({ · with defined := true }) older)
          :: outer.map Scope.flags = _
        rw [hname, if_pos BEq.rfl, houter]
        show ((b.name.lexeme, true) :: Scope.flags older) :: _ = _
        rw [hname, holder]
        rfl

theorem entries_define (r : Resolution) (name : Token) : (r.define name).entries = r.entries := by
  unfold define
  split <;> rfl

theorem reports_define (r : Resolution) (name : Token) : (r.define name).reports = r.reports := by
  unfold define
  split <;> rfl

/-- Leaving a scope leaves its names. -/
theorem flags_closeScope {r : Resolution} {scope : List String} {Γ : Context} (policy : Policy)
    (h : r.flags = Context.defined (scope :: Γ)) : (r.closeScope policy).flags = Γ.defined := by
  obtain ⟨scopes, entries, reports⟩ := r
  cases scopes with
  | nil => cases h
  | cons _ outer => exact (List.cons_eq_cons.1 h).2

theorem entries_closeScope (r : Resolution) (policy : Policy) :
    (r.closeScope policy).entries = r.entries := by
  unfold closeScope
  split <;> rfl

/-- Leaving a scope only adds reports. -/
theorem reports_closeScope (r : Resolution) (policy : Policy) :
    r.reports <:+ (r.closeScope policy).reports := by
  unfold closeScope
  split
  · exact List.suffix_refl _
  · exact List.suffix_append _ _

/-- Declaring a name that is defined at once. -/
theorem declare_define {r : Resolution} {Γ : Context} (h : r.flags = Γ.defined) (name : Token)
    (isFunction : Bool) :
    ((r.declare name isFunction).define name).flags = (Γ.declare name.lexeme).defined ∧
      ((r.declare name isFunction).define name).entries = r.entries ∧
      r.reports <:+ ((r.declare name isFunction).define name).reports :=
  ⟨flags_define (flags_declare h name isFunction),
    (entries_define _ name).trans (entries_declare r name isFunction),
    (reports_define (r.declare name isFunction) name).symm ▸ reports_declare r name isFunction⟩

/-- Declaring parameters one by one: in the end all are there, the last one first. -/
theorem declareParameters_spec (params : List Token) {r : Resolution} {scope : List String}
    {Γ : Context} (h : r.flags = Context.defined (scope :: Γ)) :
    (r.declareParameters params).flags
        = Context.defined (((params.map Token.lexeme).reverse ++ scope) :: Γ) ∧
      (r.declareParameters params).entries = r.entries ∧
      r.reports <:+ (r.declareParameters params).reports := by
  induction params generalizing r scope with
  | nil => exact ⟨h, rfl, List.suffix_refl _⟩
  | cons p rest ih =>
    obtain ⟨hflags, hentries, hreports⟩ := declare_define h p false
    obtain ⟨hflags', hentries', hreports'⟩ := ih hflags
    refine ⟨hflags'.trans ?_, hentries'.trans hentries, hreports.trans hreports'⟩
    rw [List.map_cons, List.reverse_cons, List.append_assoc]
    rfl

end Resolution

/-- **What a walk over sites does**: it ends with all names of the context
defined, adds the entries of the sites, and stays clean only if no site reads a
variable in its own initializer. -/
structure Walked (Γ : Context) (sites : List Site) (r r' : Resolution) : Prop where
  flags : r'.flags = Γ.defined
  entries : r'.entries = (sites.filterMap Site.entry?).reverse ++ r.entries
  reports : r.reports <:+ r'.reports
  visible : r'.IsClean → ∀ s ∈ sites, s.occurrence.reads = true → s.isOwn = false

namespace Walked

theorem refl {Γ : Context} {r : Resolution} (h : r.flags = Γ.defined) : Walked Γ [] r r :=
  ⟨h, rfl, List.suffix_refl _, fun _ _ hs => absurd hs List.not_mem_nil⟩

/-- Walking twice is walking over all sites. -/
theorem trans {Γ Γ' : Context} {sites sites' : List Site} {r r' r'' : Resolution}
    (h : Walked Γ sites r r') (h' : Walked Γ' sites' r' r'') :
    Walked Γ' (sites ++ sites') r r'' where
  flags := h'.flags
  entries := by
    rw [h'.entries, h.entries, List.filterMap_append, List.reverse_append, List.append_assoc]
  reports := h.reports.trans h'.reports
  visible clean s hs hreads := by
    rcases List.mem_append.1 hs with hs | hs
    · exact h.visible (clean.of_suffix h'.reports) s hs hreads
    · exact h'.visible clean s hs hreads

/-- A walk between steps that only change the open scopes and add reports. -/
theorem between {Γ Γ' : Context} {sites : List Site} {r r₁ r₂ r' : Resolution}
    (h : Walked Γ sites r₁ r₂) (hentries : r₁.entries = r.entries)
    (hreports : r.reports <:+ r₁.reports) (hflags' : r'.flags = Γ'.defined)
    (hentries' : r'.entries = r₂.entries) (hreports' : r₂.reports <:+ r'.reports) :
    Walked Γ' sites r r' where
  flags := hflags'
  entries := by rw [hentries', h.entries, hentries]
  reports := (hreports.trans h.reports).trans hreports'
  visible clean := h.visible (clean.of_suffix hreports')

end Walked

/-- **Resolving an expression is a walk** over its sites. -/
theorem Expr.resolve_walked (e : Expr) {Γ : Context} {r : Resolution} (h : r.flags = Γ.defined) :
    Walked Γ (e.sites Γ none) r (e.resolve r) := by
  obtain ⟨hflags, hentries, hreports, -⟩ := foldl_visit e.occurrences none r
  rw [← e.resolve_eq_foldl] at hflags hentries hreports
  rw [Resolution.names_of_flags h] at hentries
  refine ⟨hflags.trans h, hentries, hreports, fun _ s hs _ => ?_⟩
  obtain ⟨o, -, rfl⟩ := List.mem_map.1 hs
  rfl

/-- Walking a variable declaration. -/
theorem Stmt.resolve_var_walked (name : Token) (e : Expr) {Γ : Context} {r : Resolution}
    (h : r.flags = Γ.defined) :
    Walked (Γ.declare name.lexeme) (e.sites (Γ.declare name.lexeme) (Γ.hidden name.lexeme)) r
      ((e.resolve (r.declare name false)).define name) := by
  have hpending := Resolution.flags_declare h name false
  have hnames : (r.declare name false).names = Γ.declare name.lexeme := by
    rw [Resolution.names, hpending, Γ.names_pending]
  obtain ⟨hflags, hentries, hreports, hclean⟩ :=
    foldl_visit e.occurrences (Γ.hidden name.lexeme) (r.declare name false)
  rw [← e.resolve_eq_foldl] at hflags hentries hreports hclean
  rw [hnames, r.entries_declare] at hentries
  refine ⟨Resolution.flags_define (hflags.trans hpending), ?_, ?_, fun clean s hs hreads => ?_⟩
  · rw [Resolution.entries_define, hentries]
    rfl
  · rw [Resolution.reports_define]
    exact (r.reports_declare name false).trans hreports
  · obtain ⟨o, ho, rfl⟩ := List.mem_map.1 hs
    have unread := hclean (clean.of_suffix (Resolution.reports_define _ name ▸ List.suffix_refl _))
      o ho hreads
    rwa [Resolution.isBeingInitialized_of_pending hpending] at unread

mutual

/-- **Resolving a statement is a walk** over its sites. -/
theorem Stmt.resolve_walked (policy : Policy) (inFunction : Bool) (Γ : Context) :
    ∀ (s : Stmt) (r : Resolution), r.flags = Γ.defined →
      Walked (s.extend Γ) (s.sites Γ) r (s.resolve policy inFunction r)
  | .expression value, r, h | .print value, r, h => by
    rw [Stmt.resolve]
    exact value.resolve_walked h
  | .var name initializer, r, h => by
    rw [Stmt.resolve]
    exact Stmt.resolve_var_walked name initializer h
  | .block body, r, h => by
    rw [Stmt.resolve]
    obtain ⟨scope, walked⟩ := resolveBody_walked policy inFunction Γ body []
      r.openScope (congrArg ([] :: ·) h)
    exact walked.between rfl (List.suffix_refl _) (Resolution.flags_closeScope policy walked.flags)
      (Resolution.entries_closeScope _ policy) (Resolution.reports_closeScope _ policy)
  | .branch condition thenBranch elseBranch, r, h => by
    rw [Stmt.resolve]
    have first := condition.resolve_walked h
    have second := thenBranch.resolve_walked policy inFunction Γ _ first.flags
    exact first.trans (second.trans
      (elseBranch.resolve_walked policy inFunction _ _ second.flags))
  | .loop condition body, r, h => by
    rw [Stmt.resolve]
    have first := condition.resolve_walked h
    exact first.trans (body.resolve_walked policy inFunction Γ _ first.flags)
  | .function name params body, r, h => by
    rw [Stmt.resolve]
    -- The name is defined before the body is walked, so the body may call it.
    obtain ⟨hflags, hentries, hreports⟩ := Resolution.declare_define h name true
    have opened : ((r.declare name true).define name).openScope.flags
        = Context.defined ([] :: Γ.declare name.lexeme) := congrArg ([] :: ·) hflags
    obtain ⟨hflags', hentries', hreports'⟩ := Resolution.declareParameters_spec params opened
    rw [List.append_nil] at hflags'
    obtain ⟨scope, walked⟩ := resolveBody_walked policy true _ body _ _ hflags'
    exact walked.between (hentries'.trans hentries) (hreports.trans hreports')
      (Resolution.flags_closeScope policy walked.flags)
      (Resolution.entries_closeScope _ policy) (Resolution.reports_closeScope _ policy)
  | .ret keyword value, r, h => by
    rw [Stmt.resolve]
    split
    · exact value.resolve_walked h
    · -- Outside a function the `return` is reported, and its value is walked all the same.
      refine (value.resolve_walked (r := r.report _) h).between rfl (List.suffix_cons _ _)
        ?_ rfl (List.suffix_refl _)
      exact (value.resolve_walked (r := r.report _) h).flags
  | .absent, r, h => by
    rw [Stmt.resolve]
    exact .refl h

/-- A body inside a scope adds names to that scope only. -/
theorem resolveBody_walked (policy : Policy) (inFunction : Bool) (Γ : Context) :
    ∀ (body : List Stmt) (names : List String) (r : Resolution),
      r.flags = Context.defined (names :: Γ) →
      ∃ scope, Walked (scope :: Γ) (bodySites (names :: Γ) body) r
        (resolveBody policy inFunction body r)
  | [], names, r, h => ⟨names, by rw [resolveBody]; exact .refl h⟩
  | s :: rest, names, r, h => by
    have first := s.resolve_walked policy inFunction (names :: Γ) r h
    obtain ⟨names', hext⟩ := s.exists_extend_cons names Γ
    rw [resolveBody, bodySites]
    rw [hext] at first ⊢
    obtain ⟨scope, others⟩ := resolveBody_walked policy inFunction Γ rest names' _ first.flags
    exact ⟨scope, first.trans others⟩

end

/-- Nothing is declared outside of all scopes, where variables are global. -/
theorem Stmt.extend_nil : ∀ s : Stmt, s.extend [] = []
  | .branch _ thenBranch elseBranch => by
    rw [Stmt.extend, thenBranch.extend_nil, elseBranch.extend_nil]
  | .loop _ body => body.extend_nil
  | .var _ _ | .function _ _ _ | .expression _ | .print _ | .block _ | .ret _ _ | .absent => rfl

/-- Walking the statements of a program in the global scope. -/
theorem resolveBody_walked_global (policy : Policy) (program : Program) {r : Resolution}
    (h : r.flags = []) :
    Walked [] (bodySites [] program) r (resolveBody policy false program r) := by
  induction program generalizing r with
  | nil =>
    rw [resolveBody]
    exact .refl h
  | cons s rest ih =>
    have first := s.resolve_walked policy false [] r h
    rw [resolveBody, bodySites]
    rw [s.extend_nil] at first ⊢
    exact first.trans (ih first.flags)

/-- **The addresses of a program are those of its sites**, in order. -/
theorem resolve_entries (policy : Policy) (program : Program) :
    (resolve policy program).entries = (bodySites [] program).filterMap Site.entry? := by
  have walked := resolveBody_walked_global policy program (r := {}) rfl
  show (resolveBody policy false program {}).entries.reverse = _
  rw [walked.entries, List.append_nil, List.reverse_reverse]

/-- **A program that is accepted reads no variable in its own initializer.** -/
theorem resolve_reads_visible (policy : Policy) (program : Program)
    (accepted : ∀ report ∈ (resolve policy program).reports, report.isStatic = false) {s : Site}
    (hs : s ∈ bodySites [] program) (hreads : s.occurrence.reads = true) : s.isOwn = false := by
  have walked := resolveBody_walked_global policy program (r := {}) rfl
  refine walked.visible (fun report hr => accepted report ?_) s hs hreads
  exact List.mem_reverse.2 hr

end Kix
