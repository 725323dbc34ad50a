import Kix.Proofs.LexicalAddressing
import Kix.Proofs.ScopingRules

/-!
# Unused variables

A variable counts as unused if no occurrence reads it: no address in the table, taken where a
read stands, denotes its declaration (`Outline.IsRead`). That an occurrence assigns it does not
help.

Unless the policy is to say nothing, resolving reports just these variables, each scope at the
stop that leaves it (`unused_means_never_read`). It goes by a mark that it sets on the way
through the scope, and never looks into the table. The two agree because a read marks what its
name is bound to, and this is what its address denotes (`mem_reads_iff_isRead`).
-/

namespace Kix

/-- The report about an unused variable, where one is made. -/
def UnusedPolicy.report (policy : UnusedPolicy) (place : Place) : Report :=
  if policy = .error then .scoping place .unusedVariable else .warning place .unusedVariable

namespace Outline

variable (root : Outline)

/-- **A declaration is read**: it is denoted by the address of an occurrence that reads. -/
def IsRead (table : AddressTable) (d : Path) : Prop :=
  ∃ path o initialized a, root.part? path = some (.occurrence o initialized) ∧ o.reads = true ∧
    table[o.id]? = some a ∧ root.denoted? path a = some d

/-- **The declarations of a scope that count as unused**, in order: nothing reads them, and they
are not functions, unless functions count too. -/
structure Unread (table : AddressTable) (checkFunctions : Bool) (scope : Path)
    (unread : List (Path × Declaration)) : Prop where
  ordered : (unread.map Prod.fst).Pairwise Path.Before
  mem_iff : ∀ d declared, (d, declared) ∈ unread ↔
    (∃ i, d = i :: scope) ∧ root.part? d = some (.declaration declared) ∧
      (declared.isFunction = true → checkFunctions = true) ∧ ¬ root.IsRead table d

/-- What the walk takes for unused, if it is a declaration that nothing reads. -/
def unread? (checkFunctions : Bool) (d : Path) : Option (Path × Declaration) :=
  (root.declaration? d).bind fun declared =>
    if root.reads.contains d || (declared.isFunction && !checkFunctions) then none
    else some (d, declared)

variable {root} {policy : Policy} {scope d : Path}

/-- The declarations of a scope are its parts that are declarations. -/
theorem mem_declarations :
    d ∈ root.declarations scope ↔ (∃ i, d = i :: scope) ∧ (root.declaration? d).isSome := by
  rw [declarations, mem_declarationsBefore]
  refine and_congr_left fun h => exists_congr fun j => ?_
  constructor
  · exact And.right
  · rintro rfl
    obtain ⟨declared, found⟩ := Option.isSome_iff_exists.1 h
    obtain ⟨parts, hscope, found⟩ := exists_scope_of_part? (declaration?_eq_some_iff.1 found)
    rw [hscope]
    exact ⟨(List.getElem?_eq_some_iff.1 found).1, rfl⟩

/-- **What is unread** is a declaration that nothing reads, and no function unless those
count. -/
theorem unread?_eq_some_iff {checkFunctions : Bool} {b : Path × Declaration} :
    root.unread? checkFunctions d = some b ↔
      b.1 = d ∧ root.part? d = some (.declaration b.2) ∧ d ∉ root.reads ∧
        (b.2.isFunction = true → checkFunctions = true) := by
  rw [unread?, Option.bind_eq_some_iff]
  constructor
  · rintro ⟨declared, found, h⟩
    split at h
    · nomatch h
    · next unread =>
      cases h
      exact ⟨rfl, declaration?_eq_some_iff.1 found, by simpa using unread⟩
  · obtain ⟨d', declared⟩ := b
    rintro ⟨rfl, found, unread⟩
    exact ⟨declared, declaration?_eq_some_iff.2 found, if_neg (by simpa using unread)⟩

/-- Whoever wants reports gets one for each declaration that is unused. -/
theorem unused?_eq (wanted : policy.unused ≠ .off) :
    root.unused? policy d
      = (root.unread? policy.checkFunctions d).map fun b =>
        policy.unused.report b.2.name.place := by
  cases found : root.declaration? d with
  | none => rw [unused?, unread?, binding?, found]; rfl
  | some declared =>
    rw [unused?, binding?_of_declaration? found, unread?, found, Option.bind_some,
      Option.bind_some, List.contains_eq_mem]
    unfold Resolution.unusedReport? UnusedPolicy.report
    dsimp only
    split
    · rfl
    · cases chosen : policy.unused with
      | off => exact absurd chosen wanted
      | warn | error => rfl

/-- **What is reported when a scope is left**: its unread declarations, in order. -/
theorem reportsAt_leaves (wanted : policy.unused ≠ .off) :
    root.reportsAt policy (.leaves scope)
      = ((root.declarations scope).filterMap (root.unread? policy.checkFunctions)).map fun b =>
        policy.unused.report b.2.name.place := by
  rw [List.map_filterMap]
  exact congrFun (congrArg List.filterMap (funext fun d => unused?_eq wanted)) _

/-- **Reads mark what their addresses denote.** -/
theorem mem_reads_iff_isRead (policy : Policy) {program : Program}
    (distinct : (identities program).Nodup) :
    d ∈ (bodyOutline program).reads ↔
      (bodyOutline program).IsRead (resolve policy program).table d := by
  constructor
  · intro h
    obtain ⟨⟨path, o⟩, node, hread⟩ := List.mem_filterMap.1 h
    rw [read?] at hread
    split at hread
    · next reads =>
      obtain ⟨initialized, found⟩ := mem_occurrences_iff.1 node
      refine ⟨path, o, initialized, (bodyOutline program).addressFrom path d, found, reads, ?_,
        denoted?_of_bound? hread⟩
      rw [getElem?_table policy distinct node, hread, Option.map_some]
    · cases hread
  · rintro ⟨path, o, initialized, a, found, reads, address, denoted⟩
    have node := mem_occurrences_iff.2 ⟨initialized, found⟩
    rw [getElem?_table policy distinct node] at address
    obtain ⟨d', bound, rfl⟩ := Option.map_eq_some_iff.1 address
    rw [denoted?_of_bound? bound] at denoted
    cases denoted
    exact List.mem_filterMap.2 ⟨(path, o), node, by rw [read?, if_pos reads]; exact bound⟩

/-- What is taken for unused at the end of a scope is what is unused in it. -/
theorem unread_filterMap_unread? (policy : Policy) {program : Program}
    (distinct : (identities program).Nodup) (checkFunctions : Bool) (scope : Path) :
    (bodyOutline program).Unread (resolve policy program).table checkFunctions scope
      (((bodyOutline program).declarations scope).filterMap
        ((bodyOutline program).unread? checkFunctions)) where
  ordered := by
    rw [List.pairwise_map, List.pairwise_filterMap]
    refine pairwise_declarationsBefore.imp fun before b hb b' hb' => ?_
    rw [(unread?_eq_some_iff.1 hb).1, (unread?_eq_some_iff.1 hb').1]
    exact before
  mem_iff d declared := by
    rw [List.mem_filterMap, ← mem_reads_iff_isRead policy distinct]
    constructor
    · rintro ⟨d', mem, unread⟩
      obtain ⟨same, found, unread, isFunction⟩ := unread?_eq_some_iff.1 unread
      obtain rfl : d = d' := same
      exact ⟨(mem_declarations.1 mem).1, found, isFunction, unread⟩
    · rintro ⟨inside, found, isFunction, unread⟩
      refine ⟨d, mem_declarations.2 ⟨inside, ?_⟩,
        unread?_eq_some_iff.2 ⟨rfl, found, unread, isFunction⟩⟩
      rw [declaration?_eq_some_iff.2 found]
      rfl

/-- The other rules have other messages. -/
theorem Breaks.text_ne {path : Path} {token : Token} {text : String}
    (h : root.Breaks path token text) : text ≠ "Variable defined but not used." := by
  cases h <;> decide

theorem message_of_mem_violation? {path : Path} {report : Report}
    (h : report ∈ (root.violation? path).toList) :
    report.message ≠ "Variable defined but not used." := by
  obtain ⟨token, problem, breaks, rfl⟩ := breaks_of_violation? (Option.mem_toList.1 h)
  exact breaks.text_ne

end Outline

theorem UnusedPolicy.message_report (policy : UnusedPolicy) (place : Place) :
    (policy.report place).message = "Variable defined but not used." := by
  unfold UnusedPolicy.report
  split <;> rfl

/-- **Unused means never read.** Suppose that the occurrences of a program have different
identities, and that unused variables are to be reported. The reports are made at the stops on
the way through the program. At a part that is passed, none of them is about an unused
variable. Behind a scope that is left, there is one report for each of its declarations that no
read in the whole program leads to, in the order of the declarations, and no other. -/
theorem unused_means_never_read (policy : Policy) (program : Program)
    (distinct : (identities program).Nodup) (wanted : policy.unused ≠ .off) :
    ∃ (stops : List Stop) (reportsAt : Stop → List Report),
      (resolve policy program).reports = stops.flatMap reportsAt ∧
      (stops.Nodup ∧ stops.Pairwise Stop.Precedes ∧
        ∀ s, s ∈ stops ↔ s.IsIn (bodyOutline program)) ∧
      (∀ path, ∀ report ∈ reportsAt (.passes path),
        report.message ≠ "Variable defined but not used.") ∧
      (∀ place, (policy.unused.report place).message = "Variable defined but not used.") ∧
      ∀ scope, ∃ unread, (bodyOutline program).Unread (resolve policy program).table
          policy.checkFunctions scope unread ∧
        reportsAt (.leaves scope)
          = unread.map fun b => policy.unused.report b.2.name.place := by
  exact ⟨(bodyOutline program).stops, (bodyOutline program).reportsAt policy,
    reports_resolve policy program,
    ⟨(bodyOutline program).nodup_stops, (bodyOutline program).pairwise_stops,
      fun s => Outline.mem_stops_iff⟩,
    fun path report h => Outline.message_of_mem_violation? h, policy.unused.message_report,
    fun scope => ⟨_, Outline.unread_filterMap_unread? policy distinct _ scope,
      Outline.reportsAt_leaves wanted⟩⟩

/-- Of two parameters of one name the first one is unused: a read leads to the second one. -/
theorem unused_means_never_read_shadowed_parameter :
    (identities shadowedParameter).Nodup ∧ ({} : Policy).unused ≠ .off ∧
    ∃ (stops : List Stop) (reportsAt : Stop → List Report) (unread : List (Path × Declaration)),
      [Report.scoping ⟨1, some "x"⟩ .alreadyDeclared, .warning ⟨1, some "x"⟩ .unusedVariable]
        = stops.flatMap reportsAt ∧
      (bodyOutline shadowedParameter).Unread (resolve {} shadowedParameter).table false [1]
        unread ∧
      reportsAt (.leaves [1]) = unread.map fun b => .warning b.2.name.place .unusedVariable := by
  have distinct : (identities shadowedParameter).Nodup := by decide
  have wanted : ({} : Policy).unused ≠ .off := by decide
  obtain ⟨stops, reportsAt, reports, -, -, -, left⟩ :=
    unused_means_never_read {} shadowedParameter distinct wanted
  obtain ⟨unread, isUnread, reportsLeft⟩ := left [1]
  exact ⟨distinct, wanted, stops, reportsAt, unread, reports, isUnread, reportsLeft⟩

end Kix
