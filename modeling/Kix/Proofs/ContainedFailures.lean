import Kix.Proofs.RelabeledReading

/-!
# Failures that stay within one statement

A **simple** statement is written without braces and without `for`, and no word in it but
its first begins a statement. While one is read no semicolon is passed but its own, so a
failure is reported in front of that semicolon or at it (`Grammar.attempt_outcome`). What is
skipped then ends with it (`Cursor.resume_simple`).

The statements that follow are therefore read as if they stood alone. They are numbered
after the names of the failed one, and their reports come after its own; exactly one of its
own is fatal (`parse_of_failed_statement`).
-/

namespace Kix

open Cursor (Passes Breaks)

/-- **The tokens of a simple statement**, without the semicolon that ends it. -/
structure IsSimple (ts : List Token) : Prop where
  kinds : ∀ t ∈ ts, t.kind ∉ [Kind.semicolon, .leftBrace, .rightBrace, .eof, .forWord]
  behind : ∀ t ∈ ts.tail, Cursor.beginsStatement t.kind = false

variable {s rest : List Token} {semicolon t : Token} {c c' : Cursor}

/-! ## Positions within a statement -/

namespace IsSimple

theorem ne_semicolon (h : IsSimple s) (mem : t ∈ s) : t.kind ≠ .semicolon :=
  fun same => h.kinds t mem (by simp [same])

theorem ne_leftBrace (h : IsSimple s) (mem : t ∈ s) : t.kind ≠ .leftBrace :=
  fun same => h.kinds t mem (by simp [same])

theorem ne_eof (h : IsSimple s) (mem : t ∈ s) : t.kind ≠ .eof :=
  fun same => h.kinds t mem (by simp [same])

theorem ne_forWord (h : IsSimple s) (mem : t ∈ s) : t.kind ≠ .forWord :=
  fun same => h.kinds t mem (by simp [same])

/-- Behind its first token a simple statement is simple, whatever the first one was. -/
theorem tail {v : List Token} (h : IsSimple (t :: s)) (suffix : v <:+ s) :
    IsSimple v ∧ ∀ t ∈ v, Cursor.beginsStatement t.kind = false where
  left := ⟨fun u mem => h.kinds u (List.mem_cons_of_mem t (suffix.mem mem)),
    fun u mem => h.behind u (suffix.mem (List.mem_of_mem_tail mem))⟩
  right u mem := h.behind u (suffix.mem mem)

/-- What is left of a simple statement is simple. -/
theorem suffix {v : List Token} (h : IsSimple s) (suffix : v <:+ s) : IsSimple v := by
  cases s with
  | nil => rwa [List.suffix_nil.1 suffix]
  | cons t s =>
    rcases List.suffix_cons_iff.1 suffix with rfl | inner
    · exact h
    · exact (h.tail inner).1

end IsSimple

/-- The tokens left after some were skipped, but no semicolon. -/
theorem exists_suffix_of_semicolons {l : List Token} (suffix : l <:+ s ++ semicolon :: rest)
    (sign : semicolon.kind = .semicolon)
    (semicolons : l.countP (·.kind == .semicolon)
      = (s ++ semicolon :: rest).countP (·.kind == .semicolon)) :
    ∃ v, v <:+ s ∧ l = v ++ semicolon :: rest := by
  rcases List.suffix_or_suffix_of_suffix suffix (List.suffix_append s (semicolon :: rest)) with
    short | ⟨v, rfl⟩
  · rcases List.suffix_cons_iff.1 short with rfl | inside
    · exact ⟨[], List.nil_suffix, rfl⟩
    · have fewer : l.countP (·.kind == .semicolon) ≤ rest.countP (·.kind == .semicolon) :=
        inside.sublist.countP_le
      rw [semicolons, List.countP_append, List.countP_cons_of_pos (by simp [sign])] at fewer
      omega
  · obtain ⟨w, split⟩ := suffix
    rw [← List.append_assoc] at split
    exact ⟨v, ⟨w, List.append_cancel_right split⟩, rfl⟩

/-- Passing from within a statement ends within it or at its semicolon. -/
theorem Cursor.Passes.within (h : c.Passes c') (start : c.rest = s ++ semicolon :: rest)
    (sign : semicolon.kind = .semicolon) : ∃ v, v <:+ s ∧ c'.rest = v ++ semicolon :: rest :=
  exists_suffix_of_semicolons (start ▸ h.rest) sign (h.semicolons.trans (by rw [start]))

/-- The next token after passing from within a statement. -/
theorem Cursor.Passes.next_cases (h : c.Passes (c'.push t))
    (start : c.rest = s ++ semicolon :: rest) (sign : semicolon.kind = .semicolon) :
    (∃ v, t :: v <:+ s ∧ c'.rest = v ++ semicolon :: rest) ∨ t = semicolon ∧ c'.rest = rest := by
  obtain ⟨v, suffix, split⟩ := h.within start sign
  cases v with
  | nil => exact .inr (List.cons.inj split)
  | cons u v =>
    obtain ⟨rfl, behind⟩ := List.cons.inj split
    exact .inl ⟨v, suffix, behind⟩

/-! ## Reading a simple statement -/

namespace Grammar

variable (eof : Token)

/-- A statement that begins with no word of its own is an expression. -/
theorem statement_eq_expressionStatement
    (begins : ∀ t ∈ c.rest.head?, Cursor.beginsStatement t.kind = false ∧ t.kind ≠ .leftBrace) :
    statement eof c = expressionStatement eof c := by
  rw [statement]
  rcases found : c.next? with _ | ⟨t, c₁, h₁⟩
  · rfl
  · obtain rfl := Cursor.eq_push_of_next? found
    obtain ⟨noWord, noBrace⟩ := begins t rfl
    dsimp only
    split
    case h_6 kind => exact absurd kind noBrace
    case h_7 => rfl
    all_goals
      next kind =>
        rw [kind] at noWord
        cases noWord

/-- **The body of a simple statement** is an expression, and is read up to the semicolon. -/
theorem statement_outcome (plain : IsSimple s)
    (begins : ∀ t ∈ s, Cursor.beginsStatement t.kind = false)
    (start : c.rest = s ++ semicolon :: rest) (sign : semicolon.kind = .semicolon) :
    (statement eof c).Spec (fun _ c' => c'.rest = rest) c.Breaks := by
  rw [statement_eq_expressionStatement]
  · refine .map (.mono (closedExpression_outcome eof c .expressionEnd) ?_ fun _ => id)
    rintro e c' ⟨t, sign', value⟩
    rcases value.passes.next_cases start sign with ⟨v, suffix, -⟩ | ⟨-, behind⟩
    · exact absurd sign' (plain.ne_semicolon (suffix.mem List.mem_cons_self))
    · exact behind
  · intro t first
    rw [start] at first
    cases s with
    | nil =>
      cases first
      simp [sign, Cursor.beginsStatement]
    | cons u s =>
      cases first
      exact ⟨begins _ List.mem_cons_self, plain.ne_leftBrace List.mem_cons_self⟩

/-- **An attempt at a declaration**, before what is done about its failure. -/
def attempt (c : Cursor) : Step c.size Stmt :=
  match c.take? (· == .funWord) with
  | some (_, ⟨c₁, h₁⟩) => (functionDeclaration eof c₁).within h₁
  | none =>
    match c.take? (· == .varWord) with
    | some (_, ⟨c₁, h₁⟩) => (variableDeclaration eof c₁).within h₁
    | none => statement eof c

/-- A declaration is an attempt, and resuming if it fails. -/
theorem declaration_eq_orResume (c : Cursor) (nonempty : c.rest ≠ []) :
    declaration eof c nonempty = c.orResume nonempty (attempt eof c) .absent := by
  rw [declaration]
  rfl

/-- The body of a function opens with a brace, which a simple statement does not have. -/
theorem functionDeclaration_outcome (plain : IsSimple s)
    (start : c.rest = s ++ semicolon :: rest) (sign : semicolon.kind = .semicolon) :
    (functionDeclaration eof c).Spec (fun _ _ => True) c.Breaks := by
  rw [functionDeclaration]
  refine (c.expect_outcome eof .functionName).andThen fun name c₁ h₁ found => ?_
  obtain ⟨rfl, sign₁⟩ := found
  have passed₁ : (c₁.push name).Passes c₁ := .push c₁ sign₁ (by decide)
  have paren := (c₁.expect_outcome eof .functionOpen).mono (fun _ _ => id)
    fun _ => Breaks.after passed₁
  refine (paren.within h₁).andThen fun opening c₂ h₂ found => ?_
  obtain ⟨rfl, sign₂⟩ := found
  have passed₂ := passed₁.past sign₂ (by decide)
  have list := (parameters_outcome eof c₂).mono (fun _ _ => id) fun _ => Breaks.after passed₂
  refine (list.within h₂).andThen fun params c₃ h₃ list => ?_
  have passed₃ := passed₂.trans list.passes
  have bodyOpen := (c₃.expect_outcome eof .bodyOpen).mono (fun _ _ => id)
    fun _ => Breaks.after passed₃
  refine (bodyOpen.within h₃).andThen fun brace c₄ h₄ found => ?_
  obtain ⟨rfl, sign₄⟩ := found
  rcases passed₃.next_cases start sign with ⟨v, suffix, -⟩ | ⟨rfl, -⟩
  · exact absurd sign₄ (plain.ne_leftBrace (suffix.mem List.mem_cons_self))
  · cases sign₄.symm.trans sign

/-- A `while` loop that fails breaks off inside of the simple statement. -/
theorem whileStatement_outcome (plain : IsSimple s)
    (begins : ∀ t ∈ s, Cursor.beginsStatement t.kind = false)
    (start : c.rest = s ++ semicolon :: rest) (sign : semicolon.kind = .semicolon) :
    (whileStatement eof c).Spec (fun _ _ => True) c.Breaks := by
  rw [whileStatement]
  refine (c.expect_outcome eof .whileOpen).andThen fun opening c₁ h₁ found => ?_
  obtain ⟨rfl, sign₁⟩ := found
  have passed₁ : (c₁.push opening).Passes c₁ := .push c₁ sign₁ (by decide)
  have condition := (closedExpression_outcome eof c₁ .whileClose).mono (fun _ _ => id)
    fun _ => Breaks.after passed₁
  refine (condition.within h₁).andThen fun e c₂ h₂ condition => ?_
  obtain ⟨closing, sign₂, condition⟩ := condition
  have passed₂ := passed₁.trans (condition.passes.past sign₂ (by decide))
  obtain ⟨v, suffix, start₂⟩ := passed₂.within start sign
  have body := statement_outcome eof (plain.suffix suffix) (fun t mem => begins t (suffix.mem mem))
    start₂ sign
  exact .map (.within (body.mono (fun _ _ _ => trivial) fun _ => Breaks.after passed₂) h₂)

/-- So does an `if` statement, since no `else` stands behind the semicolon. -/
theorem ifStatement_outcome (plain : IsSimple s)
    (begins : ∀ t ∈ s, Cursor.beginsStatement t.kind = false)
    (start : c.rest = s ++ semicolon :: rest) (sign : semicolon.kind = .semicolon)
    (noElse : ∀ t ∈ rest.head?, t.kind ≠ .elseWord) :
    (ifStatement eof c).Spec (fun _ _ => True) c.Breaks := by
  rw [ifStatement]
  refine (c.expect_outcome eof .ifOpen).andThen fun opening c₁ h₁ found => ?_
  obtain ⟨rfl, sign₁⟩ := found
  have passed₁ : (c₁.push opening).Passes c₁ := .push c₁ sign₁ (by decide)
  have condition := (closedExpression_outcome eof c₁ .ifClose).mono (fun _ _ => id)
    fun _ => Breaks.after passed₁
  refine (condition.within h₁).andThen fun e c₂ h₂ condition => ?_
  obtain ⟨closing, sign₂, condition⟩ := condition
  have passed₂ := passed₁.trans (condition.passes.past sign₂ (by decide))
  obtain ⟨v, suffix, start₂⟩ := passed₂.within start sign
  have body := statement_outcome eof (plain.suffix suffix) (fun t mem => begins t (suffix.mem mem))
    start₂ sign
  refine ((body.mono (fun _ _ => id) fun _ => Breaks.after passed₂).within h₂).andThen
    fun thenBranch c₃ h₃ behind => ?_
  -- The branch ended with the semicolon, so an `else` would be the first token behind it.
  rcases take?_cases c₃ (· == .elseWord) with hnone | ⟨other, c₄, h₄, hsome, rfl, kind⟩
  · rw [hnone]
    trivial
  · exact absurd (eq_of_beq kind) (noElse other (behind ▸ rfl))

/-- **A failure in a simple statement** comes before its semicolon is passed. -/
theorem attempt_outcome (plain : IsSimple s) (start : c.rest = s ++ semicolon :: rest)
    (sign : semicolon.kind = .semicolon) (noElse : ∀ t ∈ rest.head?, t.kind ≠ .elseWord) :
    (attempt eof c).Spec (fun _ _ => True) c.Breaks := by
  -- The first word decides what is read, and what is behind it is simple.
  have first {word : Token} {c₁ : Cursor} {kind : Kind} (is : word.kind = kind)
      (other : kind ≠ .semicolon) (split : c = c₁.push word) :
      c.Passes c₁ ∧ ∃ s', s = word :: s' ∧ c₁.rest = s' ++ semicolon :: rest := by
    subst split
    refine ⟨.push c₁ is other, ?_⟩
    cases s with
    | nil =>
      obtain ⟨rfl, -⟩ := List.cons.inj start
      exact absurd (is.symm.trans sign) other
    | cons u s' =>
      obtain ⟨rfl, behind⟩ := List.cons.inj start
      exact ⟨s', rfl, behind⟩
  unfold attempt
  rcases take?_cases c (· == .funWord) with hnone | ⟨word, c₁, h₁, hsome, split, kind⟩
  · rw [hnone]
    dsimp only
    rcases take?_cases c (· == .varWord) with hnone | ⟨word, c₁, h₁, hsome, split, kind⟩
    · rw [hnone]
      dsimp only
      rw [statement]
      rcases found : c.next? with _ | ⟨word, c₁, h₁⟩
      · exact (expressionStatement_outcome eof c).mono (fun _ _ _ => trivial) fun _ => id
      · have split := Cursor.eq_push_of_next? found
        dsimp only
        split
        case h_1 kind =>
          obtain ⟨-, s', rfl, -⟩ := first kind (by decide) split
          exact absurd kind (plain.ne_forWord List.mem_cons_self)
        case h_2 kind =>
          obtain ⟨passed, s', rfl, start₁⟩ := first kind (by decide) split
          obtain ⟨plain, begins⟩ := plain.tail (List.suffix_refl s')
          exact ((ifStatement_outcome eof plain begins start₁ sign noElse).mono (fun _ _ => id)
            fun _ => Breaks.after passed).within h₁
        case h_3 kind =>
          obtain ⟨passed, -⟩ := first kind (by decide) split
          exact .map (.within ((closedExpression_outcome eof c₁ .printEnd).mono
            (fun _ _ _ => trivial) fun _ => Breaks.after passed) h₁)
        case h_4 kind =>
          obtain ⟨passed, -⟩ := first kind (by decide) split
          exact .map (.within ((optional_outcome eof c₁ .returnEnd).mono
            (fun _ _ _ => trivial) fun _ => Breaks.after passed) h₁)
        case h_5 kind =>
          obtain ⟨passed, s', rfl, start₁⟩ := first kind (by decide) split
          obtain ⟨plain, begins⟩ := plain.tail (List.suffix_refl s')
          exact ((whileStatement_outcome eof plain begins start₁ sign).mono (fun _ _ => id)
            fun _ => Breaks.after passed).within h₁
        case h_6 kind =>
          obtain ⟨-, s', rfl, -⟩ := first kind (by decide) split
          exact absurd kind (plain.ne_leftBrace List.mem_cons_self)
        case h_7 =>
          exact (expressionStatement_outcome eof c).mono (fun _ _ _ => trivial) fun _ => id
    · rw [hsome]
      obtain ⟨passed, -⟩ := first (eq_of_beq kind) (by decide) split
      exact ((variableDeclaration_outcome eof c₁).mono (fun _ _ _ => trivial)
        fun _ => Breaks.after passed).within h₁
  · rw [hsome]
    obtain ⟨passed, s', rfl, start₁⟩ := first (eq_of_beq kind) (by decide) split
    exact ((functionDeclaration_outcome eof (plain.tail (List.suffix_refl s')).1 start₁ sign).mono
      (fun _ _ => id) fun _ => Breaks.after passed).within h₁

end Grammar

/-! ## Skipping to the statement behind it -/

/-- **From within a simple statement**, what is skipped ends with its semicolon. -/
theorem Cursor.resume_simple (plain : IsSimple s) (sign : semicolon.kind = .semicolon) :
    Cursor.resume (s ++ semicolon :: rest) = rest := by
  induction s with
  | nil => simp [Cursor.resume, sign]
  | cons t s ih =>
    obtain ⟨tailPlain, begins⟩ := plain.tail (List.suffix_refl s)
    have goesOn : (s ++ semicolon :: rest).head?.any (Cursor.beginsStatement ·.kind) = false := by
      cases s with
      | nil => simp [sign, Cursor.beginsStatement]
      | cons u s => exact begins u List.mem_cons_self
    rw [List.cons_append, Cursor.resume, goesOn, Bool.or_false, if_neg, ih tailPlain]
    simp [plain.ne_semicolon List.mem_cons_self]

/-- A declaration that fails within a simple statement, and where reading goes on. -/
theorem Grammar.declaration_of_failed {eof : Token} (nonempty : c.rest ≠ []) {bounded}
    (plain : IsSimple s) (start : c.rest = s ++ semicolon :: rest)
    (sign : semicolon.kind = .semicolon) (broken : c.Breaks c')
    (failed : attempt eof c = .failed c' bounded) :
    (declaration eof c nonempty).1 = .absent
      ∧ (declaration eof c nonempty).2.1 = { c' with rest } := by
  obtain ⟨v, suffix, split⟩ := exists_suffix_of_semicolons (start ▸ broken.rest) sign
    (broken.semicolons.trans (by rw [start]))
  rw [declaration_eq_orResume, failed]
  refine ⟨rfl, ?_⟩
  show ({ c' with rest := Cursor.resume c'.rest } : Cursor) = _
  rw [split, Cursor.resume_simple (plain.suffix suffix) sign]

/-- **Reading on** after some names were numbered and some reports made. -/
theorem Grammar.declarations_later (eof : Token) (rest : List Token) (firstId shift : Nat)
    (older : List Report) :
    declarations eof ⟨rest, firstId + shift, older⟩
      = (relabelBody ({ amount := shift } : Shift) (declarations eof ⟨rest, firstId, []⟩).1,
        ⟨(declarations eof ⟨rest, firstId, []⟩).2.rest,
          (declarations eof ⟨rest, firstId, []⟩).2.nextId + shift,
          (declarations eof ⟨rest, firstId, []⟩).2.reports ++ older⟩) := by
  have shifted := declarations_relabel { amount := shift } older eof ⟨rest, firstId, []⟩
  have tokensKept : Token.relabel ({ amount := shift } : Shift) = id := rfl
  have reportsKept : Report.relabel ({ amount := shift } : Shift) = id :=
    funext (Report.relabel_of_line _ fun _ => rfl)
  unfold Cursor.relabel at shifted
  simp only [tokensKept, reportsKept, List.map_id] at shifted
  exact shifted

/-! ## Programs -/

/-- The cursor in front of a program. -/
def Cursor.start (ts : List Token) (firstId : Nat) : Cursor :=
  ⟨ts.takeWhile (·.kind != .eof), firstId, []⟩

/-- The end of the input is behind the simple statement. -/
theorem takeWhile_simple (plain : IsSimple s) (sign : semicolon.kind = .semicolon) :
    (s ++ semicolon :: rest).takeWhile (·.kind != .eof)
      = s ++ semicolon :: rest.takeWhile (·.kind != .eof) := by
  have all : ∀ t ∈ s, (t.kind != .eof) = true := fun t mem => bne_iff_ne.2 (plain.ne_eof mem)
  rw [List.takeWhile_append_of_pos all, List.takeWhile_cons_of_pos (by simp [sign])]

/-- It is the same without the simple statement. -/
theorem endToken_simple (plain : IsSimple s) (sign : semicolon.kind = .semicolon)
    (closed : ∃ t ∈ rest.getLast?, t.kind = .eof) :
    endToken (s ++ semicolon :: rest) = endToken rest := by
  have none : s.find? (·.kind == .eof) = none :=
    List.find?_eq_none.2 fun t mem => by simpa using plain.ne_eof mem
  have skipped : (s ++ semicolon :: rest).find? (·.kind == .eof)
      = rest.find? (·.kind == .eof) := by
    rw [List.find?_append, none, Option.none_or, List.find?_cons_of_neg (by simp [sign])]
  obtain ⟨last, mem, isEof⟩ := closed
  obtain ⟨t, found⟩ := exists_find?_eof ⟨last, List.mem_of_getLast? mem, isEof⟩
  rw [endToken, endToken, skipped, found]
  rfl

/-- **A syntax error in a simple statement is contained.** If the declaration at the
start of a program fails, within a simple statement, an absent statement stands for it, and
the rest is read as it is read alone: with its names numbered after those of the failed
statement, and its reports behind those of the failed statement, of which one is fatal. -/
theorem parse_of_failed_statement (simple : IsSimple s) (sign : semicolon.kind = .semicolon)
    (closed : ∃ t ∈ rest.getLast?, t.kind = .eof)
    (noElse : ∀ t ∈ rest.head?, t.kind ≠ .elseWord) (firstId : Nat) {bounded}
    (failed : Grammar.attempt (endToken (s ++ semicolon :: rest))
      (Cursor.start (s ++ semicolon :: rest) firstId) = .failed c bounded) :
    c.reports.countP Report.isFatal = 1 ∧ ∃ shift, c.nextId = firstId + shift ∧
      parse (s ++ semicolon :: rest) firstId
        = { program := .absent ::
              relabelBody ({ amount := shift } : Shift) (parse rest firstId).program
            nextId := (parse rest firstId).nextId + shift
            reports := c.reports.reverse ++ (parse rest firstId).reports } := by
  have start : (Cursor.start (s ++ semicolon :: rest) firstId).rest
      = s ++ semicolon :: rest.takeWhile (·.kind != .eof) := takeWhile_simple simple sign
  have noElse' : ∀ t ∈ (rest.takeWhile (·.kind != .eof)).head?, t.kind ≠ .elseWord := by
    intro t first
    refine noElse t ?_
    rw [← List.takeWhile_append_dropWhile (p := (·.kind != .eof)) (l := rest), List.head?_append,
      Option.mem_def.1 first]
    rfl
  have outcome := Grammar.attempt_outcome (endToken (s ++ semicolon :: rest)) simple start sign
    noElse'
  rw [failed] at outcome
  have broken : (Cursor.start (s ++ semicolon :: rest) firstId).Breaks c := outcome
  obtain ⟨shift, numbered⟩ := Nat.le.dest broken.nextId
  refine ⟨broken.fatal, shift, numbered.symm, ?_⟩
  have nonempty : (Cursor.start (s ++ semicolon :: rest) firstId).rest ≠ [] := by simp [start]
  obtain ⟨first, behind⟩ := Grammar.declaration_of_failed nonempty simple start sign broken
    failed
  have others := Grammar.declarations_later (endToken (s ++ semicolon :: rest))
    (rest.takeWhile (·.kind != .eof)) firstId shift c.reports
  rw [show firstId + shift = c.nextId from numbered] at others
  show Parse.mk (Grammar.declarations _ (Cursor.start (s ++ semicolon :: rest) firstId)).1
      (Grammar.declarations _ (Cursor.start (s ++ semicolon :: rest) firstId)).2.nextId
      (Grammar.declarations _ (Cursor.start (s ++ semicolon :: rest) firstId)).2.reports.reverse = _
  rw [Grammar.declarations_of_nonempty _ nonempty, first, behind, others,
    endToken_simple simple sign closed]
  dsimp only
  rw [List.reverse_append]
  rfl

/-- The tokens of `f(x) = 2 )`: an assignment to a call, and a parenthesis too many. -/
def strayParenthesis : List Token :=
  [.onLine 1 .identifier "f", .onLine 1 .leftParen "(", .onLine 1 .identifier "x",
    .onLine 1 .rightParen ")", .onLine 1 .equal "=", .onLine 1 .number "2",
    .onLine 1 .rightParen ")"]

/-- The tokens of `y; );`, on another line. -/
def strayParenthesisRest : List Token :=
  [.onLine 2 .identifier "y", .onLine 2 .semicolon ";", .onLine 2 .rightParen ")",
    .onLine 2 .semicolon ";", .endOfInput 2]

theorem parse_of_failed_statement_stray_parenthesis :
    let semicolon : Token := .onLine 1 .semicolon ";"
    let program := strayParenthesis ++ semicolon :: strayParenthesisRest
    IsSimple strayParenthesis ∧ semicolon.kind = .semicolon
      ∧ (∃ t ∈ strayParenthesisRest.getLast?, t.kind = .eof)
      ∧ (∀ t ∈ strayParenthesisRest.head?, t.kind ≠ .elseWord)
      ∧ ∃ c bounded, Grammar.attempt (endToken program) (Cursor.start program 0) = .failed c bounded
        ∧ c.nextId = 2 ∧ c.reports = [.syntactic ⟨1, some ")"⟩ (.expected .expressionEnd),
          .syntactic ⟨1, some "="⟩ .invalidAssignmentTarget]
        ∧ c.reports.countP Report.isFatal = 1 ∧ ∃ shift, c.nextId = 0 + shift ∧
          parse program 0
            = { program := .absent ::
                  relabelBody ({ amount := shift } : Shift) (parse strayParenthesisRest 0).program
                nextId := (parse strayParenthesisRest 0).nextId + shift
                reports := c.reports.reverse ++ (parse strayParenthesisRest 0).reports } := by
  intro semicolon program
  have simple : IsSimple strayParenthesis := ⟨by decide, by decide⟩
  have noElse : ∀ t ∈ strayParenthesisRest.head?, t.kind ≠ .elseWord := by
    rintro t ⟨⟩
    decide
  have failed : Grammar.attempt (endToken program) (Cursor.start program 0)
      = .failed ⟨program.takeWhile (·.kind != .eof) |>.drop 6, 2,
        [.syntactic ⟨1, some ")"⟩ (.expected .expressionEnd),
          .syntactic ⟨1, some "="⟩ .invalidAssignmentTarget]⟩ (by decide) := by
    cbv
  exact ⟨simple, rfl, ⟨_, rfl, rfl⟩, noElse, _, _, failed, rfl, rfl,
    parse_of_failed_statement simple rfl ⟨_, rfl, rfl⟩ noElse 0 failed⟩

end Kix
