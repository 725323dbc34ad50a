import Kix.Proofs.IndexedGrammar
import Kix.Proofs.StatementReading

/-!
# Cursors as positions

A cursor in front of the last tokens before a mark of the end stands for an index into all the
tokens (`Tape.position`). There a reader by index sees what the cursor sees, and moves as it
moves: `Tape.outcome_peek` to `Tape.outcome_checkCount` say what looking and moving give.

`Tape.Mirrors` relates the step of a reader over lists to a reader by index that ends with the
same result. It is carried through a whole reader by one lemma for each way in which readers
are put together.
-/

namespace Kix.Indexed

/-! ## Outcomes -/

section Outcomes

variable {α β : Type} {m : Reader α} {k : α → Reader β} {p p' : Position} {a : α}

/-- A reader that succeeds hands its result and its position on. -/
theorem outcome_bind_ok (h : outcome m p = some (.ok a, p')) :
    outcome (m >>= k) p = outcome (k a) p' := by
  show (outcome m p).bind _ = _
  rw [h]
  rfl

/-- A reader that fails ends the whole. -/
theorem outcome_bind_error (h : outcome m p = some (.error (), p')) :
    outcome (m >>= k) p = some (.error (), p') := by
  show (outcome m p).bind _ = _
  rw [h]
  rfl

/-- What succeeds is not caught. -/
theorem outcome_catch_ok {k : Unit → Reader α} (h : outcome m p = some (.ok a, p')) :
    outcome (tryCatch m k) p = some (.ok a, p') := by
  show (outcome m p).bind _ = _
  rw [h]
  rfl

/-- What fails is caught where it stands. -/
theorem outcome_catch_error {k : Unit → Reader α} (h : outcome m p = some (.error (), p')) :
    outcome (tryCatch m k) p = outcome (k ()) p' := by
  show (outcome m p).bind _ = _
  rw [h]
  rfl

end Outcomes

namespace Ends

variable {α β : Type} {reader : Nat → Reader α} {p p' : Position}

theorem of_outcome {m : Reader α} {result : Except Unit α × Position}
    (h : outcome m p = some result) : Ends (fun _ => m) p result :=
  ⟨0, fun _ _ => h⟩

/-- Ending one call deeper. -/
theorem deeper {result : Except Unit α × Position}
    (h : Ends (fun depth => reader (depth + 1)) p result) : Ends reader p result := by
  obtain ⟨depth, h⟩ := h
  refine ⟨depth + 1, fun deeper le => ?_⟩
  obtain ⟨deeper, rfl⟩ := Nat.exists_eq_add_of_le' (Nat.le_of_add_left_le le)
  exact h deeper (Nat.le_of_succ_le_succ le)

/-- Both readers end from some depth on, so together they end from the larger one on. -/
theorem bind_ok {k : Nat → α → Reader β} {a : α} {result : Except Unit β × Position}
    (first : Ends reader p (.ok a, p')) (second : Ends (fun depth => k depth a) p' result) :
    Ends (fun depth => reader depth >>= k depth) p result := by
  obtain ⟨depth, first⟩ := first
  obtain ⟨depth', second⟩ := second
  refine ⟨max depth depth', fun deeper le => ?_⟩
  rw [outcome_bind_ok (first deeper (Nat.le_trans (Nat.le_max_left _ _) le))]
  exact second deeper (Nat.le_trans (Nat.le_max_right _ _) le)

/-- A failure ends the whole at the same depth. -/
theorem bind_error {k : Nat → α → Reader β} (first : Ends reader p (.error (), p')) :
    Ends (fun depth => reader depth >>= k depth) p (.error (), p') := by
  obtain ⟨depth, first⟩ := first
  exact ⟨depth, fun deeper le => outcome_bind_error (first deeper le)⟩

theorem catch_ok {k : Nat → Unit → Reader α} {a : α} (first : Ends reader p (.ok a, p')) :
    Ends (fun depth => tryCatch (reader depth) (k depth)) p (.ok a, p') := by
  obtain ⟨depth, first⟩ := first
  exact ⟨depth, fun deeper le => outcome_catch_ok (first deeper le)⟩

/-- What is caught ends from some depth on if the handler does. -/
theorem catch_error {k : Nat → Unit → Reader α} {result : Except Unit α × Position}
    (first : Ends reader p (.error (), p')) (second : Ends (fun depth => k depth ()) p' result) :
    Ends (fun depth => tryCatch (reader depth) (k depth)) p result := by
  obtain ⟨depth, first⟩ := first
  obtain ⟨depth', second⟩ := second
  refine ⟨max depth depth', fun deeper le => ?_⟩
  rw [outcome_catch_error (first deeper (Nat.le_trans (Nat.le_max_left _ _) le))]
  exact second deeper (Nat.le_trans (Nat.le_max_right _ _) le)

end Ends

/-! ## Cursors as positions -/

/-- **A list of tokens around a mark of the end**: the tokens in front of the mark, none of
which is one, with others before and after them. -/
structure Tape where
  before : List Token
  body : List Token
  eof : Token
  after : List Token
  inside : ∀ t ∈ body, t.kind ≠ .eof
  closes : eof.kind = .eof

namespace Tape

variable (T : Tape)

/-- All the tokens. -/
def tokens : List Token := T.before ++ (T.body ++ T.eof :: T.after)

/-- A cursor in front of the last tokens of the body. -/
def Holds (c : Cursor) : Prop := c.rest <:+ T.body

/-- The position of a cursor. -/
def position (c : Cursor) : Position :=
  ⟨T.before.length + T.body.length - c.size, c.nextId, c.reports⟩

variable {T} {c c' : Cursor} {t : Token}

theorem Holds.of_push (h : T.Holds (c.push t)) : T.Holds c :=
  (List.suffix_cons t c.rest).trans h

/-- The tokens from the position of a cursor on. -/
theorem drop_position (h : T.Holds c) :
    T.tokens.drop (T.position c).current = c.rest ++ T.eof :: T.after := by
  obtain ⟨read, split⟩ := h
  have index : (T.position c).current = (T.before ++ read).length := by
    simp only [position, Cursor.size, ← split, List.length_append]
    omega
  rw [tokens, ← split, index, List.append_assoc, ← List.append_assoc, List.drop_left]

/-- The token at the position of a cursor. -/
theorem getElem?_position (h : T.Holds c) :
    T.tokens[(T.position c).current]? = some (c.peek T.eof) := by
  rw [← List.head?_drop, drop_position h]
  unfold Cursor.peek
  cases c.rest <;> rfl

/-- Reading a token moves the position by one. -/
theorem current_position_push (h : T.Holds (c.push t)) :
    (T.position c).current = (T.position (c.push t)).current + 1 := by
  have fits : c.size + 1 ≤ T.body.length := h.length_le
  show T.before.length + T.body.length - c.size
    = T.before.length + T.body.length - (c.size + 1) + 1
  omega

/-! ### Looking and moving -/

/-- The token at the position is the one the cursor is in front of, or the mark of the
end. -/
theorem outcome_peek (h : T.Holds c) :
    outcome (peek T.tokens) (T.position c) = some (.ok (c.peek T.eof), T.position c) := by
  show outcome (look T.tokens (T.position c).current) (T.position c) = _
  rw [look, getElem?_position h]
  rfl

/-- The token before the position of a cursor is the one that was passed last. -/
theorem outcome_previous (h : T.Holds (c.push t)) :
    outcome (previous T.tokens) (T.position c) = some (.ok t, T.position c) := by
  show outcome (look T.tokens ((T.position c).current - 1)) (T.position c) = _
  rw [current_position_push h, Nat.add_sub_cancel, look, getElem?_position h]
  rfl

/-- Wherever a cursor stands, there is a token before it or at it. -/
theorem exists_outcome_previous (c : Cursor) :
    ∃ t, outcome (previous T.tokens) (T.position c) = some (.ok t, T.position c) := by
  have fits : (T.position c).current - 1 < T.tokens.length := by
    simp only [position, tokens, List.length_append, List.length_cons]
    omega
  refine ⟨T.tokens[(T.position c).current - 1], ?_⟩
  show outcome (look T.tokens ((T.position c).current - 1)) (T.position c) = _
  rw [look, List.getElem?_eq_getElem fits]
  rfl

/-- The mark of the end is reached where the cursor has no tokens left. -/
theorem outcome_atEnd (h : T.Holds c) :
    outcome (atEnd T.tokens) (T.position c) = some (.ok c.rest.isEmpty, T.position c) := by
  rw [atEnd, outcome_bind_ok (outcome_peek h)]
  obtain ⟨_ | ⟨t, rest⟩, nextId, reports⟩ := c
  · show some (Except.ok (T.eof.kind == .eof), _) = _
    rw [T.closes]
    rfl
  · show some (Except.ok (t.kind == .eof), _) = _
    rw [beq_false_of_ne (T.inside t (h.mem List.mem_cons_self))]
    rfl

theorem isSome_take?_push {accepts : Kind → Bool} :
    ((c.push t).take? accepts).isSome = accepts t.kind := by
  rw [Cursor.take?, Option.isSome_filter]
  rfl

/-- The kind at the position is checked as the cursor checks it. -/
theorem outcome_check (h : T.Holds c) (accepts : Kind → Bool) :
    outcome (check T.tokens accepts) (T.position c)
      = some (.ok (c.take? accepts).isSome, T.position c) := by
  rw [check, outcome_bind_ok (outcome_atEnd h)]
  obtain ⟨_ | ⟨t, rest⟩, nextId, reports⟩ := c
  · rfl
  · have taken : accepts t.kind = ((Cursor.push ⟨rest, nextId, reports⟩ t).take? accepts).isSome :=
      isSome_take?_push.symm
    rw [if_neg (by simp), outcome_bind_ok (outcome_peek h)]
    exact congrArg (fun taken => some (Except.ok taken, _)) taken

/-- The token is read and the position moves on. -/
theorem outcome_advance (h : T.Holds (c.push t)) :
    outcome (advance T.tokens) (T.position (c.push t)) = some (.ok t, T.position c) := by
  rw [advance, outcome_bind_ok (outcome_atEnd h), if_neg (by simp)]
  have moved : outcome (modify fun p => { p with current := p.current + 1 })
      (T.position (c.push t)) = some (.ok (), T.position c) := by
    show some (Except.ok (), (⟨_, _, _⟩ : Position)) = some (Except.ok (), (⟨_, _, _⟩ : Position))
    rw [← current_position_push h]
    rfl
  rw [outcome_bind_ok moved, outcome_previous h]

/-- A token that is refused stays. -/
theorem outcome_accept_none {accepts : Kind → Bool} (h : T.Holds c)
    (left : c.take? accepts = none) :
    outcome (accept T.tokens accepts) (T.position c) = some (.ok false, T.position c) := by
  rw [accept, outcome_bind_ok (outcome_check h accepts), left]
  rfl

/-- A token that is accepted is read. -/
theorem outcome_accept_some {accepts : Kind → Bool} (h : T.Holds (c.push t))
    (sign : accepts t.kind = true) :
    outcome (accept T.tokens accepts) (T.position (c.push t)) = some (.ok true, T.position c) := by
  rw [accept, outcome_bind_ok (outcome_check h accepts), isSome_take?_push, if_pos sign,
    outcome_bind_ok (outcome_advance h)]
  rfl

/-- The expected token is read. -/
theorem outcome_expect {what : Expectation} (h : T.Holds (c.push t)) (sign : t.kind = what.kind) :
    outcome (expect T.tokens what) (T.position (c.push t)) = some (.ok t, T.position c) := by
  rw [expect, outcome_bind_ok (outcome_check h _), isSome_take?_push, if_pos (beq_iff_eq.2 sign),
    outcome_advance h]

/-- Lists are counted alike, and the report is about the token at the position. -/
theorem outcome_checkCount (h : T.Holds c) (count : Nat) (problem : Problem) :
    outcome (checkCount T.tokens count problem) (T.position c)
      = some (.ok (), T.position (c.checkCount T.eof count problem)) := by
  unfold checkCount Cursor.checkCount
  split
  · rw [outcome_bind_ok (outcome_peek h)]
    rfl
  · rfl

/-! ## Steps and outcomes -/

/-- **The same outcome, by index.** -/
inductive Mirrors (T : Tape) {n : Nat} {α : Type} :
    Step n α → (Nat → Reader α) → Position → Prop where
  | ok {a c h reader p} (holds : T.Holds c) (ends : Ends reader p (.ok a, T.position c)) :
      Mirrors T (.ok a c h) reader p
  | failed {c h reader p} (holds : T.Holds c) (ends : Ends reader p (.error (), T.position c)) :
      Mirrors T (.failed c h) reader p

namespace Mirrors

variable {m n : Nat} {α β : Type} {x : Step m α} {y : Step n β} {reader : Nat → Reader α}
  {p p' : Position} {accepts : Kind → Bool} {taken left : Nat → Reader β}

/-- A result without reading. -/
theorem done {a : α} {h : c.size < n} (holds : T.Holds c) :
    Mirrors T (.ok a c h) (fun _ => pure a) (T.position c) :=
  .ok holds (.of_outcome rfl)

/-- A reader that ends one call deeper. -/
theorem deeper (h : Mirrors T x (fun depth => reader (depth + 1)) p) : Mirrors T x reader p := by
  cases h with
  | ok holds ends => exact .ok holds ends.deeper
  | failed holds ends => exact .failed holds ends.deeper

theorem within (h : Mirrors T x reader p) (hlt : m < n) : Mirrors T (x.within hlt) reader p := by
  cases h with
  | ok holds ends => exact .ok holds ends
  | failed holds ends => exact .failed holds ends

theorem relocate (h : Mirrors T x reader p) (heq : m = n) :
    Mirrors T (x.relocate heq) reader p := by
  cases h with
  | ok holds ends => exact .ok holds ends
  | failed holds ends => exact .failed holds ends

/-- Going on behind a reader that ended. -/
theorem bind {a : α} {k : Nat → α → Reader β} (read : Ends reader p (.ok a, p'))
    (h : Mirrors T y (fun depth => k depth a) p') :
    Mirrors T y (fun depth => reader depth >>= k depth) p := by
  cases h with
  | ok holds ends => exact .ok holds (read.bind_ok ends)
  | failed holds ends => exact .failed holds (read.bind_ok ends)

/-- Going on behind a reader without calls. -/
theorem after {first : Reader α} {a : α} {k : Nat → α → Reader β}
    (read : outcome first p = some (.ok a, p')) (h : Mirrors T y (fun depth => k depth a) p') :
    Mirrors T y (fun depth => first >>= k depth) p :=
  .bind (.of_outcome read) h

/-- **One step after the other**: the second starts at the position of the cursor it is
given. -/
theorem andThen {f : α → (c : Cursor) → c.size < m → Step m β} {k : Nat → α → Reader β}
    (h : Mirrors T x reader p)
    (next : ∀ a c hlt, T.Holds c →
      Mirrors T (f a c hlt) (fun depth => k depth a) (T.position c)) :
    Mirrors T (x.andThen f) (fun depth => reader depth >>= k depth) p := by
  cases h with
  | ok holds ends => exact .bind ends (next _ _ _ holds)
  | failed holds ends => exact .failed holds ends.bind_error

/-- The same for a second step that is bound to an earlier cursor. -/
theorem andThenFrom {hlt : m < n} {f : α → (c : Cursor) → c.size < m → Step n β}
    {k : Nat → α → Reader β} (h : Mirrors T x reader p)
    (next : ∀ a c h, T.Holds c →
      Mirrors T (f a c h) (fun depth => k depth a) (T.position c)) :
    Mirrors T (x.andThenFrom hlt f) (fun depth => reader depth >>= k depth) p := by
  cases h with
  | ok holds ends => exact .bind ends (next _ _ _ holds)
  | failed holds ends => exact .failed holds ends.bind_error

theorem map {f : α → β} (h : Mirrors T x reader p) :
    Mirrors T (x.map f) (fun depth => reader depth >>= fun a => pure (f a)) p := by
  cases h with
  | ok holds ends => exact .ok holds (ends.bind_ok (.of_outcome rfl))
  | failed holds ends => exact .failed holds ends.bind_error

/-- Where the next token is not accepted. -/
theorem refused (h : T.Holds c) (none : c.take? accepts = none)
    (others : Mirrors T y left (T.position c)) :
    Mirrors T y (fun depth => do if ← accept T.tokens accepts then taken depth else left depth)
      (T.position c) :=
  .after (outcome_accept_none h none) others

/-- Where the next token is accepted. -/
theorem accepted (h : T.Holds (c.push t)) (sign : accepts t.kind = true)
    (others : Mirrors T y taken (T.position c)) :
    Mirrors T y (fun depth => do if ← accept T.tokens accepts then taken depth else left depth)
      (T.position (c.push t)) :=
  .after (outcome_accept_some h sign) others

/-- Where the next token is accepted or not. -/
theorem choose (h : T.Holds (c.push t))
    (yes : accepts t.kind = true → Mirrors T y taken (T.position c))
    (no : accepts t.kind ≠ true → Mirrors T y left (T.position (c.push t))) :
    Mirrors T y (fun depth => do if ← accept T.tokens accepts then taken depth else left depth)
      (T.position (c.push t)) := by
  by_cases sign : accepts t.kind = true
  · exact .accepted h sign (yes sign)
  · refine .refused h (Option.not_isSome_iff_eq_none.1 ?_) (no sign)
    rwa [isSome_take?_push]

end Mirrors

/-- A failure is reported at the position. -/
theorem fail_mirrors {α : Type} (h : T.Holds c) (problem : Problem) :
    T.Mirrors (Step.fail c (c.peek T.eof) problem : Step c.size α)
      (fun _ => fail T.tokens problem) (T.position c) := by
  refine .failed h (.of_outcome ?_)
  rw [fail, outcome_bind_ok (outcome_peek h)]
  rfl

/-- A token that is expected is found or missed alike. -/
theorem expect_mirrors (h : T.Holds c) (what : Expectation) :
    T.Mirrors (c.expect T.eof what) (fun _ => expect T.tokens what) (T.position c) := by
  unfold Cursor.expect
  rcases Grammar.take?_cases c (· == what.kind) with hnone | ⟨t, c', h', hsome, rfl, sign⟩
  · rw [hnone]
    refine .after (outcome_check h _) ?_
    rw [hnone]
    exact fail_mirrors h _
  · rw [hsome]
    exact .ok h.of_push (.of_outcome (outcome_expect h (eq_of_beq sign)))

end Tape

end Kix.Indexed
