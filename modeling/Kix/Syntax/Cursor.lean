import Kix.Report

/-!
# Reading tokens

A **cursor** stands in front of the tokens that are left to read, and keeps
what reading has produced besides trees: reports, and the identities handed
out. The tokens in front of it never include the end of the input, so an empty
rest *is* the end; the token that marks the end is kept apart, because reports
name it.

A reader of some construct returns a `Step`: either it read the construct and
at least one token, or it failed after a report. Both cases bound the number
of tokens left, which is what makes the readers end.
-/

namespace Kix

/-- The tokens left to read, the next identity to hand out, and the reports
made so far, the latest first. -/
structure Cursor where
  rest : List Token
  nextId : Nat
  reports : List Report

namespace Cursor

/-- How many tokens are left. -/
def size (c : Cursor) : Nat := c.rest.length

/-- Moving on twice is moving on. -/
theorem shorter_trans {a b c : Cursor} (h : a.size < b.size) (h' : b.size < c.size) :
    a.size < c.size :=
  Nat.lt_trans h h'

/-- The next token, which at the end is the given one. -/
def peek (c : Cursor) (eof : Token) : Token := c.rest.headD eof

/-- Whether the next token has a kind; at the end it has none. -/
def sees (c : Cursor) (kind : Kind) : Bool := (c.rest.head?.map Token.kind) == some kind

/-- A report about a token, without moving. -/
def complain (c : Cursor) (t : Token) (p : Problem) : Cursor :=
  { c with reports := .syntactic t.place p :: c.reports }

/-- The largest number of parameters or arguments. -/
def maxArity : Nat := 255

/-- A report if there are already as many parameters or arguments as there may
be; reading goes on all the same. -/
def checkCount (c : Cursor) (eof : Token) (count : Nat) (p : Problem) : Cursor :=
  if maxArity ≤ count then c.complain (c.peek eof) p else c

@[simp] theorem size_checkCount (c : Cursor) (eof : Token) (count : Nat) (p : Problem) :
    (c.checkCount eof count p).size = c.size := by
  unfold checkCount
  split <;> rfl

/-- Handing out an identity. -/
def advanceId (c : Cursor) : Cursor := { c with nextId := c.nextId + 1 }

/-- The next token and the cursor behind it. -/
def next? (c : Cursor) : Option (Token × { c' : Cursor // c'.size < c.size }) :=
  match h : c.rest with
  | [] => none
  | t :: rest => some (t, ⟨{ c with rest }, by simp [size, h]⟩)

/-- The next token if its kind is accepted, and the cursor behind it. -/
def take? (c : Cursor) (accept : Kind → Bool) :
    Option (Token × { c' : Cursor // c'.size < c.size }) :=
  c.next?.filter (accept ·.1.kind)

end Cursor

/-- **The outcome of a reader** that started in front of `bound` tokens. -/
inductive Step (bound : Nat) (α : Type) where
  | ok (value : α) (cursor : Cursor) (shorter : cursor.size < bound)
  | failed (cursor : Cursor) (bounded : cursor.size ≤ bound)

namespace Step

/-- Failing in front of a token, with a report about it. -/
def fail {α : Type} (c : Cursor) (t : Token) (p : Problem) : Step c.size α :=
  .failed (c.complain t p) (Nat.le_refl _)

/-- The same outcome, seen from further back. -/
@[inline] def within {m n : Nat} {α : Type} (x : Step m α) (h : m < n) : Step n α :=
  match x with
  | ok value cursor shorter => ok value cursor (Nat.lt_trans shorter h)
  | failed cursor bounded => failed cursor (Nat.le_trans bounded (Nat.le_of_lt h))

/-- The same outcome, seen from a place just as far. -/
@[inline] def relocate {m n : Nat} {α : Type} (x : Step m α) (h : m = n) : Step n α :=
  match x with
  | ok value cursor shorter => ok value cursor (h ▸ shorter)
  | failed cursor bounded => failed cursor (h ▸ bounded)

/-- Changing what was read. -/
@[inline] def map {n : Nat} {α β : Type} (x : Step n α) (f : α → β) : Step n β :=
  match x with
  | ok value cursor shorter => ok (f value) cursor shorter
  | failed cursor bounded => failed cursor bounded

/-- Going on behind what was read. -/
@[inline] def andThen {n : Nat} {α β : Type} (x : Step n α)
    (f : α → (c : Cursor) → c.size < n → Step n β) : Step n β :=
  match x with
  | ok value cursor shorter => f value cursor shorter
  | failed cursor bounded => failed cursor bounded

/-- Going on behind a part of a construct that began further back. -/
@[inline] def andThenFrom {m n : Nat} {α β : Type} (x : Step m α) (h : m < n)
    (f : α → (c : Cursor) → c.size < m → Step n β) : Step n β :=
  match x with
  | ok value cursor shorter => f value cursor shorter
  | failed cursor bounded => failed cursor (Nat.le_trans bounded (Nat.le_of_lt h))

end Step

namespace Cursor

/-- Reading the one token that can follow here. -/
def expect (c : Cursor) (eof : Token) (what : Expectation) : Step c.size Token :=
  match c.take? (· == what.kind) with
  | some (t, ⟨next, h⟩) => .ok t next h
  | none => .fail c (c.peek eof) (.expected what)

/-! ## Going on after a failure -/

/-- The words a statement begins with. -/
def beginsStatement : Kind → Bool
  | .classWord | .funWord | .varWord | .forWord | .ifWord | .whileWord | .printWord
  | .returnWord => true
  | _ => false

/-- **Finding the next statement** after a failure: one token is skipped in any
case, and then all up to a semicolon or to a word a statement begins with. -/
def resume : List Token → List Token
  | [] => []
  | t :: rest =>
    if t.kind == .semicolon || (rest.head?.any (beginsStatement ·.kind)) then rest
    else resume rest

theorem length_resume_le (ts : List Token) : (resume ts).length ≤ ts.length - 1 := by
  induction ts with
  | nil => simp [resume]
  | cons t rest ih =>
    unfold resume
    split
    · simp
    · rw [List.length_cons]
      omega

/-- What a reader made of a nonempty rest: its value, or else the given one in
front of the next statement. At least one token is read in both cases. -/
def orResume {α : Type} (c : Cursor) (nonempty : c.rest ≠ []) (x : Step c.size α) (other : α) :
    α × { c' : Cursor // c'.size < c.size } :=
  match x with
  | .ok value c₁ h₁ => (value, ⟨c₁, h₁⟩)
  | .failed c₁ h₁ =>
    (other, ⟨{ c₁ with rest := resume c₁.rest }, by
      have some := List.length_pos_iff.2 nonempty
      have fewer := length_resume_le c₁.rest
      simp only [size] at *
      omega⟩)

end Cursor

end Kix
