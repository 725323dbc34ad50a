import Kix.Proofs.DisplayedNumbers
import Kix.Proofs.LegibleTrees
import Kix.Proofs.RenderedForms
import Kix.Syntax.Render

/-!
# Rendered trees are forms

A tree is rendered as the text of a form (`Expr.shows_render`, `Stmt.shows_render`): a literal
or a name as a word, and everything else as a list with a word at its head. If the tree is
legible, all these words can stand as words (`Expr.clear_toForm`, `Stmt.clear_toForm`), so that
the form can be read back from its text.
-/

namespace Kix

/-! ## Trees as forms -/

mutual

/-- **The form of an expression.** -/
def Expr.toForm : Expr → Form
  | .literal value => .word value.render
  | .unary operator operand => .list [.word operator.lexeme, operand.toForm]
  | .binary left operator right =>
    .list [.word operator.lexeme, left.toForm, right.toForm]
  | .logical left operator right =>
    .list [.word operator.lexeme, left.toForm, right.toForm]
  | .conditional condition thenBranch elseBranch =>
    .list [.word "?:", condition.toForm, thenBranch.toForm, elseBranch.toForm]
  | .group inner => .list [.word "group", inner.toForm]
  | .var _ name => .word name.lexeme
  | .assign _ name value => .list [.word "=", .word name.lexeme, value.toForm]
  | .call callee _ arguments => .list (.word "call" :: callee.toForm :: argumentForms arguments)
  | .absent => .word "nil"

/-- The forms of the arguments of a call. -/
def argumentForms : List Expr → List Form
  | [] => []
  | e :: rest => e.toForm :: argumentForms rest

end

/-- The form of an expression that may be missing. -/
def Expr.optionalForm : Expr → List Form
  | .absent => []
  | e => [e.toForm]

mutual

/-- **The form of a statement.** -/
def Stmt.toForm : Stmt → Form
  | .expression value => .list [.word ";", value.toForm]
  | .print value => .list [.word "print", value.toForm]
  | .var name initializer =>
    .list (.word "var" :: .word name.lexeme :: initializer.optionalForm)
  | .block body => .list (.word "block" :: bodyForms body)
  | .branch condition thenBranch elseBranch =>
    match elseBranch with
    | .absent => .list [.word "if", condition.toForm, thenBranch.toForm]
    | other => .list [.word "if-else", condition.toForm, thenBranch.toForm, other.toForm]
  | .loop condition body => .list [.word "while", condition.toForm, body.toForm]
  | .function name params body =>
    .list (.word "fun" :: .word name.lexeme :: .list (params.map fun p => .word p.lexeme)
      :: bodyForms body)
  | .ret _ value => .list (.word "return" :: value.optionalForm)
  | .absent => .list [.word "null"]

/-- The forms of the statements of a body. -/
def bodyForms : List Stmt → List Form
  | [] => []
  | s :: rest => s.toForm :: bodyForms rest

end

/-! ## A rendering is the text of a form -/

/-- A text is that of a form. -/
abbrev Form.Shows (part : String) (f : Form) : Prop := part.toList = f.text

/-- Texts that are those of forms, all at once. -/
theorem Form.map_toList {parts : List String} {fs : List Form} (h : List.Forall₂ Shows parts fs) :
    parts.map String.toList = texts fs := by
  induction h with
  | nil => rfl
  | cons first _ ih => rw [List.map_cons, first, ih, texts]

/-- **Parts in parentheses** are the text of a list, if they are the texts of its parts. -/
theorem Form.shows_form {parts : List String} {fs : List Form}
    (h : List.Forall₂ Shows parts fs) : Shows (form parts) (list fs) := by
  unfold Shows form
  rw [String.toList_append, String.toList_append, String.toList_intercalate, map_toList h, text]
  rfl

theorem Form.shows_lexemes (ts : List Token) :
    List.Forall₂ Shows (ts.map Token.lexeme) (ts.map fun t => .word t.lexeme) := by
  induction ts with
  | nil => exact .nil
  | cons t ts ih => exact .cons rfl ih

open Form (Shows)

mutual

/-- **The rendering of an expression** is the text of its form. -/
theorem Expr.shows_render : (e : Expr) → Shows e.render e.toForm
  | .literal _ => rfl
  | .unary _ operand => Form.shows_form (.cons rfl (.cons operand.shows_render .nil))
  | .binary left _ right | .logical left _ right =>
    Form.shows_form (.cons rfl (.cons left.shows_render (.cons right.shows_render .nil)))
  | .conditional condition thenBranch elseBranch =>
    Form.shows_form (.cons rfl (.cons condition.shows_render (.cons thenBranch.shows_render
      (.cons elseBranch.shows_render .nil))))
  | .group inner => Form.shows_form (.cons rfl (.cons inner.shows_render .nil))
  | .var _ _ => rfl
  | .assign _ _ value => Form.shows_form (.cons rfl (.cons rfl (.cons value.shows_render .nil)))
  | .call callee _ arguments =>
    Form.shows_form (.cons rfl (.cons callee.shows_render (shows_renderArguments arguments)))
  | .absent => rfl

/-- The renderings of arguments are the texts of their forms. -/
theorem shows_renderArguments : (es : List Expr) →
    List.Forall₂ Shows (renderArguments es) (argumentForms es)
  | [] => .nil
  | e :: rest => .cons e.shows_render (shows_renderArguments rest)

end

mutual

/-- **The rendering of a statement** is the text of its form. -/
theorem Stmt.shows_render : (s : Stmt) → Shows s.render s.toForm
  | .expression value | .print value =>
    Form.shows_form (.cons rfl (.cons value.shows_render .nil))
  | .var _ initializer => by
    have value := initializer.shows_render
    cases initializer with
    | absent => exact Form.shows_form (.cons rfl (.cons rfl .nil))
    | _ => exact Form.shows_form (.cons rfl (.cons rfl (.cons value .nil)))
  | .block body => Form.shows_form (.cons rfl (shows_renderBody body))
  | .branch condition thenBranch elseBranch => by
    have first := condition.shows_render
    have second := thenBranch.shows_render
    have third := elseBranch.shows_render
    cases elseBranch with
    | absent => exact Form.shows_form (.cons rfl (.cons first (.cons second .nil)))
    | _ => exact Form.shows_form (.cons rfl (.cons first (.cons second (.cons third .nil))))
  | .loop condition body =>
    Form.shows_form (.cons rfl (.cons condition.shows_render (.cons body.shows_render .nil)))
  | .function _ params body =>
    Form.shows_form (.cons rfl (.cons rfl (.cons (Form.shows_form (Form.shows_lexemes params))
      (shows_renderBody body))))
  | .ret _ value => by
    have result := value.shows_render
    cases value with
    | absent => exact Form.shows_form (.cons rfl .nil)
    | _ => exact Form.shows_form (.cons rfl (.cons result .nil))
  | .absent => Form.shows_form (.cons rfl .nil)

/-- The same for the statements of a body. -/
theorem shows_renderBody : (ss : List Stmt) →
    List.Forall₂ Shows (renderBody ss) (bodyForms ss)
  | [] => .nil
  | s :: rest => .cons s.shows_render (shows_renderBody rest)

end

/-! ## Words -/

/-- A character that passes a test which no delimiter passes. -/
theorem Form.isDelimiter_of_test {p : Char → Bool} {c : Char} (passes : p c = true)
    (fails : ['(', ')', ' ', '\n'].any p = false) : isDelimiter c = false := by
  have other := Segment.not_mem_of_test passes fails
  exact Bool.eq_false_iff.2 fun mem => other (List.contains_iff_mem.1 mem)

/-- The characters of a word are no delimiters. -/
theorem IsWord.forall_isDelimiter {cs : List Char} (h : IsWord cs) :
    cs ≠ [] ∧ ∀ c ∈ cs, Form.isDelimiter c = false := by
  obtain ⟨first, rest, rfl, start, inside⟩ := isWord_iff.1 h
  refine ⟨List.cons_ne_nil _ _, List.forall_mem_cons.2 ⟨?_, fun c mem => ?_⟩⟩
  · exact Form.isDelimiter_of_test start rfl
  · exact Form.isDelimiter_of_test (inside c mem) rfl

/-- The text of a token is a word, unless it is a parenthesis or a string. -/
theorem Spells.forall_isDelimiter {kind : Kind} {cs : List Char} {literal : Option Literal}
    (h : Spells kind cs literal) (notLeft : kind ≠ .leftParen) (notRight : kind ≠ .rightParen)
    (noString : kind ≠ .string) : cs ≠ [] ∧ ∀ c ∈ cs, Form.isDelimiter c = false := by
  cases h with
  | operator listed =>
    have all : Kind.operators.all (fun p => p.2 == .leftParen || p.2 == .rightParen
        || !p.1.isEmpty && p.1.all (!Form.isDelimiter ·)) = true := rfl
    have clear := List.all_eq_true.1 all _ listed
    simpa [notLeft, notRight] using clear
  | whole digits =>
    exact ⟨digits.1, fun c mem => Form.isDelimiter_of_test (digits.2 c mem) rfl⟩
  | point digits digits' =>
    refine ⟨List.append_ne_nil_of_left_ne_nil digits.1 _, fun c mem => ?_⟩
    rcases List.mem_append.1 mem with mem | mem
    · exact Form.isDelimiter_of_test (digits.2 c mem) rfl
    · rcases List.mem_cons.1 mem with rfl | mem
      · rfl
      · exact Form.isDelimiter_of_test (digits'.2 c mem) rfl
  | reserved listed => exact (isWord_of_listed listed).forall_isDelimiter
  | name isWord => exact isWord.forall_isDelimiter
  | string => exact absurd rfl noString

/-- A token other than a parenthesis or a string is one word. -/
theorem Spells.isWord {kind : Kind} {text : String} {literal : Option Literal}
    (h : Spells kind text.toList literal) (notLeft : kind ≠ .leftParen)
    (notRight : kind ≠ .rightParen) (noString : kind ≠ .string) : Form.isWord text = true := by
  obtain ⟨filled, clear⟩ := h.forall_isDelimiter notLeft notRight noString
  exact Form.isWord_iff.2 ⟨fun empty => filled (String.toList_eq_nil_iff.2 empty), clear⟩

/-- The text of a token that is neither is one word. -/
theorem Token.Plain.isWord {t : Token} (h : t.Plain) (notLeft : t.kind ≠ .leftParen)
    (notRight : t.kind ≠ .rightParen) : Form.isWord t.lexeme = true :=
  h.scanned.spells.isWord notLeft notRight h.noString

/-! ## Literals -/

/-- A whole number with a zero behind the point. -/
theorem Number.Writes.point_zero {whole : List Char} (digits : IsDigits whole) :
    Writes (whole ++ ".0".toList) (spelled whole) := by
  have value : numeralValue whole ['0'] = spelled whole := by
    rw [numeralValue_eq, spelled_append]
    simp [spelled]
  rw [← value]
  exact .point digits ⟨List.cons_ne_nil _ _, List.forall_mem_singleton.2 rfl⟩

/-- **The text of a number in a tree** writes a number that the double is nearest to. -/
theorem Number.exists_writes_literal {m : Magnitude} (finite : m < Magnitude.infinity) :
    ∃ q, Writes (literal m.toFloat).toList q ∧ m.IsNearest q := by
  have text : (literal m.toFloat).toList
      = if isIntegral m then displayMagnitude m ++ ".0".toList else displayMagnitude m := by
    unfold literal
    rw [Magnitude.toFloat, Double.ofFloat_ofBits (Double.ofBits_ofNat finite),
      String.toList_ofList]
    exact if_neg Bool.false_ne_true
  rw [text]
  by_cases integral : isIntegral m = true
  · obtain ⟨k, digits, value⟩ := Magnitude.exists_numeral_of_isIntegral integral
    have written := Writes.point_zero (isDigits_numeral k)
    rw [value, ← digits] at written
    rw [if_pos integral]
    exact ⟨m.value, written, m.isNearest_value⟩
  · rw [if_neg integral]
    exact Magnitude.exists_writes finite

/-- A number in a tree is a token that denotes it. -/
theorem Number.longestMatch_literal {m : Magnitude} (finite : m < Magnitude.infinity) :
    LongestMatch .number (literal m.toFloat).toList (some (.number m.toFloat)) [] := by
  obtain ⟨q, writes, nearest⟩ := exists_writes_literal finite
  exact .of_spells (writes.spells nearest finite) writes.head?_ne_slash

/-- A legible literal is rendered as one word. -/
theorem Literal.isWord_render {value : Literal} (legible : value.Legible) :
    Form.isWord value.render = true := by
  cases value with
  | number x =>
    obtain ⟨m, finite, rfl⟩ := legible
    have spells := (Number.longestMatch_literal finite).spells
    exact spells.isWord (by decide) (by decide) (by decide)
  | string s => exact legible.elim
  | bool b => cases b <;> rfl
  | nil => rfl

/-! ## The words of forms -/

namespace Token.IsOf

variable {accept : Kind → Bool} {t : Token}

/-- What is not accepted is not the kind of the token. -/
theorem ne_kind (h : t.IsOf accept) {kind : Kind} (other : accept kind = false) :
    t.kind ≠ kind := by
  rintro rfl
  rw [h.2] at other
  cases other

theorem isWord (h : t.IsOf accept) (notLeft : accept .leftParen = false)
    (notRight : accept .rightParen = false) : Form.isWord t.lexeme = true :=
  h.1.isWord (h.ne_kind notLeft) (h.ne_kind notRight)

end Token.IsOf

mutual

/-- **The form of a legible expression is clear**: every word in it is one. -/
theorem Expr.clear_toForm : (e : Expr) → e.Legible → e.toForm.Clear
  | .literal _, legible => Literal.isWord_render legible
  | .unary _ operand, legible =>
    ⟨legible.1.isWord rfl rfl, operand.clear_toForm legible.2, trivial⟩
  | .binary left _ right, legible | .logical left _ right, legible =>
    ⟨legible.1.isWord rfl rfl, left.clear_toForm legible.2.1, right.clear_toForm legible.2.2,
      trivial⟩
  | .conditional condition thenBranch elseBranch, legible =>
    ⟨rfl, condition.clear_toForm legible.1, thenBranch.clear_toForm legible.2.1,
      elseBranch.clear_toForm legible.2.2, trivial⟩
  | .group inner, legible => ⟨rfl, inner.clear_toForm legible, trivial⟩
  | .var _ _, legible => Token.IsOf.isWord legible rfl rfl
  | .assign _ _ value, legible =>
    ⟨rfl, legible.1.isWord rfl rfl, value.clear_toForm legible.2, trivial⟩
  | .call callee _ arguments, legible =>
    ⟨rfl, callee.clear_toForm legible.2.1, allClear_argumentForms arguments legible.2.2⟩

/-- The same for arguments. -/
theorem allClear_argumentForms : (es : List Expr) → argumentsLegible es →
    Form.AllClear (argumentForms es)
  | [], _ => trivial
  | e :: rest, legible => ⟨e.clear_toForm legible.1, allClear_argumentForms rest legible.2⟩

end

/-- An expression that is not missing has its own form. -/
theorem Expr.Legible.optionalForm_eq {e : Expr} (legible : e.Legible) :
    e.optionalForm = [e.toForm] := by
  cases e with
  | absent => exact legible.elim
  | _ => rfl

theorem Expr.LegibleOrAbsent.allClear {e : Expr} (h : e.LegibleOrAbsent) :
    Form.AllClear e.optionalForm := by
  rcases h with rfl | legible
  · trivial
  · rw [legible.optionalForm_eq]
    exact ⟨e.clear_toForm legible, trivial⟩

theorem Form.allClear_lexemes {ts : List Token} (names : ∀ t ∈ ts, t.IsOf (· == .identifier)) :
    AllClear (ts.map fun t => .word t.lexeme) := by
  induction ts with
  | nil => trivial
  | cons t ts ih =>
    obtain ⟨first, names⟩ := List.forall_mem_cons.1 names
    exact ⟨first.isWord rfl rfl, ih names⟩

mutual

/-- **The form of a legible statement is clear.** -/
theorem Stmt.clear_toForm : (s : Stmt) → s.Legible → s.toForm.Clear
  | .expression value, legible => by
    rcases legible with rfl | legible
    · exact ⟨rfl, rfl, trivial⟩
    · exact ⟨rfl, value.clear_toForm legible, trivial⟩
  | .print value, legible => ⟨rfl, value.clear_toForm legible, trivial⟩
  | .var _ _, legible => ⟨rfl, legible.1.isWord rfl rfl, legible.2.allClear⟩
  | .block body, legible => ⟨rfl, allClear_bodyForms body legible⟩
  | .branch condition thenBranch elseBranch, legible => by
    have first := condition.clear_toForm legible.1
    have second := thenBranch.clear_toForm legible.2.1
    have third := elseBranch.clear_toForm legible.2.2
    cases elseBranch with
    | absent => exact ⟨rfl, first, second, trivial⟩
    | _ => exact ⟨rfl, first, second, third, trivial⟩
  | .loop condition body, legible =>
    ⟨rfl, condition.clear_toForm legible.1, body.clear_toForm legible.2, trivial⟩
  | .function _ _ body, legible =>
    ⟨rfl, legible.1.isWord rfl rfl, Form.allClear_lexemes legible.2.1,
      allClear_bodyForms body legible.2.2⟩
  | .ret _ _, legible => ⟨rfl, legible.2.allClear⟩
  | .absent, _ => ⟨rfl, trivial⟩

/-- The same for the statements of a body. -/
theorem allClear_bodyForms : (ss : List Stmt) → bodyLegible ss → Form.AllClear (bodyForms ss)
  | [], _ => trivial
  | s :: rest, legible => ⟨s.clear_toForm legible.1, allClear_bodyForms rest legible.2⟩

end

end Kix
