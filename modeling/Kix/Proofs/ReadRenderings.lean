import Kix.Proofs.Relabeling
import Kix.Proofs.RenderedTrees

/-!
# Renderings tell programs apart

The form of a tree says what the tree is (`Form.expr`, `Form.stmt`): the word at its head tells
the operators from the other constructs, the number of its parts tells the `-` of one operand from
that of two, and a word alone is a literal, unless it is a name. Tokens are recovered from their
texts (`Token.Plain.ofText_lexeme`), and so are numbers.

What is lost is the numbers of occurrences, the lines of tokens, and whether an expression
statement is the literal `nil` or the missing increment of a `for` loop. So programs that are
rendered alike are alike but for these (`renderings_tell_programs_apart`).
-/

namespace Kix

/-! ## Trees up to labels -/

/-- No occurrence has a number of its own, and no token a line. -/
def Relabeling.unlabeling : Relabeling := { id := fun _ => 0, line := fun _ => 0 }

/-- An expression, or the literal `nil` if it is missing. -/
def Expr.orNil : Expr → Expr
  | .absent => .literal .nil
  | e => e

mutual

/-- The statement with `nil` for each missing increment. -/
def Stmt.filled : Stmt → Stmt
  | .expression value => .expression value.orNil
  | .print value => .print value
  | .var name initializer => .var name initializer
  | .block body => .block (filledBody body)
  | .branch condition thenBranch elseBranch =>
    .branch condition thenBranch.filled elseBranch.filled
  | .loop condition body => .loop condition body.filled
  | .function name params body => .function name params (filledBody body)
  | .ret keyword value => .ret keyword value
  | .absent => .absent

/-- The statements of a body with `nil` for each missing increment. -/
def filledBody : List Stmt → List Stmt
  | [] => []
  | s :: rest => s.filled :: filledBody rest

end

/-- **What a rendering shows of a program**: it leaves out numbers and lines, and shows `nil` for
the missing increment of a `for` loop. -/
def shown (program : Program) : Program := relabelBody .unlabeling (filledBody program)

/-! ## Tokens and their texts -/

/-- The token that a text is, on no line. -/
def Token.ofText (text : String) : Token :=
  match Segment.first? text.toList with
  | some (.token kind lexeme literal, _) => { kind, lexeme := .ofList lexeme, literal, line := 0 }
  | _ => .endOfInput 0

/-- A text that is one token is read as that token. -/
theorem Token.ofText_of_longest {kind : Kind} {text : String} {literal : Option Literal}
    (longest : LongestMatch kind text.toList literal []) :
    ofText text = { kind, lexeme := text, literal, line := 0 } := by
  have first := longest.first?_eq
  rw [List.append_nil] at first
  rw [ofText, first]
  dsimp only
  rw [String.ofList_toList]

/-- **A plain token is known by its text.** -/
theorem Token.Plain.ofText_lexeme {t : Token} (h : t.Plain) :
    ofText t.lexeme = t.relabel .unlabeling := ofText_of_longest h.scanned

/-- A text of another kind is not that of a token. -/
theorem Token.IsOf.lexeme_ne {accept : Kind → Bool} {t : Token} (h : t.IsOf accept)
    {text : String} (other : accept (ofText text).kind = false) : t.lexeme ≠ text := by
  rintro rfl
  rw [h.1.ofText_lexeme] at other
  exact h.ne_kind other rfl

/-- Whether all tokens of a kind have the given text. -/
def Kind.hasText (kind : Kind) (text : String) : Bool :=
  operators.all (fun p => p.2 != kind || p.1 == text.toList)
    && reserved.all (fun p => p.2 != kind || p.1 == text)
    && !([identifier, string, number].contains kind)

theorem Spells.eq_of_hasText {kind : Kind} {cs : List Char} {literal : Option Literal}
    {text : String} (h : Spells kind cs literal) (only : kind.hasText text = true) :
    cs = text.toList := by
  unfold Kind.hasText at only
  rw [Bool.and_eq_true, Bool.and_eq_true] at only
  obtain ⟨⟨inOperators, inReserved⟩, other⟩ := only
  cases h with
  | operator listed => simpa using List.all_eq_true.1 inOperators _ listed
  | @reserved word _ listed =>
    have same : word = text := by simpa using List.all_eq_true.1 inReserved _ listed
    rw [same]
  | whole | point | name | string => cases other

/-- A token of a kind that has one text. -/
theorem Token.IsOf.ofText_eq {kind : Kind} {t : Token} (h : t.IsOf (· == kind)) {text : String}
    (only : kind.hasText text = true) : ofText text = t.relabel .unlabeling := by
  have isKind : t.kind = kind := eq_of_beq h.2
  have same : t.lexeme = text :=
    String.toList_inj.1 ((isKind ▸ h.1.scanned.spells).eq_of_hasText only)
  rw [← same, h.1.ofText_lexeme]

/-- The text of a legible literal is that of a token which denotes it. -/
theorem Literal.denotes?_ofText {value : Literal} (legible : value.Legible) :
    (Token.ofText value.render).denotes? = some value := by
  cases value with
  | number x =>
    obtain ⟨m, finite, rfl⟩ := legible
    rw [render, Token.ofText_of_longest (Number.longestMatch_literal finite)]
    rfl
  | string s => exact legible.elim
  | bool b => cases b <;> rfl
  | nil => rfl

/-! ## Expressions -/

/-- A literal, or a name. -/
def Expr.ofToken (t : Token) : Expr :=
  match t.denotes? with
  | some value => .literal value
  | none => .var 0 t

/-- An operator with its two operands. -/
def Expr.ofOperator (operator : Token) (left right : Expr) : Expr :=
  if operator.kind.isConnective then .logical left operator right
  else .binary left operator right

/-- The expression of a list with the given head and the given parts behind it. -/
def Expr.ofParts (head : String) (parts : List Expr) : Expr :=
  match head, parts with
  | "call", callee :: arguments => .call callee (.ofText ")") arguments
  | "group", [inner] => .group inner
  | "=", [.var id name, value] => .assign id name value
  | "?:", [condition, thenBranch, elseBranch] => .conditional condition thenBranch elseBranch
  | operator, [operand] => .unary (.ofText operator) operand
  | operator, [left, right] => .ofOperator (.ofText operator) left right
  | _, _ => .absent

mutual

/-- **The expression of a form.** -/
def Form.expr : Form → Expr
  | .word text => .ofToken (.ofText text)
  | .list (.word head :: parts) => .ofParts head (exprs parts)
  | .list _ => .absent

/-- The expressions of forms. -/
def Form.exprs : List Form → List Expr
  | [] => []
  | f :: rest => f.expr :: exprs rest

end

section Parts

variable {accept : Kind → Bool} {operator : Token}

/-- A form with one part behind its word is an operator in front of an operand. -/
theorem Expr.ofParts_unary (h : operator.IsOf Grammar.isUnaryOperator) (operand : Expr) :
    ofParts operator.lexeme [operand] = .unary (operator.relabel .unlabeling) operand := by
  have notCall : operator.lexeme ≠ "call" := h.lexeme_ne rfl
  have notGroup : operator.lexeme ≠ "group" := h.lexeme_ne rfl
  rw [← h.1.ofText_lexeme]
  unfold ofParts
  -- of the constructs with one part none has the head
  split <;> simp_all

/-- A form with two parts is an operator between them. -/
theorem Expr.ofParts_operator (h : operator.IsOf accept)
    (notName : accept .identifier = false) (notEqual : accept .equal = false)
    (left right : Expr) :
    ofParts operator.lexeme [left, right]
      = .ofOperator (operator.relabel .unlabeling) left right := by
  have notCall : operator.lexeme ≠ "call" := h.lexeme_ne notName
  have notAssign : operator.lexeme ≠ "=" := h.lexeme_ne notEqual
  rw [← h.1.ofText_lexeme]
  unfold ofParts
  split <;> simp_all

end Parts

/-- A name is read as a variable. -/
theorem Expr.ofToken_name {name : Token} (h : name.IsOf (· == .identifier)) :
    ofToken (.ofText name.lexeme) = .var 0 (name.relabel .unlabeling) := by
  have kind : name.kind = .identifier := eq_of_beq h.2
  rw [h.1.ofText_lexeme, ofToken, Token.denotes?, Token.kind_relabel, kind]

theorem Kind.isConnective_of_isInfix {kind : Kind} (h : kind.isInfix = true) :
    kind.isConnective = false := by
  unfold isInfix at h
  split at h
  all_goals first | rfl | cases h

mutual

/-- **The form of a legible expression** says what it is but for labels. -/
theorem Expr.expr_toForm : (e : Expr) → e.Legible → e.toForm.expr = e.relabel .unlabeling
  | .literal value, legible => by
    show Expr.ofToken (.ofText value.render) = _
    rw [Expr.ofToken, Literal.denotes?_ofText legible, Expr.relabel]
  | .unary operator operand, legible => by
    show Expr.ofParts operator.lexeme [operand.toForm.expr] = _
    rw [operand.expr_toForm legible.2, Expr.ofParts_unary legible.1, Expr.relabel]
  | .binary left operator right, legible => by
    show Expr.ofParts operator.lexeme [left.toForm.expr, right.toForm.expr] = _
    rw [left.expr_toForm legible.2.1, right.expr_toForm legible.2.2,
      Expr.ofParts_operator legible.1 rfl rfl, Expr.ofOperator, Expr.relabel, Token.kind_relabel,
      Kind.isConnective_of_isInfix legible.1.2]
    rfl
  | .logical left operator right, legible => by
    show Expr.ofParts operator.lexeme [left.toForm.expr, right.toForm.expr] = _
    rw [left.expr_toForm legible.2.1, right.expr_toForm legible.2.2,
      Expr.ofParts_operator legible.1 rfl rfl, Expr.ofOperator, Expr.relabel, Token.kind_relabel,
      legible.1.2]
    rfl
  | .conditional condition thenBranch elseBranch, legible => by
    show Expr.conditional condition.toForm.expr thenBranch.toForm.expr elseBranch.toForm.expr = _
    rw [condition.expr_toForm legible.1, thenBranch.expr_toForm legible.2.1,
      elseBranch.expr_toForm legible.2.2, Expr.relabel]
  | .group inner, legible => by
    show Expr.group inner.toForm.expr = _
    rw [inner.expr_toForm legible, Expr.relabel]
  | .var _ name, legible => by
    show Expr.ofToken (.ofText name.lexeme) = _
    rw [Expr.ofToken_name legible, Expr.relabel]
    rfl
  | .assign _ name value, legible => by
    show Expr.ofParts "=" [.ofToken (.ofText name.lexeme), value.toForm.expr] = _
    rw [Expr.ofToken_name legible.1, value.expr_toForm legible.2, Expr.relabel]
    rfl
  | .call callee paren arguments, legible => by
    show Expr.call callee.toForm.expr (.ofText ")") (Form.exprs (argumentForms arguments)) = _
    rw [callee.expr_toForm legible.2.1, exprs_argumentForms arguments legible.2.2,
      legible.1.ofText_eq rfl, Expr.relabel]

/-- The same for arguments. -/
theorem exprs_argumentForms : (es : List Expr) → argumentsLegible es →
    Form.exprs (argumentForms es) = relabelArguments .unlabeling es
  | [], _ => rfl
  | e :: rest, legible => by
    rw [argumentForms, Form.exprs, e.expr_toForm legible.1, exprs_argumentForms rest legible.2,
      relabelArguments]

end

/-! ## Statements -/

/-- The token of a form that is a word. -/
def Form.token : Form → Token
  | .word text => .ofText text
  | .list _ => .endOfInput 0

/-- The statement of a list with the given head and the given parts behind it, which have been
read as statements too. -/
def Stmt.ofParts (head : String) (parts : List Form) (read : List Stmt) : Stmt :=
  match head, parts, read with
  | ";", [value], _ => .expression value.expr
  | "print", [value], _ => .print value.expr
  | "var", [name], _ => .var name.token .absent
  | "var", [name, value], _ => .var name.token value.expr
  | "block", _, body => .block body
  | "if", [condition, _], [_, thenBranch] => .branch condition.expr thenBranch .absent
  | "if-else", [condition, _, _], [_, thenBranch, elseBranch] =>
    .branch condition.expr thenBranch elseBranch
  | "while", [condition, _], [_, body] => .loop condition.expr body
  | "fun", name :: .list params :: _, _ :: _ :: body =>
    .function name.token (params.map Form.token) body
  | "return", [], _ => .ret (.ofText "return") .absent
  | "return", [value], _ => .ret (.ofText "return") value.expr
  | _, _, _ => .absent

mutual

/-- **The statement of a form.** -/
def Form.stmt : Form → Stmt
  | .list (.word head :: parts) => .ofParts head parts (stmts parts)
  | .list _ | .word _ => .absent

/-- The statements of forms. -/
def Form.stmts : List Form → List Stmt
  | [] => []
  | f :: rest => f.stmt :: stmts rest

end

/-- An expression that is there is not filled in. -/
theorem Expr.Legible.orNil_eq {e : Expr} (legible : e.Legible) : e.orNil = e := by
  cases e with
  | absent => exact legible.elim
  | _ => rfl

theorem Form.token_lexemes {ts : List Token} (names : ∀ t ∈ ts, t.IsOf (· == .identifier)) :
    (ts.map fun t => Form.word t.lexeme).map token = ts.map (Token.relabel .unlabeling) := by
  rw [List.map_map]
  exact List.map_congr_left fun t mem => (names t mem).1.ofText_lexeme

mutual

/-- **The form of a legible statement** says what it is but for labels and missing increments. -/
theorem Stmt.stmt_toForm : (s : Stmt) → s.Legible →
    s.toForm.stmt = s.filled.relabel .unlabeling
  | .expression value, legible => by
    -- a missing increment is shown as `nil`, and that is what it is read as
    show Stmt.expression value.toForm.expr = _
    rcases legible with rfl | legible
    · rfl
    · rw [value.expr_toForm legible, Stmt.filled, legible.orNil_eq, Stmt.relabel]
  | .print value, legible => by
    show Stmt.print value.toForm.expr = _
    rw [value.expr_toForm legible, Stmt.filled, Stmt.relabel]
  | .var name initializer, legible => by
    rw [Stmt.filled, Stmt.relabel, ← legible.1.1.ofText_lexeme]
    rcases legible.2 with rfl | legible
    · rfl
    · rw [← initializer.expr_toForm legible, Stmt.toForm, legible.optionalForm_eq]
      rfl
  | .block body, legible => by
    show Stmt.block (Form.stmts (bodyForms body)) = _
    rw [stmts_bodyForms body legible]
    rfl
  | .branch condition thenBranch elseBranch, legible => by
    have first := condition.expr_toForm legible.1
    have second := thenBranch.stmt_toForm legible.2.1
    have third := elseBranch.stmt_toForm legible.2.2
    -- the head says whether there is an `else`
    rw [Stmt.filled, Stmt.relabel, ← first, ← second, ← third]
    cases elseBranch with
    | absent => rfl
    | _ => rfl
  | .loop condition body, legible => by
    show Stmt.loop condition.toForm.expr body.toForm.stmt = _
    rw [condition.expr_toForm legible.1, body.stmt_toForm legible.2, Stmt.filled, Stmt.relabel]
  | .function name params body, legible => by
    show Stmt.function (.ofText name.lexeme)
      ((params.map fun t => Form.word t.lexeme).map Form.token) (Form.stmts (bodyForms body)) = _
    rw [legible.1.1.ofText_lexeme, Form.token_lexemes legible.2.1,
      stmts_bodyForms body legible.2.2]
    rfl
  | .ret keyword value, legible => by
    have word : Token.ofText "return" = keyword.relabel .unlabeling := legible.1.ofText_eq rfl
    rw [Stmt.filled, Stmt.relabel, ← word]
    rcases legible.2 with rfl | legible
    · rfl
    · rw [← value.expr_toForm legible, Stmt.toForm, legible.optionalForm_eq]
      rfl
  | .absent, _ => rfl

/-- The same for the statements of a body. -/
theorem stmts_bodyForms : (ss : List Stmt) → bodyLegible ss →
    Form.stmts (bodyForms ss) = shown ss
  | [], _ => rfl
  | s :: rest, legible => by
    show s.toForm.stmt :: Form.stmts (bodyForms rest) = s.filled.relabel .unlabeling :: shown rest
    rw [s.stmt_toForm legible.1, stmts_bodyForms rest legible.2]

end

/-! ## Programs -/

/-- **A legible program is read back** from its rendering, but for what is not shown. -/
theorem stmts_read_renderProgram {program : Program} (legible : bodyLegible program) :
    Form.stmts (Form.read (renderProgram program).toList) = shown program := by
  have text : (renderProgram program).toList
      = ['\n'].intercalate (Form.texts (bodyForms program)) := by
    rw [renderProgram, String.toList_intercalate, Form.map_toList (shows_renderBody program)]
    rfl
  rw [text, Form.read_texts (allClear_bodyForms program legible), stmts_bodyForms program legible]

/-- **Renderings tell programs apart.** Take the programs that are read from two sources, neither
of which has a string in it or a number that is infinity. If they are rendered alike, they are the
same but for the numbers of occurrences, the lines of tokens, and `nil` in place of the missing
increment of a `for` loop. It does not matter whether anything was reported. -/
theorem renderings_tell_programs_apart {source source' : String} {firstId firstId' : OccurrenceId}
    (noStrings : ∀ t ∈ tokens source, t.kind ≠ .string)
    (noStrings' : ∀ t ∈ tokens source', t.kind ≠ .string)
    (finite : ∀ t ∈ tokens source, ∀ x, t.literal = some (.number x) →
      Double.ofFloat x ≠ .infinite false)
    (finite' : ∀ t ∈ tokens source', ∀ x, t.literal = some (.number x) →
      Double.ofFloat x ≠ .infinite false)
    (alike : renderProgram (parse (tokens source) firstId).program
      = renderProgram (parse (tokens source') firstId').program) :
    shown (parse (tokens source) firstId).program
      = shown (parse (tokens source') firstId').program := by
  have legible : bodyLegible (parse (tokens source) firstId).program := parse_legible
    (fun t mem inner => Token.plain_of_mem_tokens mem inner (noStrings t mem) (finite t mem))
    firstId
  have legible' : bodyLegible (parse (tokens source') firstId').program := parse_legible
    (fun t mem inner => Token.plain_of_mem_tokens mem inner (noStrings' t mem) (finite' t mem))
    firstId'
  rw [← stmts_read_renderProgram legible, ← stmts_read_renderProgram legible', alike]

/-- A `for` loop without an increment. -/
def incompleteLoop : String := "for (var i = true; i; ) print -i;"

/-- The same loop written out, on another line. -/
def writtenOutLoop : String := "\n\x7b var i = true; while (i) \x7b print -i; nil; \x7d \x7d"

theorem program_incompleteLoop :
    (parse (tokens incompleteLoop) 0).program
      = [.forLoop (.var (.onLine 1 .identifier "i") (.literal (.bool true)))
          (.var 0 (.onLine 1 .identifier "i")) .absent
          (.print (.unary (.onLine 1 .minus "-") (.var 1 (.onLine 1 .identifier "i"))))] := by
  have scanned : tokens incompleteLoop
      = [.onLine 1 .forWord "for", .onLine 1 .leftParen "(", .onLine 1 .varWord "var",
        .onLine 1 .identifier "i", .onLine 1 .equal "=", .onLine 1 .trueWord "true",
        .onLine 1 .semicolon ";", .onLine 1 .identifier "i", .onLine 1 .semicolon ";",
        .onLine 1 .rightParen ")", .onLine 1 .printWord "print", .onLine 1 .minus "-",
        .onLine 1 .identifier "i", .onLine 1 .semicolon ";", .endOfInput 1] := by
    decide +kernel
  rw [scanned]
  cbv

theorem program_writtenOutLoop :
    (parse (tokens writtenOutLoop) 5).program
      = [.block [.var (.onLine 2 .identifier "i") (.literal (.bool true)),
          .loop (.var 5 (.onLine 2 .identifier "i"))
            (.block [.print (.unary (.onLine 2 .minus "-") (.var 6 (.onLine 2 .identifier "i"))),
              .expression (.literal .nil)])]] := by
  have scanned : tokens writtenOutLoop
      = [.onLine 2 .leftBrace "\x7b", .onLine 2 .varWord "var", .onLine 2 .identifier "i",
        .onLine 2 .equal "=", .onLine 2 .trueWord "true", .onLine 2 .semicolon ";",
        .onLine 2 .whileWord "while", .onLine 2 .leftParen "(", .onLine 2 .identifier "i",
        .onLine 2 .rightParen ")", .onLine 2 .leftBrace "\x7b", .onLine 2 .printWord "print",
        .onLine 2 .minus "-", .onLine 2 .identifier "i", .onLine 2 .semicolon ";",
        .onLine 2 .nilWord "nil", .onLine 2 .semicolon ";", .onLine 2 .rightBrace "\x7d",
        .onLine 2 .rightBrace "\x7d", .endOfInput 2] := by
    decide +kernel
  rw [scanned]
  cbv

theorem renderings_tell_programs_apart_missing_increment :
    renderProgram (parse (tokens incompleteLoop) 0).program
        = renderProgram (parse (tokens writtenOutLoop) 5).program
      ∧ shown (parse (tokens incompleteLoop) 0).program
        = shown (parse (tokens writtenOutLoop) 5).program := by
  have alike : renderProgram (parse (tokens incompleteLoop) 0).program
      = renderProgram (parse (tokens writtenOutLoop) 5).program := by
    rw [program_incompleteLoop, program_writtenOutLoop]
    rfl
  have noStrings {ts : List Token} (all : (ts.all fun t => t.kind != .string) = true) :
      ∀ t ∈ ts, t.kind ≠ .string := fun t mem => bne_iff_ne.1 (List.all_eq_true.1 all t mem)
  have noNumbers {ts : List Token} (all : (ts.all fun t => t.literal.isNone) = true) :
      ∀ t ∈ ts, ∀ x, t.literal = some (.number x) → Double.ofFloat x ≠ .infinite false := by
    intro t mem x number
    have none := List.all_eq_true.1 all t mem
    rw [number] at none
    cases none
  exact ⟨alike, renderings_tell_programs_apart (noStrings (by decide +kernel))
    (noStrings (by decide +kernel)) (noNumbers (by decide +kernel)) (noNumbers (by decide +kernel))
    alike⟩

end Kix
