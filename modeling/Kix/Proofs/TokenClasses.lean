import Kix.Proofs.NearestDoubles
import Kix.Proofs.PlacedItems

/-!
# The classes of tokens

Which texts are tokens, of which kind, and what they denote is said by `Spells`, with no regard
to how a text is read: an operator is one of a table, a number is digits with or without a point
among them, a word is reserved or not, and a string stands between two quotes.

Several prefixes of one text may be tokens. The token that a text begins with is the longest of
them (`LongestMatch`), unless the text begins with a comment, and this is what is cut off
(`Segment.first?_eq_token_iff`).
-/

namespace Kix

/-- **The operators and separators.** -/
def Kind.operators : List (List Char × Kind) :=
  [(['('], leftParen), ([')'], rightParen), (['{'], leftBrace), (['}'], rightBrace),
    ([','], comma), (['.'], dot), (['-'], minus), (['+'], plus), ([';'], semicolon),
    (['/'], slash), (['*'], star), (['?'], question), ([':'], colon),
    (['!'], bang), (['!', '='], bangEqual), (['='], equal), (['=', '='], equalEqual),
    (['>'], greater), (['>', '='], greaterEqual), (['<'], less), (['<', '='], lessEqual)]

/-- Digits, at least one. -/
def IsDigits (cs : List Char) : Prop := cs ≠ [] ∧ ∀ c ∈ cs, c.isDigit = true

/-- A letter or an underscore, and then letters, digits and underscores. -/
def IsWord (cs : List Char) : Prop :=
  ∃ first rest, cs = first :: rest ∧ (first.isAlpha = true ∨ first = '_')
    ∧ ∀ c ∈ rest, c.isAlphanum = true ∨ c = '_'

/-- **The classes of tokens**: the kind of a text that is a token, and what it denotes. -/
inductive Spells : Kind → List Char → Option Literal → Prop where
  | operator {kind : Kind} {lexeme : List Char} (listed : (lexeme, kind) ∈ Kind.operators) :
    Spells kind lexeme none
  | whole {whole : List Char} {x : Float} (digits : IsDigits whole)
    (denotes : Number.Denotes whole [] x) : Spells .number whole (some (.number x))
  | point {whole fraction : List Char} {x : Float} (digits : IsDigits whole)
    (digits' : IsDigits fraction) (denotes : Number.Denotes whole fraction x) :
    Spells .number (whole ++ '.' :: fraction) (some (.number x))
  | reserved {word : String} {kind : Kind} (listed : (word, kind) ∈ Kind.reserved) :
    Spells kind word.toList none
  | name {word : String} (isWord : IsWord word.toList)
    (free : ∀ kind, (word, kind) ∉ Kind.reserved) : Spells .identifier word.toList none
  | string {body : List Char} (inside : '"' ∉ body) :
    Spells .string ('"' :: (body ++ ['"'])) (some (.string (.ofList body)))

/-- **The longest prefix that is a token**, of a text that begins with it and goes on with
`rest`. What begins a comment begins no token. -/
structure LongestMatch (kind : Kind) (lexeme : List Char) (literal : Option Literal)
    (rest : List Char) : Prop where
  spells : Spells kind lexeme literal
  longest : ∀ kind' lexeme' literal', Spells kind' lexeme' literal' →
    lexeme' <+: lexeme ++ rest → lexeme'.length ≤ lexeme.length
  notLineComment : ¬['/', '/'] <+: lexeme ++ rest
  notBlockComment : ¬['/', '*'] <+: lexeme ++ rest

/-! ## Operators -/

namespace Kind

/-- The operators are those of one character, and those with `=` behind it. -/
theorem mem_operators_iff {lexeme : List Char} {kind : Kind} :
    (lexeme, kind) ∈ operators
      ↔ (∃ c, lexeme = [c] ∧ ofSymbol? c = some kind)
        ∨ ∃ c, lexeme = [c, '='] ∧ ofSymbolEqual? c = some kind := by
  constructor
  · have all : ∀ p ∈ operators,
        p.1.tail = [] ∧ p.1.head?.bind ofSymbol? = some p.2
        ∨ p.1.tail = ['='] ∧ p.1.head?.bind ofSymbolEqual? = some p.2 := by
      decide
    intro listed
    cases lexeme with
    | nil => rcases all _ listed with ⟨-, found⟩ | ⟨-, found⟩ <;> cases found
    | cons c rest =>
      rcases all _ listed with ⟨single, found⟩ | ⟨double, found⟩
      · exact .inl ⟨c, congrArg (c :: ·) single, found⟩
      · exact .inr ⟨c, congrArg (c :: ·) double, found⟩
  · rintro (⟨c, rfl, found⟩ | ⟨c, rfl, found⟩)
    · unfold ofSymbol? at found
      split at found <;> cases found <;> decide
    · unfold ofSymbolEqual? at found
      split at found <;> cases found <;> decide

/-! ## Words -/

/-- A reserved word has its own kind. -/
theorem ofWord_of_listed {word : String} {kind : Kind} (listed : (word, kind) ∈ reserved) :
    ofWord word = kind := by
  have all : ∀ p ∈ reserved, ofWord p.1 = p.2 := by decide
  exact all _ listed

/-- Any other word is a name. -/
theorem ofWord_of_free {word : String} (free : ∀ kind, (word, kind) ∉ reserved) :
    ofWord word = identifier := by
  have absent : reserved.lookup word = none := by
    refine List.lookup_eq_none_iff.2 fun p mem => bne_iff_ne.2 ?_
    rintro rfl
    exact free p.2 mem
  unfold ofWord
  rw [absent]
  rfl

end Kind

/-- A word by its first character and the others. -/
theorem isWord_iff {cs : List Char} :
    IsWord cs ↔ ∃ first rest, cs = first :: rest ∧ Segment.isWordStart first = true
      ∧ ∀ c ∈ rest, Segment.isWordRest c = true := by
  simp only [IsWord, Segment.isWordStart, Segment.isWordRest, Bool.or_eq_true, beq_iff_eq]

theorem isWord_of_listed {word : String} {kind : Kind} (listed : (word, kind) ∈ Kind.reserved) :
    IsWord word.toList := by
  have all : ∀ p ∈ Kind.reserved, p.1.toList.head?.any Segment.isWordStart = true
      ∧ p.1.toList.tail.all Segment.isWordRest = true := by
    decide
  obtain ⟨start, inside⟩ := all _ listed
  cases letters : word.toList with
  | nil =>
    rw [letters] at start
    cases start
  | cons first rest =>
    rw [letters] at start inside
    exact isWord_iff.2 ⟨first, rest, rfl, start, List.all_eq_true.1 inside⟩

/-- A word goes on. -/
theorem IsWord.concat {cs : List Char} {c : Char} (h : IsWord cs)
    (goesOn : Segment.isWordRest c = true) : IsWord (cs ++ [c]) := by
  obtain ⟨first, rest, rfl, start, inside⟩ := isWord_iff.1 h
  refine isWord_iff.2 ⟨first, rest ++ [c], rfl, start, ?_⟩
  exact List.forall_mem_append.2 ⟨inside, List.forall_mem_singleton.2 goesOn⟩

theorem IsDigits.concat {cs : List Char} {c : Char} (h : IsDigits cs) (goesOn : c.isDigit = true) :
    IsDigits (cs ++ [c]) :=
  ⟨List.append_ne_nil_of_left_ne_nil h.1 _,
    List.forall_mem_append.2 ⟨h.2, List.forall_mem_singleton.2 goesOn⟩⟩

/-- Every word is a token, of the kind of a reserved word if it is one. -/
theorem Spells.word {cs : List Char} (isWord : IsWord cs) :
    Spells (.ofWord (.ofList cs)) cs none := by
  obtain ⟨word, rfl⟩ : ∃ word : String, cs = word.toList := ⟨.ofList cs, String.toList_ofList.symm⟩
  rw [String.ofList_toList]
  by_cases listed : ∃ kind, (word, kind) ∈ Kind.reserved
  · obtain ⟨kind, listed⟩ := listed
    rw [Kind.ofWord_of_listed listed]
    exact .reserved listed
  · have free := not_exists.1 listed
    rw [Kind.ofWord_of_free free]
    exact .name isWord free

/-! ## What is cut off is a token -/

theorem Spells.numeral {whole : List Char} (digits : IsDigits whole) :
    Spells .number whole (some (.number (Number.ofNumeral whole []))) :=
  .whole digits (Number.denotes_ofNumeral whole [])

/-- A number with a fraction. -/
theorem Spells.decimal {whole fraction : List Char} (digits : IsDigits whole)
    (digits' : IsDigits fraction) :
    Spells .number (whole ++ '.' :: fraction)
      (some (.number (Number.ofNumeral whole fraction))) :=
  .point digits digits' (Number.denotes_ofNumeral whole fraction)

namespace Segment

/-- A token among segments belongs to its class. -/
def Spelled : Segment → Prop
  | token kind lexeme literal => Spells kind lexeme literal
  | _ => True

variable {first : Char}

/-- A string ends at a quote. -/
theorem eq_quote_of_dropWhile {rest after : List Char} {quote : Char}
    (h : rest.dropWhile (· != '"') = quote :: after) : quote = '"' := by
  have stops := List.head?_dropWhile_not (· != '"') rest
  rw [h] at stops
  simpa using stops

/-- A string is spelled with its quotes. -/
theorem spelled_cutString (rest : List Char) : (cutString rest).1.Spelled := by
  unfold cutString
  dsimp only
  split
  · next quote after quoted =>
    rw [eq_quote_of_dropWhile quoted]
    exact .string (not_mem_takeWhile_bne '"' rest)
  · trivial

theorem spelled_cutSlash (rest : List Char) : (cutSlash rest).1.Spelled := by
  unfold cutSlash
  split
  · trivial
  · split <;> trivial
  · exact .operator (by decide)

theorem isDigits_takeWhile (isDigit : first.isDigit = true) (rest : List Char) :
    IsDigits (first :: rest.takeWhile Char.isDigit) :=
  ⟨List.cons_ne_nil _ _, forall_mem_digits isDigit rest⟩

/-- **A number is spelled with its digits.** -/
theorem spelled_cutNumber (isDigit : first.isDigit = true) (rest : List Char) :
    (cutNumber first rest).1.Spelled := by
  have digits := isDigits_takeWhile isDigit rest
  rcases fraction_or_whole rest with ⟨digit, others, after, isDigit'⟩ | whole
  · rw [cutNumber_of_fraction after isDigit']
    exact .decimal digits (isDigits_takeWhile isDigit' others)
  · rw [cutNumber_of_whole whole]
    exact .numeral digits

/-- A word is spelled as it is. -/
theorem spelled_cutWord (isWord : isWordStart first = true) (rest : List Char) :
    (cutWord first rest).1.Spelled :=
  .word (isWord_iff.2 ⟨first, _, rfl, isWord, fun _ => List.mem_takeWhile_imp⟩)

/-- An operator is spelled as it is listed. -/
theorem spelled_cutSymbol (first : Char) (rest : List Char) :
    (cutSymbol first rest).1.Spelled := by
  unfold cutSymbol
  split
  · next found => exact .operator (Kind.mem_operators_iff.2 (.inr ⟨first, rfl, found⟩))
  split
  · next found => exact .operator (Kind.mem_operators_iff.2 (.inl ⟨first, rfl, found⟩))
  · trivial

/-- **A token that is cut off belongs to its class.** -/
theorem spelled_cut (first : Char) (rest : List Char) : (cut first rest).1.Spelled := by
  unfold cut
  split
  · trivial
  split
  · exact spelled_cutString rest
  split
  · exact spelled_cutSlash rest
  split
  · next isDigit => exact spelled_cutNumber isDigit rest
  split
  · next isWord => exact spelled_cutWord isWord rest
  · exact spelled_cutSymbol first rest

/-! ## The longest token is cut off -/

/-- A stretch of characters that the next one does not belong to. -/
theorem span_exact {p : Char → Bool} {body rest : List Char} (inside : ∀ c ∈ body, p c = true)
    (stops : ∀ c after, rest = c :: after → p c = false) :
    (body ++ rest).takeWhile p = body ∧ (body ++ rest).dropWhile p = rest := by
  rw [List.takeWhile_append_of_pos inside, List.dropWhile_append_of_pos inside]
  cases rest with
  | nil => exact ⟨List.append_nil body, rfl⟩
  | cons c after =>
    have stop : ¬p c = true := Bool.not_eq_true _ ▸ stops c after rfl
    rw [List.takeWhile_cons_of_neg stop, List.dropWhile_cons_of_neg stop]
    exact ⟨List.append_nil body, rfl⟩

/-- Text without a character goes on until it. -/
theorem forall_mem_bne {c : Char} {cs : List Char} (h : c ∉ cs) : ∀ d ∈ cs, (d != c) = true := by
  intro d mem
  refine bne_iff_ne.2 ?_
  rintro rfl
  exact h mem

/-- The first segment of a text and what is left, if the text is not empty. -/
def first? : List Char → Option (Segment × List Char)
  | [] => none
  | c :: cs => some (cut c cs)

theorem not_mem_of_test {p : Char → Bool} {cs : List Char} (passes : p first = true)
    (fails : cs.any p = false) : first ∉ cs := fun mem => List.any_eq_false.1 fails first mem passes

/-- What begins neither with a blank nor with a quote or a slash. -/
theorem cut_of_test {p : Char → Bool} (passes : p first = true)
    (fails : [' ', '\r', '\t', '\n', '"', '/'].any p = false) (rest : List Char) :
    cut first rest
      = if first.isDigit then cutNumber first rest
        else if isWordStart first then cutWord first rest
        else cutSymbol first rest := by
  have other := not_mem_of_test passes fails
  simp only [List.mem_cons, List.not_mem_nil, or_false, not_or] at other
  obtain ⟨space, ret, tab, newline, quote, slash⟩ := other
  have notBlank : ¬isBlank first = true := by simp [isBlank, space, ret, tab, newline]
  unfold cut
  rw [if_neg notBlank, if_neg quote, if_neg slash]

/-- A digit begins a number. -/
theorem cut_of_digit (isDigit : first.isDigit = true) (rest : List Char) :
    cut first rest = cutNumber first rest := by
  rw [cut_of_test isDigit (by decide), if_pos isDigit]

/-- Letters and the underscore are no digits. -/
theorem isDigit_eq_false (isWord : isWordStart first = true) : first.isDigit = false := by
  refine Bool.eq_false_iff.2 fun isDigit => ?_
  unfold isWordStart Char.isAlpha Char.isUpper Char.isLower at isWord
  unfold Char.isDigit at isDigit
  simp only [Bool.or_eq_true, Bool.and_eq_true, decide_eq_true_eq, beq_iff_eq, ge_iff_le,
    UInt32.le_iff_toNat_le] at isWord isDigit
  rcases isWord with (upper | lower) | rfl
  · exact absurd (Nat.le_trans upper.1 isDigit.2) (by decide)
  · exact absurd (Nat.le_trans lower.1 isDigit.2) (by decide)
  · exact absurd isDigit.2 (by decide)

/-- A letter begins a word. -/
theorem cut_of_word (isWord : isWordStart first = true) (rest : List Char) :
    cut first rest = cutWord first rest := by
  rw [cut_of_test isWord (by decide), isDigit_eq_false isWord, if_neg Bool.false_ne_true,
    if_pos isWord]

/-- An operator begins with one of its characters, the slash apart. -/
theorem cut_of_symbol {kind : Kind} (symbol : Kind.ofSymbol? first = some kind)
    (other : first ≠ '/') (rest : List Char) : cut first rest = cutSymbol first rest := by
  have apart : first.isDigit = false ∧ isWordStart first = false := by
    unfold Kind.ofSymbol? at symbol
    split at symbol
    case h_18 => cases symbol
    all_goals decide
  rw [cut_of_test (p := fun c => (Kind.ofSymbol? c).isSome && c != '/') (by simp [symbol, other])
    (by decide), apart.1, apart.2]
  rfl

end Segment

namespace LongestMatch

variable {kind : Kind} {lexeme : List Char} {literal : Option Literal} {rest : List Char}

/-- A longer token does not follow. -/
theorem stops (h : LongestMatch kind lexeme literal rest) {kind' : Kind}
    {literal' : Option Literal} {more : List Char} (longer : Spells kind' (lexeme ++ more) literal')
    (nonempty : more ≠ []) (after : List Char) : rest ≠ more ++ after := by
  rintro rfl
  have within := h.longest _ _ _ longer ⟨after, List.append_assoc _ _ _⟩
  rw [List.length_append] at within
  have := List.length_pos_iff.2 nonempty
  omega

/-- What can be added to a token does not follow it. -/
theorem boundary (h : LongestMatch kind lexeme literal rest) {p : Char → Bool}
    (goesOn : ∀ c, p c = true → ∃ kind' literal', Spells kind' (lexeme ++ [c]) literal') :
    ∀ c after, rest = c :: after → p c = false := by
  intro c after follows
  refine Bool.eq_false_iff.2 fun passes => ?_
  obtain ⟨kind', literal', longer⟩ := goesOn c passes
  exact h.stops longer (List.cons_ne_nil _ _) after follows

/-- A word ends where no letter, digit or underscore follows. -/
theorem first?_word (h : LongestMatch kind lexeme literal rest) (isWord : IsWord lexeme) :
    Segment.first? (lexeme ++ rest)
      = some (.token (.ofWord (.ofList lexeme)) lexeme none, rest) := by
  have boundary := h.boundary fun c goesOn => ⟨_, _, .word (isWord.concat goesOn)⟩
  obtain ⟨first, letters, rfl, start, inside⟩ := isWord_iff.1 isWord
  obtain ⟨taken, left⟩ := Segment.span_exact inside boundary
  rw [List.cons_append, Segment.first?, Segment.cut_of_word start, Segment.cutWord, taken, left]

/-- A number ends where no digit follows, and no point with a digit behind it. -/
theorem first?_whole {whole : List Char} (h : LongestMatch kind whole literal rest)
    (digits : IsDigits whole) :
    Segment.first? (whole ++ rest)
      = some (.token .number whole (some (.number (Number.ofNumeral whole []))), rest) := by
  have boundary := h.boundary fun c goesOn => ⟨_, _, .numeral (digits.concat goesOn)⟩
  have noPoint : ∀ digit after, rest = '.' :: digit :: after → digit.isDigit = false := by
    intro digit after follows
    refine Bool.eq_false_iff.2 fun goesOn => ?_
    have fraction : IsDigits [digit] :=
      ⟨List.cons_ne_nil _ _, List.forall_mem_singleton.2 goesOn⟩
    exact h.stops (.decimal digits fraction) (List.cons_ne_nil _ _) after follows
  obtain ⟨first, others, rfl⟩ := List.exists_cons_of_ne_nil digits.1
  obtain ⟨isDigit, inside⟩ := List.forall_mem_cons.1 digits.2
  obtain ⟨taken, left⟩ := Segment.span_exact inside boundary
  rw [← left] at noPoint
  rw [List.cons_append, Segment.first?, Segment.cut_of_digit isDigit,
    Segment.cutNumber_of_whole noPoint, taken, left]

/-- A number with a point ends where no digit follows. -/
theorem first?_point {whole fraction : List Char}
    (h : LongestMatch kind (whole ++ '.' :: fraction) literal rest) (digits : IsDigits whole)
    (digits' : IsDigits fraction) :
    Segment.first? (whole ++ '.' :: fraction ++ rest)
      = some (.token .number (whole ++ '.' :: fraction)
          (some (.number (Number.ofNumeral whole fraction))), rest) := by
  have boundary := h.boundary (p := Char.isDigit) fun c goesOn => by
    rw [List.append_assoc]
    exact ⟨_, _, .decimal digits (digits'.concat goesOn)⟩
  obtain ⟨first, others, rfl⟩ := List.exists_cons_of_ne_nil digits.1
  obtain ⟨digit, others', rfl⟩ := List.exists_cons_of_ne_nil digits'.1
  obtain ⟨isDigit, inside⟩ := List.forall_mem_cons.1 digits.2
  obtain ⟨isDigit', inside'⟩ := List.forall_mem_cons.1 digits'.2
  have point : ∀ c after, '.' :: digit :: (others' ++ rest) = c :: after → c.isDigit = false := by
    rintro c after ⟨⟩
    rfl
  obtain ⟨taken, left⟩ := Segment.span_exact inside point
  obtain ⟨taken', left'⟩ := Segment.span_exact inside' boundary
  have text : first :: others ++ '.' :: digit :: others' ++ rest
      = first :: (others ++ '.' :: digit :: (others' ++ rest)) := by simp
  rw [text, Segment.first?, Segment.cut_of_digit isDigit,
    Segment.cutNumber_of_fraction left isDigit', taken, taken', left']
  rfl

/-- A string ends at the first quote. -/
theorem first?_string {body : List Char} (inside : '"' ∉ body) (rest : List Char) :
    Segment.first? ('"' :: (body ++ ['"']) ++ rest)
      = some (.token .string ('"' :: (body ++ ['"'])) (some (.string (.ofList body))), rest) := by
  have quote : ∀ c after, '"' :: rest = c :: after → (c != '"') = false := by
    rintro c after ⟨⟩
    rfl
  obtain ⟨taken, left⟩ := Segment.span_exact (Segment.forall_mem_bne inside) quote
  have text : '"' :: (body ++ ['"']) ++ rest = '"' :: (body ++ '"' :: rest) := by simp
  rw [text]
  show some (Segment.cutString _) = _
  rw [Segment.cutString, taken, left]

/-- A slash is a token where no comment begins. -/
theorem first?_slash (h : LongestMatch .slash ['/'] none rest) :
    Segment.first? ('/' :: rest) = some (.token .slash ['/'] none, rest) := by
  show some (Segment.cutSlash rest) = _
  rw [Segment.cutSlash]
  · rintro after rfl
    exact h.notLineComment ⟨after, rfl⟩
  · rintro after rfl
    exact h.notBlockComment ⟨after, rfl⟩

/-- An operator that is one character is not followed by what would make it one of two. -/
theorem first?_symbol {c : Char} (h : LongestMatch kind [c] none rest)
    (symbol : Kind.ofSymbol? c = some kind) :
    Segment.first? (c :: rest) = some (.token kind [c] none, rest) := by
  by_cases slash : c = '/'
  · subst slash
    cases symbol
    exact h.first?_slash
  rw [Segment.first?, Segment.cut_of_symbol symbol slash]
  cases double : Kind.ofSymbolEqual? c with
  | none =>
    unfold Segment.cutSymbol
    rw [double, symbol]
  | some kind' =>
    have single : ∀ after, rest ≠ '=' :: after := fun after =>
      h.stops (.operator (Kind.mem_operators_iff.2 (.inr ⟨c, rfl, double⟩)))
        (List.cons_ne_nil _ _) after
    rw [Segment.cutSymbol_of_ne single, symbol]
    rfl

/-- An operator of two characters. -/
theorem first?_double {c : Char} (double : Kind.ofSymbolEqual? c = some kind)
    (rest : List Char) :
    Segment.first? (c :: '=' :: rest) = some (.token kind [c, '='] none, rest) := by
  have symbol : c ≠ '/' ∧ ∃ kind', Kind.ofSymbol? c = some kind' := by
    unfold Kind.ofSymbolEqual? at double
    split at double
    case h_5 => cases double
    all_goals exact ⟨by decide, _, rfl⟩
  obtain ⟨other, kind', symbol⟩ := symbol
  rw [Segment.first?, Segment.cut_of_symbol symbol other]
  unfold Segment.cutSymbol
  rw [double]
  rfl

/-- **The longest token is what is cut off.** -/
theorem first?_eq (h : LongestMatch kind lexeme literal rest) :
    Segment.first? (lexeme ++ rest) = some (.token kind lexeme literal, rest) := by
  cases h.spells with
  | operator listed =>
    rcases Kind.mem_operators_iff.1 listed with ⟨c, rfl, symbol⟩ | ⟨c, rfl, double⟩
    · exact h.first?_symbol symbol
    · exact first?_double double rest
  | whole digits denotes =>
    rw [h.first?_whole digits, (Number.denotes_iff _ _).1 denotes]
  | point digits digits' denotes =>
    rw [h.first?_point digits digits', (Number.denotes_iff _ _).1 denotes]
  | reserved listed =>
    rw [h.first?_word (isWord_of_listed listed), String.ofList_toList,
      Kind.ofWord_of_listed listed]
  | name isWord free =>
    rw [h.first?_word isWord, String.ofList_toList, Kind.ofWord_of_free free]
  | string inside => exact first?_string inside rest

end LongestMatch

/-- Where some prefix is a token there is a longest one. -/
theorem exists_longestMatch {text : List Char} (notLineComment : ¬['/', '/'] <+: text)
    (notBlockComment : ¬['/', '*'] <+: text) {kind : Kind} {lexeme : List Char}
    {literal : Option Literal} (spells : Spells kind lexeme literal) (within : lexeme <+: text) :
    ∃ kind' lexeme' literal' rest, LongestMatch kind' lexeme' literal' rest
      ∧ lexeme' ++ rest = text := by
  induction left : text.length - lexeme.length using Nat.strong_induction_on
    generalizing kind lexeme literal with
  | _ left ih =>
    by_cases longest : ∀ kind' lexeme' literal', Spells kind' lexeme' literal' →
        lexeme' <+: text → lexeme'.length ≤ lexeme.length
    · obtain ⟨rest, rfl⟩ := within
      exact ⟨kind, lexeme, literal, rest,
        ⟨spells, longest, notLineComment, notBlockComment⟩, rfl⟩
    · push Not at longest
      obtain ⟨kind', lexeme', literal', spells', within', longer⟩ := longest
      have := within'.length_le
      exact ih (text.length - lexeme'.length) (by omega) spells' within' rfl

namespace Segment

/-- Where a comment begins no token is cut off. -/
theorem no_comment_of_first? {text rest : List Char} {kind : Kind} {lexeme : List Char}
    {literal : Option Literal} (h : first? text = some (token kind lexeme literal, rest)) :
    ¬['/', '/'] <+: text ∧ ¬['/', '*'] <+: text := by
  constructor
  · rintro ⟨more, rfl⟩
    cases h
  · rintro ⟨more, rfl⟩
    have comment : cutSlash ('*' :: more) = (token kind lexeme literal, rest) := Option.some.inj h
    rw [cutSlash] at comment
    split at comment <;> cases comment

/-- **The first segment is a token exactly if it is the longest one there.** -/
theorem first?_eq_token_iff {text rest : List Char} {kind : Kind} {lexeme : List Char}
    {literal : Option Literal} :
    first? text = some (token kind lexeme literal, rest)
      ↔ LongestMatch kind lexeme literal rest ∧ lexeme ++ rest = text := by
  constructor
  · intro h
    obtain ⟨notLine, notBlock⟩ := no_comment_of_first? h
    obtain ⟨first, others, rfl⟩ := List.exists_cons_of_ne_nil (l := text) fun empty => by
      rw [empty] at h
      cases h
    have cut : cut first others = (token kind lexeme literal, rest) := Option.some.inj h
    have spells := spelled_cut first others
    have whole := text_cut first others
    rw [cut] at spells whole
    -- there is a longest token, which is what is cut off
    obtain ⟨kind', lexeme', literal', rest', longest, same⟩ :=
      exists_longestMatch notLine notBlock spells ⟨rest, whole⟩
    have h' := longest.first?_eq
    rw [same, h] at h'
    cases h'
    exact ⟨longest, whole⟩
  · rintro ⟨longest, rfl⟩
    exact longest.first?_eq

end Segment

/-! ## The tokens of a text -/

namespace Segment

variable {seg : Segment} {line : Nat}

/-- The segment of a token. -/
theorem eq_of_item?_token {t : Token} (found : seg.item? line = some (.token t)) :
    seg = token t.kind t.lexeme.toList t.literal := by
  cases seg with
  | token kind lexeme literal =>
    cases found
    rw [String.toList_ofList]
  | blank c | comment lexeme | stray c | openString lexeme | openComment lexeme => cases found

theorem ne_token_of_item?_fault {r : Report} (found : seg.item? line = some (.fault r))
    (kind : Kind) (lexeme : List Char) (literal : Option Literal) :
    seg ≠ token kind lexeme literal := by
  rintro rfl
  cases found

/-- A segment is the first one of the text from there on. -/
theorem first?_of_segments {cs : List Char} {pre post : List Segment}
    (split : segments cs = pre ++ seg :: post) :
    first? (seg.text ++ post.flatMap text) = some (seg, post.flatMap text) := by
  obtain ⟨first, rest, -, cut⟩ := exists_cut_of_segments_eq split
  have whole := text_cut first rest
  rw [cut] at whole
  rw [whole, first?, cut]

end Segment

/-- A whole text that is a token is the longest one there. -/
theorem LongestMatch.of_spells {kind : Kind} {text : List Char} {literal : Option Literal}
    (spells : Spells kind text literal) (noComment : text.head? ≠ some '/') :
    LongestMatch kind text literal [] := by
  have noSlash (c : Char) : ¬['/', c] <+: text ++ [] := by
    rintro ⟨rest, begins⟩
    rw [List.append_nil] at begins
    rw [← begins] at noComment
    exact noComment rfl
  refine ⟨spells, fun _ lexeme' _ _ within => ?_, noSlash '/', noSlash '*'⟩
  rw [List.append_nil] at within
  exact within.length_le

/-- What is the longest token there is one where nothing follows. -/
theorem LongestMatch.alone {kind : Kind} {lexeme rest : List Char} {literal : Option Literal}
    (h : LongestMatch kind lexeme literal rest) : LongestMatch kind lexeme literal [] where
  spells := h.spells
  longest _ lexeme' _ _ within := by
    rw [List.append_nil] at within
    exact within.length_le
  notLineComment begins := by
    rw [List.append_nil] at begins
    exact h.notLineComment (begins.trans (List.prefix_append _ _))
  notBlockComment begins := by
    rw [List.append_nil] at begins
    exact h.notBlockComment (begins.trans (List.prefix_append _ _))

/-- **The text of a token determines what it is.** -/
theorem LongestMatch.determined {kind kind' : Kind} {lexeme rest rest' : List Char}
    {literal literal' : Option Literal} (h : LongestMatch kind lexeme literal rest)
    (h' : LongestMatch kind' lexeme literal' rest') : kind = kind' ∧ literal = literal' := by
  have first := h.alone.first?_eq
  rw [h'.alone.first?_eq] at first
  cases first
  exact ⟨rfl, rfl⟩

/-- A token of a text marks its end, or is a longest match. -/
theorem longestMatch_of_mem_tokens {source : String} {t : Token} (mem : t ∈ tokens source) :
    (∃ line, t = .endOfInput line)
      ∨ ∃ rest, LongestMatch t.kind t.lexeme.toList t.literal rest := by
  obtain ⟨item, mem, isToken⟩ := List.mem_filterMap.1 mem
  cases item with
  | fault r => cases isToken
  | token t' =>
    cases isToken
    obtain ⟨k, yielded⟩ := List.mem_iff_getElem?.1 mem
    rcases exists_segment_of_scan yielded with ⟨pre, seg, post, split, rfl, found⟩ | ⟨-, last⟩
    · have first := Segment.first?_of_segments split
      rw [Segment.eq_of_item?_token found] at first
      exact .inr ⟨_, (Segment.first?_eq_token_iff.1 first).1⟩
    · cases last
      exact .inl ⟨_, rfl⟩

/-- **Tokens are longest matches.** Where a token is yielded it is the longest one there, and
where a report is yielded there is none. -/
theorem tokens_are_longest_matches (source : String) (k : Nat) (item : Item)
    (inner : item.isEnd = false) (yielded : (scan source)[k]? = some item) :
    ∃ s before text after, Placed source k item s before text after
      ∧ (∀ t, item = .token t → LongestMatch t.kind text t.literal after)
      ∧ ∀ r, item = .fault r → ∀ kind lexeme literal rest, lexeme ++ rest = text ++ after →
        ¬LongestMatch kind lexeme literal rest := by
  rcases exists_segment_of_scan yielded with ⟨pre, seg, post, split, rfl, found⟩ | ⟨-, rfl⟩
  · have first := Segment.first?_of_segments split
    refine ⟨_, _, _, _, placed_of_segments split found, ?_, ?_⟩
    · rintro t rfl
      rw [Segment.eq_of_item?_token found] at first ⊢
      exact (Segment.first?_eq_token_iff.1 first).1
    · rintro r rfl kind lexeme literal rest same longest
      have token := longest.first?_eq
      rw [same, first] at token
      exact Segment.ne_token_of_item?_fault found _ _ _ (congrArg Prod.fst (Option.some.inj token))
  · cases inner

/-- A text in which every token could be cut short. -/
def tightTokens : String := "x<=1.5.or_else\"//\"/é"

theorem tokens_are_longest_matches_tight :
    ∃ s before text after,
      Placed tightTokens 4 (.token (.onLine 1 .identifier "or_else"))
        s before text after
      ∧ LongestMatch .identifier text none after := by
  have yielded : (scan tightTokens)[4]?
      = some (.token (.onLine 1 .identifier "or_else")) := by
    decide +kernel
  obtain ⟨s, before, text, after, placed, longest, -⟩ :=
    tokens_are_longest_matches _ _ _ rfl yielded
  exact ⟨s, before, text, after, placed, longest _ rfl⟩

end Kix
