import Kix.Proofs.TokenClasses

/-!
# Segments that fit

A segment fits in front of a text (`Segment.Fits`) if it has its shape there, and is the longest
token if it is one. The first segment of a text fits in front of the others
(`Segment.fits_cut`), and no other segment of the text does (`Segment.Fits.first?_eq`).

So a text that is put together from segments does not have to be read to see that these are its
segments: it is enough that they fit (`segments_of_fits`). Tokens always fit in front of a blank
(`Spells.longestMatch_of_blank`).
-/

namespace Kix

namespace Segment

/-- **A segment fits** in front of a text. -/
structure Fits (s : Segment) (rest : List Char) : Prop where
  shape : s.Shape rest
  longest : ∀ kind lexeme literal, s = .token kind lexeme literal →
    LongestMatch kind lexeme literal rest

/-- What is cut off fits in front of what is left. -/
theorem fits_cut (first : Char) (rest : List Char) :
    (cut first rest).1.Fits (cut first rest).2 where
  shape := shape_cut first rest
  longest kind lexeme literal isToken := by
    have found : first? (first :: rest) = some (token kind lexeme literal, (cut first rest).2) :=
      congrArg some (Prod.ext isToken rfl)
    exact (first?_eq_token_iff.1 found).1

/-! ## What fits is cut off -/

/-- A blank is cut off alone. -/
theorem first?_blank {c : Char} (mem : c ∈ [' ', '\r', '\t', '\n']) (rest : List Char) :
    first? (c :: rest) = some (blank c, rest) := by
  have isBlank : isBlank c = true := by simpa [Segment.isBlank, or_assoc] using mem
  rw [first?, cut, if_pos isBlank]

/-- A line comment reaches up to the line end. -/
theorem first?_lineComment {body rest : List Char} (within : '\n' ∉ body)
    (ends : rest = [] ∨ rest.head? = some '\n') :
    first? ('/' :: '/' :: body ++ rest) = some (comment ('/' :: '/' :: body), rest) := by
  have stops : ∀ c after, rest = c :: after → (c != '\n') = false := by
    rintro c after rfl
    rcases ends with empty | newline
    · cases empty
    · cases newline
      rfl
  obtain ⟨taken, left⟩ := span_exact (forall_mem_bne within) stops
  show some (cutSlash ('/' :: (body ++ rest))) = _
  rw [cutSlash, taken, left]

/-- A comment is closed by the first `*/`. -/
theorem splitClose_of_not_infix {body : List Char} (first : ¬['*', '/'] <:+: body ++ ['*'])
    (rest : List Char) : splitClose (body ++ '*' :: '/' :: rest) = some (body, rest) := by
  induction body with
  | nil => rfl
  | cons c body ih =>
    rw [List.cons_append, List.infix_cons_iff, not_or] at first
    rw [List.cons_append, splitClose, ih first.2]
    · rfl
    · rintro after rfl slash
      -- behind the star comes a slash, which is in the comment as its end is not yet there
      cases body with
      | nil => cases slash
      | cons d body =>
        cases slash
        exact first.1 ⟨body ++ ['*'], rfl⟩

/-- There is no end of a comment in a text without one. -/
theorem splitClose_eq_none {cs : List Char} (never : ¬['*', '/'] <:+: cs) :
    splitClose cs = none := by
  refine Option.eq_none_iff_forall_ne_some.2 fun ⟨body, after⟩ found => never ?_
  rw [← splitClose_eq found]
  exact ⟨body, after, List.append_assoc _ _ _⟩

/-- A block comment reaches up to its first end. -/
theorem first?_blockComment {body : List Char} (first : ¬['*', '/'] <:+: body ++ ['*'])
    (rest : List Char) :
    first? ('/' :: '*' :: (body ++ ['*', '/']) ++ rest)
      = some (comment ('/' :: '*' :: (body ++ ['*', '/'])), rest) := by
  have text : '/' :: '*' :: (body ++ ['*', '/']) ++ rest
      = '/' :: '*' :: (body ++ '*' :: '/' :: rest) := by simp
  rw [text]
  show some (cutSlash ('*' :: (body ++ '*' :: '/' :: rest))) = _
  rw [cutSlash, splitClose_of_not_infix first]

/-- A block comment without an end takes all that is left. -/
theorem first?_openComment {body : List Char} (never : ¬['*', '/'] <:+: body) :
    first? ('/' :: '*' :: body) = some (openComment ('/' :: '*' :: body), []) := by
  show some (cutSlash ('*' :: body)) = _
  rw [cutSlash, splitClose_eq_none never]

/-- So does a string without a quote behind it. -/
theorem first?_openString {body : List Char} (never : '"' ∉ body) :
    first? ('"' :: body) = some (openString ('"' :: body), []) := by
  have left : body.dropWhile (· != '"') = [] :=
    List.dropWhile_eq_nil_iff.2 (forall_mem_bne never)
  show some (cutString body) = _
  rw [cutString, left]

/-- A character that begins no token does not become one by what follows it. -/
theorem first?_stray {c : Char} (unexpected : Unexpected c) (rest : List Char) :
    first? (c :: rest) = some (stray c, rest) := by
  have single : Kind.ofSymbolEqual? c = none := by
    have symbol := unexpected.notSymbol
    unfold Kind.ofSymbolEqual?
    split
    case h_5 => rfl
    all_goals cases symbol
  rw [first?, cut, unexpected.notBlank, if_neg Bool.false_ne_true, if_neg unexpected.notQuote,
    if_neg unexpected.notSlash, unexpected.notDigit, if_neg Bool.false_ne_true,
    unexpected.notWord, if_neg Bool.false_ne_true]
  unfold cutSymbol
  rw [single, unexpected.notSymbol]

/-- **A segment that fits is the first one.** -/
theorem Fits.first?_eq {s : Segment} {rest : List Char} (h : s.Fits rest) :
    first? (s.text ++ rest) = some (s, rest) := by
  cases h.shape with
  | token inner => exact (h.longest _ _ _ rfl).first?_eq
  | blank mem => exact first?_blank mem rest
  | lineComment within ends => exact first?_lineComment within ends
  | blockComment first => exact first?_blockComment first rest
  | stray unexpected => exact first?_stray unexpected rest
  | openString never =>
    rw [List.append_nil]
    exact first?_openString never
  | openComment never =>
    rw [List.append_nil]
    exact first?_openComment never

end Segment

/-- **The segments of a text** are one that fits and the segments of the rest. -/
theorem segments_of_fits {s : Segment} {rest : List Char} (h : s.Fits rest) :
    segments (s.text ++ rest) = s :: segments rest := by
  have found := h.first?_eq
  cases text : s.text ++ rest with
  | nil =>
    rw [text] at found
    cases found
  | cons c cs =>
    rw [text] at found
    have cut : Segment.cut c cs = (s, rest) := Option.some.inj found
    rw [segments, cut]

/-! ## Blanks in tokens

Only strings have blanks in them. So a blank is the end of any other token, and a string ends
where it does whatever follows. -/

namespace Spells

variable {kind kind' : Kind} {lexeme lexeme' : List Char} {literal literal' : Option Literal}

theorem ne_nil (h : Spells kind lexeme literal) : lexeme ≠ [] := by
  cases h with
  | operator listed =>
    rcases Kind.mem_operators_iff.1 listed with ⟨c, rfl, -⟩ | ⟨c, rfl, -⟩
    all_goals exact List.cons_ne_nil _ _
  | whole digits => exact digits.1
  | point digits => exact List.append_ne_nil_of_left_ne_nil digits.1 _
  | reserved listed =>
    obtain ⟨first, rest, word, -⟩ := isWord_of_listed listed
    exact word ▸ List.cons_ne_nil _ _
  | name isWord =>
    obtain ⟨first, rest, word, -⟩ := isWord
    exact word ▸ List.cons_ne_nil _ _
  | string => exact List.cons_ne_nil _ _

/-- No text is the end of the input. -/
theorem kind_ne_eof (h : Spells kind lexeme literal) : kind ≠ .eof := by
  cases h with
  | operator listed =>
    have all : ∀ p ∈ Kind.operators, p.2 ≠ .eof := by decide
    exact all _ listed
  | reserved listed =>
    have all : ∀ p ∈ Kind.reserved, p.2 ≠ .eof := by decide
    exact all _ listed
  | whole | point | name | string => decide

/-- Blanks and quotes are found in strings only, and a slash only by itself. -/
theorem string_or_bare (h : Spells kind lexeme literal) :
    (∃ body, '"' ∉ body ∧ lexeme = '"' :: (body ++ ['"'])) ∨ lexeme = ['/']
      ∨ ∀ c ∈ lexeme, c ∉ [' ', '\r', '\t', '\n', '"', '/'] := by
  have digit {cs : List Char} (digits : IsDigits cs) :
      ∀ c ∈ cs, c ∉ [' ', '\r', '\t', '\n', '"', '/'] :=
    fun c mem => Segment.not_mem_of_test (digits.2 c mem) (by decide)
  have letter {cs : List Char} (isWord : IsWord cs) :
      ∀ c ∈ cs, c ∉ [' ', '\r', '\t', '\n', '"', '/'] := by
    obtain ⟨first, rest, rfl, start, inside⟩ := isWord_iff.1 isWord
    refine List.forall_mem_cons.2 ⟨Segment.not_mem_of_test start (by decide), fun c mem => ?_⟩
    exact Segment.not_mem_of_test (inside c mem) (by decide)
  cases h with
  | operator listed =>
    have all : ∀ p ∈ Kind.operators,
        p.1 = ['/'] ∨ p.1.any (List.contains [' ', '\r', '\t', '\n', '"', '/']) = false := by
      decide
    refine .inr ((all _ listed).imp_right fun bare c mem mark => ?_)
    exact List.any_eq_false.1 bare c mem (List.contains_iff_mem.2 mark)
  | whole digits => exact .inr (.inr (digit digits))
  | point digits digits' =>
    refine .inr (.inr (List.forall_mem_append.2 ⟨digit digits, ?_⟩))
    exact List.forall_mem_cons.2 ⟨by decide, digit digits'⟩
  | reserved listed => exact .inr (.inr (letter (isWord_of_listed listed)))
  | name isWord => exact .inr (.inr (letter isWord))
  | string inside => exact .inl ⟨_, inside, rfl⟩

/-- A string does not go on behind its end. -/
theorem eq_of_isPrefix_of_blank (h : Spells kind lexeme literal)
    (h' : Spells kind' lexeme' literal') (within : lexeme <+: lexeme') {c : Char}
    (blank : c ∈ [' ', '\r', '\t', '\n']) (mem : c ∈ lexeme') : lexeme = lexeme' := by
  obtain ⟨body', inside', rfl⟩ :
      ∃ body, '"' ∉ body ∧ lexeme' = '"' :: (body ++ ['"']) := by
    rcases h'.string_or_bare with string | rfl | bare
    · exact string
    · cases List.mem_singleton.1 mem
      exact absurd blank (by decide)
    · exact absurd (List.mem_append_left ['"', '/'] blank) (bare c mem)
  obtain ⟨first, more, rfl⟩ := List.exists_cons_of_ne_nil h.ne_nil
  obtain ⟨rfl, behind⟩ := List.cons_prefix_cons.1 within
  obtain ⟨body, rfl⟩ : ∃ body, more = body ++ ['"'] := by
    rcases h.string_or_bare with ⟨body, -, same⟩ | same | bare
    · exact ⟨body, (List.cons.inj same).2⟩
    · cases same
    · exact absurd (bare '"' List.mem_cons_self) (by decide)
  rcases List.prefix_concat_iff.1 behind with same | short
  · rw [same]
  · exact absurd (short.subset (List.mem_append_right _ List.mem_cons_self)) inside'

/-- No token but the slash begins with one. -/
theorem eq_nil_of_slash {more : List Char} (h : Spells kind ('/' :: more) literal) : more = [] := by
  rcases h.string_or_bare with ⟨body, -, same⟩ | same | bare
  · cases same
  · exact (List.cons.inj same).2
  · exact absurd (bare '/' List.mem_cons_self) (by decide)

/-- **A token is the longest one where a blank follows it, or nothing.** -/
theorem longestMatch_of_blank (h : Spells kind lexeme literal) {rest : List Char}
    (blank : ∀ c after, rest = c :: after → c ∈ [' ', '\r', '\t', '\n']) :
    LongestMatch kind lexeme literal rest := by
  have noComment {c : Char} (other : c ∉ [' ', '\r', '\t', '\n']) :
      ¬['/', c] <+: lexeme ++ rest := by
    obtain ⟨first, more, rfl⟩ := List.exists_cons_of_ne_nil h.ne_nil
    rintro ⟨after, same⟩
    obtain ⟨rfl, behind⟩ := List.cons.inj same
    rw [h.eq_nil_of_slash] at behind
    exact other (blank c after behind.symm)
  refine ⟨h, ?_, noComment (by decide), noComment (by decide)⟩
  intro kind' lexeme' literal' h' within
  by_contra longer
  obtain ⟨more, rfl⟩ := List.prefix_of_prefix_length_le (List.prefix_append lexeme rest) within
    (Nat.le_of_not_le longer)
  cases more with
  | nil => exact longer (Nat.le_of_eq (congrArg List.length (List.append_nil lexeme)))
  | cons c more =>
    obtain ⟨after, follows⟩ := (List.prefix_append_right_inj lexeme).1 within
    have same := h.eq_of_isPrefix_of_blank h' (List.prefix_append _ _)
      (blank c (more ++ after) follows.symm) (List.mem_append_right _ List.mem_cons_self)
    exact longer (Nat.le_of_eq (congrArg List.length same.symm))

end Spells

end Kix
