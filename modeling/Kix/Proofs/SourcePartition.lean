import Kix.Proofs.ByteScanning
import Kix.Proofs.Scanning

/-!
# How a source text is partitioned

The segments of a source text are its consecutive parts, and each is of one of a few shapes
(`Segment.Shape`): the text of a token, a blank, a comment, or text that belongs to no token
and is reported. Where a comment ends, and whether a string is left open, depends on what
comes next, so a shape also speaks of the text that follows.

`Partitions` collects what scanning has to do with such a partition: every segment gives its
item or none, the end of the input comes once and last, and a cursor that is moved from byte
to byte passes over one segment at a time. It never stops inside a character, nor cuts out
text there.
-/

namespace Kix

namespace Segment

/-- **A character that begins no token**, and is no blank. -/
structure Unexpected (c : Char) : Prop where
  notBlank : isBlank c = false
  notQuote : c ≠ '"'
  notSlash : c ≠ '/'
  notDigit : c.isDigit = false
  notWord : isWordStart c = false
  notSymbol : Kind.ofSymbol? c = none

/-- **What the text of a segment is**, and what follows it. -/
inductive Shape : Segment → List Char → Prop where
  | token {kind : Kind} {lexeme : List Char} {literal : Option Literal} {rest : List Char}
    (inner : kind ≠ .eof) : Shape (.token kind lexeme literal) rest
  | blank {c : Char} {rest : List Char} (mem : c ∈ [' ', '\r', '\t', '\n']) :
    Shape (.blank c) rest
  /-- A comment up to the end of its line, which is not part of it. -/
  | lineComment {body rest : List Char} (within : '\n' ∉ body)
    (ends : rest = [] ∨ rest.head? = some '\n') : Shape (.comment ('/' :: '/' :: body)) rest
  /-- A comment up to the first `*/` behind its opener. -/
  | blockComment {body rest : List Char} (first : ¬['*', '/'] <:+: body ++ ['*']) :
    Shape (.comment ('/' :: '*' :: (body ++ ['*', '/']))) rest
  | stray {c : Char} {rest : List Char} (unexpected : Unexpected c) : Shape (.stray c) rest
  | openString {body : List Char} (never : '"' ∉ body) : Shape (.openString ('"' :: body)) []
  | openComment {body : List Char} (never : ¬['*', '/'] <:+: body) :
    Shape (.openComment ('/' :: '*' :: body)) []

/-! ## The first segment has its shape -/

/-- What is taken up to a character does not contain it. -/
theorem not_mem_takeWhile_bne (c : Char) (cs : List Char) : c ∉ cs.takeWhile (· != c) :=
  fun mem => bne_iff_ne.1 (List.mem_takeWhile_imp (p := (· != c)) mem) rfl

/-- A string, closed or not, has the shape of one. -/
theorem shape_cutString (rest : List Char) : (cutString rest).1.Shape (cutString rest).2 := by
  unfold cutString
  dsimp only
  split
  · exact .token nofun
  · next unclosed =>
    have whole := List.takeWhile_append_dropWhile (p := (· != '"')) (l := rest)
    rw [unclosed, List.append_nil] at whole
    refine .openString ?_
    rw [← whole]
    exact not_mem_takeWhile_bne '"' rest

/-- **What is split off ends at the first `*/`.** -/
theorem not_infix_of_splitClose {cs body after : List Char}
    (h : splitClose cs = some (body, after)) : ¬['*', '/'] <:+: body ++ ['*'] := by
  fun_induction splitClose cs generalizing body after with
  | case1 => cases h
  | case2 =>
    cases h
    decide
  | case3 c rest other ih =>
    obtain ⟨⟨body, after⟩, found, same⟩ := Option.map_eq_some_iff.1 h
    cases same
    rw [List.cons_append, List.infix_cons_iff]
    rintro (⟨more, here⟩ | later)
    · -- the character is a star: what follows it would be the slash of an earlier end
      obtain ⟨star, slash⟩ := List.cons.inj here
      have rest := splitClose_eq found
      cases body with
      | nil => cases slash
      | cons d body =>
        cases slash
        exact other _ star.symm rest.symm
    · exact ih found later

/-- A comment without an end has no end in it. -/
theorem not_infix_of_splitClose_eq_none {cs : List Char} (h : splitClose cs = none) :
    ¬['*', '/'] <:+: cs := by
  fun_induction splitClose cs with
  | case1 => decide
  | case2 => cases h
  | case3 c rest other ih =>
    rw [List.infix_cons_iff]
    rintro (⟨more, here⟩ | later)
    · obtain ⟨star, slash⟩ := List.cons.inj here
      exact other more star.symm slash.symm
    · exact ih (Option.map_eq_none_iff.1 h) later

/-- A slash, a line comment, or a block comment, closed or not. -/
theorem shape_cutSlash (rest : List Char) : (cutSlash rest).1.Shape (cutSlash rest).2 := by
  unfold cutSlash
  split
  · next rest =>
    refine .lineComment (not_mem_takeWhile_bne '\n' rest) ?_
    have stops := List.head?_dropWhile_not (· != '\n') rest
    cases behind : rest.dropWhile (· != '\n') with
    | nil => exact .inl rfl
    | cons c after =>
      rw [behind] at stops
      exact .inr (by simpa using stops)
  · split
    · next found => exact .blockComment (not_infix_of_splitClose found)
    · next open' => exact .openComment (not_infix_of_splitClose_eq_none open')
  · exact .token nofun

theorem shape_of_isPlain {kind : Kind} (h : kind.isPlain = true) (lexeme : List Char)
    (literal : Option Literal) (rest : List Char) : (token kind lexeme literal).Shape rest :=
  .token (sound_of_isPlain h lexeme literal).1

/-- A number stops where it cannot go on. -/
theorem shape_cutNumber (first : Char) (rest : List Char) :
    (cutNumber first rest).1.Shape (cutNumber first rest).2 := by
  unfold cutNumber
  dsimp only
  split
  · split <;> exact .token nofun
  · exact .token nofun

/-- **The first segment has its shape.** -/
theorem shape_cut (first : Char) (rest : List Char) :
    (cut first rest).1.Shape (cut first rest).2 := by
  unfold cut
  split
  · next isBlank =>
    refine .blank ?_
    simpa [Segment.isBlank, or_assoc] using isBlank
  next notBlank =>
  split
  · exact shape_cutString rest
  next notQuote =>
  split
  · exact shape_cutSlash rest
  next notSlash =>
  split
  · exact shape_cutNumber first rest
  next notDigit =>
  split
  · exact shape_of_isPlain (Kind.isPlain_ofWord _) _ _ _
  next notWord =>
  unfold cutSymbol
  split
  · next found => exact shape_of_isPlain (Kind.isPlain_ofSymbolEqual? found) _ _ _
  split
  · next found => exact shape_of_isPlain (Kind.isPlain_ofSymbol? found) _ _ _
  · next notSymbol =>
    exact .stray
      { notBlank := eq_false_of_ne_true notBlank
        notQuote
        notSlash
        notDigit := eq_false_of_ne_true notDigit
        notWord := eq_false_of_ne_true notWord
        notSymbol }

end Segment

/-! ## The segments of a text -/

/-- **A segment is the first of the text that begins with it.** -/
theorem exists_cut_of_segments_eq {cs : List Char} {before after : List Segment} {s : Segment}
    (h : segments cs = before ++ s :: after) :
    ∃ first rest, cs = before.flatMap Segment.text ++ first :: rest
      ∧ Segment.cut first rest = (s, after.flatMap Segment.text) := by
  fun_induction segments cs generalizing before with
  | case1 => exact absurd h.symm (List.append_ne_nil_of_right_ne_nil _ (List.cons_ne_nil _ _))
  | case2 first rest ih =>
    cases before with
    | nil =>
      obtain ⟨here, later⟩ := List.cons.inj h
      refine ⟨first, rest, rfl, Prod.ext here ?_⟩
      rw [← later, text_segments]
    | cons s' before =>
      obtain ⟨rfl, later⟩ := List.cons.inj h
      obtain ⟨first', rest', text, cut⟩ := ih later
      refine ⟨first', rest', ?_, cut⟩
      rw [List.flatMap_cons, List.append_assoc, ← text, Segment.text_cut]

/-- How many bytes segments have. -/
def byteSize (segs : List Segment) : Nat := (encode (segs.flatMap Segment.text)).length

/-- **What it means that scanning partitions a text into segments.** -/
structure Partitions (source : String) (segs : List Segment) : Prop where
  /-- Together the segments are the text. -/
  whole : segs.flatMap Segment.text = source.toList
  nonempty : ∀ s ∈ segs, s.text ≠ []
  /-- Each segment has its shape before the text of those that follow. -/
  shape : ∀ before s after, segs = before ++ s :: after →
    s.Shape (after.flatMap Segment.text)
  /-- Between two segments is a place between two characters. -/
  boundary : ∀ before after, segs = before ++ after →
    String.Pos.Raw.IsValid source ⟨byteSize before⟩
  /-- A cursor where a segment begins is moved to where it ends. -/
  step : ∀ before s after, segs = before ++ s :: after →
    ∀ cursor : ByteCursor, cursor.curr = byteSize before →
      cursor.step? source = some (s.finding,
        { start := byteSize before
          curr := byteSize (before ++ [s])
          line := cursor.line + newlines s.text
          done := cursor.done })
  /-- The items are those of the segments, and the end of the input. -/
  items : scan source = itemsIn 1 segs ++ [.token (.endOfInput (lastLine source))]
  /-- The end of the input comes only once. -/
  once : ∀ t, .token t ∈ itemsIn 1 segs → t.kind ≠ .eof
  /-- Each call of the cursor yields the next item, and no item once there are no more. That
  the calls have results says that no offset is out of bounds or inside a character. -/
  yields : ∀ k, ByteCursor.yields? source k {} = some ((List.range k).map ((scan source)[·]?))

/-- **Scanning partitions every text** into its segments. -/
theorem scanning_partitions_source (source : String) :
    Partitions source (segments source.toList) where
  whole := text_segments source.toList
  nonempty _ := text_ne_nil_of_mem_segments
  shape before s after h := by
    obtain ⟨first, rest, -, cut⟩ := exists_cut_of_segments_eq h
    have shape := Segment.shape_cut first rest
    rwa [cut] at shape
  boundary before after h := by
    refine isValid_of_append (?_ : _ = _ ++ after.flatMap Segment.text)
    rw [← List.flatMap_append, ← h, text_segments]
  step before s after h cursor curr := by
    obtain ⟨first, rest, text, cut⟩ := exists_cut_of_segments_eq h
    have step := ByteCursor.At.step? ⟨text, curr⟩
    have behind : byteSize (before ++ [s]) = byteSize before + (encode s.text).length := by
      unfold byteSize
      rw [List.flatMap_append, List.flatMap_singleton, encode_append, List.length_append]
    rw [step, cut, behind, ← curr]
    rfl
  items := scan_eq source
  once _ mem := (mem_words (List.mem_filterMap.2 ⟨_, mem, rfl⟩)).1
  yields := by
    have start : ByteCursor.At source [] source.toList {} := ⟨rfl, rfl⟩
    exact (ByteCursor.Remaining.ahead start rfl).yields?

end Kix
