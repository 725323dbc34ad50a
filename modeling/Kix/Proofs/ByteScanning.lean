import Kix.Proofs.EncodedText
import Kix.Proofs.JoinedText
import Mathlib.Data.List.TakeWhile

/-!
# Scanning by byte offsets

The segments of a text can be found on its bytes, by a cursor that is moved to a byte offset:
to the next quote, line end or `*/`, or over all bytes that pass a test. Text is cut out
between two offsets, and that makes sense only where they are places between two characters.

`ByteCursor.next?` scans in this way and yields one item at a time. It has no result where an
offset does not make sense, where it is out of bounds, and where the cursor stays where it is.
None of this happens: from the offset where a segment begins one step leads to the offset
where it ends (`ByteCursor.At.step?`), so calling `next?` again and again yields what scanning
by characters gives (`ByteCursor.Remaining.yields?`).
-/

namespace Kix

/-- **A cursor in the bytes of a text.** -/
structure ByteCursor where
  /-- Where the current segment begins. -/
  start : Nat := 0
  /-- The offset of the next byte. -/
  curr : Nat := 0
  line : Nat := 1
  /-- Whether the end of the input was yielded. -/
  done : Bool := false
  deriving DecidableEq

/-- What a step finds. -/
inductive Finding where
  /-- Something that yields no item. -/
  | nothing
  | token (kind : Kind) (literal : Option Literal)
  | fault (problem : Problem)
  deriving DecidableEq

/-- The number that a numeral denotes. -/
def Number.ofText (text : String) : Float :=
  ofNumeral (text.toList.takeWhile Char.isDigit) ((text.toList.dropWhile Char.isDigit).drop 1)

/-- A text that does not begin with a character. -/
theorem head?_any_eq_false {c : Char} {cs : List Char} (h : ¬∃ rest, cs = c :: rest) :
    cs.head?.any (· == c) = false := by
  cases cs with
  | nil => rfl
  | cons d rest => exact beq_eq_false_iff_ne.2 fun same => h ⟨rest, by rw [same]⟩

namespace ByteCursor

section Steps

variable (source : String) (s : ByteCursor)

/-- The bytes from the cursor on. -/
def unread : List UInt8 := source.toUTF8.data.toList.drop s.curr

/-- The bytes from the cursor on, if it is between two characters of the text. -/
def unread? : Option (List UInt8) :=
  if String.Pos.Raw.IsValid source ⟨s.curr⟩ then some (s.unread source) else none

/-- Whether all bytes have been read. -/
def isAtEnd : Bool := decide (source.utf8ByteSize ≤ s.curr)

/-- Whether there is another byte and it passes a test. -/
def sees (p : Char → Bool) : Bool := (s.unread source).head?.any (onByte p)

/-- The cursor, some bytes further. -/
def move (n : Nat) : ByteCursor := { s with curr := s.curr + n }

/-- The cursor behind the bytes that pass a test. -/
def skip (p : Char → Bool) : ByteCursor :=
  s.move ((s.unread source).takeWhile (onByte p)).length

/-- The text from where the segment begins up to the cursor. -/
def lexeme? : Option String := slice? source s.start s.curr

/-! ## One segment

Each function below stands behind the byte that announced its kind of segment. -/

/-- A string, up to the next quote. -/
def string? : Option (Finding × ByteCursor) :=
  let body := (s.unread source).takeWhile (onByte (· != '"'))
  let s := { s.skip source (· != '"') with line := s.line + lineEnds body }
  if s.isAtEnd source then some (.fault .unterminatedString, s)
  else
    let s := s.move 1
    (slice? source (s.start + 1) (s.curr - 1)).map fun value =>
      (.token .string (some (.string value)), s)

/-- The text of a block comment, up to the first `*/`. -/
def blockComment? : Option (Finding × ByteCursor) :=
  (s.unread? source).bind fun rest =>
    match findClose rest with
    | some n =>
      (slice? source s.curr (s.curr + n)).map fun body =>
        (.nothing, { s.move (n + 2) with line := s.line + newlines body.toList })
    | none =>
      some (.fault .unterminatedComment,
        { s with curr := source.utf8ByteSize, line := s.line + lineEnds rest })

/-- A comment up to the end of the line, a block comment, or a slash. -/
def slash? : Option (Finding × ByteCursor) :=
  if s.sees source (· == '/') then
    ((s.move 1).unread? source).map fun rest =>
      (.nothing, (s.move 1).move (rest.takeWhile (onByte (· != '\n'))).length)
  else if s.sees source (· == '*') then (s.move 1).blockComment? source
  else some (.token .slash none, s)

/-- The cursor behind a number. A point belongs to it if there is a digit behind. -/
def skipNumber : ByteCursor :=
  let s := s.skip source Char.isDigit
  if s.sees source (· == '.') && (s.move 1).sees source Char.isDigit then
    (s.move 1).skip source Char.isDigit
  else s

/-- A number, converted from its text. -/
def number? : Option (Finding × ByteCursor) :=
  let s := s.skipNumber source
  (s.lexeme? source).map fun text => (.token .number (some (.number (Number.ofText text))), s)

/-- A word, reserved or not. -/
def word? : Option (Finding × ByteCursor) :=
  let s := s.skip source Segment.isWordRest
  (s.lexeme? source).map fun word => (.token (.ofWord word) none, s)

/-- A character that begins no token. It may have more bytes than the one that was read. -/
def stray? : Option (Finding × ByteCursor) :=
  (slice? source s.start source.utf8ByteSize).map fun rest =>
    let c := rest.toList.headD '\uFFFD'
    (.fault (.unexpectedCharacter c), { s with curr := s.start + c.utf8Size })

/-- An operator of two characters or of one. -/
def symbol? (c : Char) : Option (Finding × ByteCursor) :=
  match Kind.ofSymbolEqual? c, s.sees source (· == '=') with
  | some kind, true => some (.token kind none, s.move 1)
  | _, _ =>
    match Kind.ofSymbol? c with
    | some kind => some (.token kind none, s)
    | none => s.stray? source

/-- **A segment**, behind its first byte, which tells of what kind it is. -/
def segment? (c : Char) : Option (Finding × ByteCursor) :=
  if Segment.isBlank c then
    some (.nothing, if c = '\n' then { s with line := s.line + 1 } else s)
  else if c = '"' then s.string? source
  else if c = '/' then s.slash? source
  else if c.isDigit then s.number? source
  else if Segment.isWordStart c then s.word? source
  else s.symbol? source c

/-- The cursor behind the first byte of a segment. -/
def begun : ByteCursor := { s with start := s.curr, curr := s.curr + 1 }

/-- **One step** leads over a segment. -/
def step? : Option (Finding × ByteCursor) :=
  (s.unread source).head?.bind (onByte (s.begun.segment? source))

end Steps

/-! ## One item after the other -/

/-- **The next item**, or none if the end of the input was yielded. There is no result at all
if an offset does not make sense or the cursor stays where it is. -/
def next? (source : String) (s : ByteCursor) : Option (Option Item × ByteCursor) :=
  if s.done then some (none, s)
  else if s.isAtEnd source then
    some (some (.token (.endOfInput s.line)), { s with done := true })
  else
    match s.step? source with
    | none => none
    | some (.nothing, s') => if s.curr < s'.curr then next? source s' else none
    | some (.token kind literal, s') =>
      (s'.lexeme? source).map fun lexeme =>
        (some (.token { kind, lexeme, literal, line := s'.line }), s')
    | some (.fault problem, s') => some (some (.fault (.lexical s'.line problem)), s')
termination_by source.utf8ByteSize - s.curr
decreasing_by
  have inside : ¬s.isAtEnd source = true := by assumption
  unfold isAtEnd at inside
  rw [decide_eq_true_iff] at inside
  omega

/-- What a number of calls of `next?` yield. -/
def yields? (source : String) : Nat → ByteCursor → Option (List (Option Item))
  | 0, _ => some []
  | k + 1, s => do
    let (item, s') ← s.next? source
    let items ← yields? source k s'
    return item :: items

/-! ## Cursors between two characters -/

/-- **A cursor between two parts of a text.** -/
structure At (source : String) (before rest : List Char) (s : ByteCursor) : Prop where
  text : source.toList = before ++ rest
  curr : s.curr = (encode before).length

namespace At

variable {source : String} {before rest : List Char} {s : ByteCursor}

/-- The size of the source, by what has been read and what has not. -/
theorem utf8ByteSize (h : At source before rest s) :
    source.utf8ByteSize = s.curr + (encode rest).length := by
  rw [utf8ByteSize_eq, h.text, encode_append, List.length_append, h.curr]

/-- The bytes that are not read yet are those of the rest. -/
theorem unread (h : At source before rest s) : s.unread source = encode rest := by
  unfold ByteCursor.unread
  rw [toList_data_toUTF8, h.text, encode_append, h.curr, List.drop_left]

theorem unread? (h : At source before rest s) : s.unread? source = some (encode rest) := by
  unfold ByteCursor.unread?
  rw [if_pos (h.curr ▸ isValid_of_append h.text), h.unread]

/-- The end is reached when nothing is left. -/
theorem isAtEnd (h : At source before rest s) : s.isAtEnd source = rest.isEmpty := by
  unfold ByteCursor.isAtEnd
  rw [h.utf8ByteSize]
  cases rest with
  | nil => exact decide_eq_true (Nat.le_refl _)
  | cons c rest =>
    have := length_encode_pos c
    refine decide_eq_false ?_
    rw [encode_cons, List.length_append]
    omega

/-- The next byte tells as much as the next character, for a test that concerns ASCII
alone. -/
theorem sees (h : At source before rest s) {p : Char → Bool} (test : AsciiTest p) :
    s.sees source p = rest.head?.any p := by
  unfold ByteCursor.sees
  rw [h.unread, head?_encode test]

/-- **Moving over the bytes of a text** is moving over the text. -/
theorem move {mid : List Char} (h : At source before (mid ++ rest) s) :
    At source (before ++ mid) rest (s.move (encode mid).length) where
  text := by rw [h.text, List.append_assoc]
  curr := by
    rw [encode_append, List.length_append, ← h.curr]
    rfl

/-- Skipping bytes is skipping characters. -/
theorem skip (h : At source before rest s) {p : Char → Bool} (test : AsciiTest p) :
    At source (before ++ rest.takeWhile p) (rest.dropWhile p) (s.skip source p) := by
  unfold ByteCursor.skip
  rw [h.unread, takeWhile_encode test]
  refine move ?_
  rw [List.takeWhile_append_dropWhile]
  exact h

/-- The slice from the start of a token is its text. -/
theorem lexeme? {mid : List Char} (h : At source (before ++ mid) rest s)
    (start : s.start = (encode before).length) : s.lexeme? source = some (.ofList mid) := by
  unfold ByteCursor.lexeme?
  rw [start, h.curr, encode_append, List.length_append]
  exact slice?_of_append (by rw [h.text, List.append_assoc])

end At

/-- **A cursor inside a segment** that begins with the given text. -/
structure Reading (source : String) (before text rest : List Char) (s : ByteCursor) : Prop where
  at_text : At source (before ++ text) rest s
  start : s.start = (encode before).length

/-- The cursor at the end of the current segment, if that is the given text. -/
def through (s : ByteCursor) (text : List Char) : ByteCursor :=
  { s with curr := s.start + (encode text).length, line := s.line + newlines text }

end ByteCursor

/-- What a step finds at a segment. -/
def Segment.finding : Segment → Finding
  | token kind _ literal => .token kind literal
  | blank _ | comment _ => .nothing
  | stray c => .fault (.unexpectedCharacter c)
  | openString _ => .fault .unterminatedString
  | openComment _ => .fault .unterminatedComment

namespace ByteCursor
namespace Reading

variable {source : String} {before text rest : List Char} {s s' : ByteCursor}

theorem move {mid : List Char} (h : Reading source before text (mid ++ rest) s) :
    Reading source before (text ++ mid) rest (s.move (encode mid).length) where
  at_text := by
    rw [← List.append_assoc]
    exact h.at_text.move
  start := h.start

/-- One more character below 128 is one more byte. -/
theorem next {c : Char} (h : Reading source before text (c :: rest) s) (ascii : c.toNat < 128) :
    Reading source before (text ++ [c]) rest (s.move 1) := by
  obtain ⟨b, bytes, -⟩ := exists_byte ascii
  have size : (encode [c]).length = 1 := by
    rw [encode_cons, bytes]
    rfl
  rw [← size]
  exact h.move

/-- Skipping adds to the text that is being read. -/
theorem skip (h : Reading source before text rest s) {p : Char → Bool} (test : AsciiTest p) :
    Reading source before (text ++ rest.takeWhile p) (rest.dropWhile p) (s.skip source p) where
  at_text := by
    rw [← List.append_assoc]
    exact h.at_text.skip test
  start := h.start

theorem lexeme? (h : Reading source before text rest s) :
    s.lexeme? source = some (.ofList text) := h.at_text.lexeme? h.start

/-- The cursor is at the end of the segment, once the lines are counted. -/
theorem finds (h : Reading source before text rest s') (s : ByteCursor)
    (start : s'.start = s.start) (line : s'.line = s.line + newlines text)
    (done : s'.done = s.done) (finding : Finding) :
    some (finding, s') = some (finding, s.through text) := by
  have curr : s'.curr = s.start + (encode text).length := by
    rw [h.at_text.curr, encode_append, List.length_append, ← h.start, start]
  obtain ⟨_, _, _, _⟩ := s'
  cases start
  cases curr
  cases line
  cases done
  rfl

theorem withLine (h : Reading source before text rest s) (line : Nat) :
    Reading source before text rest { s with line } :=
  ⟨⟨h.at_text.text, h.at_text.curr⟩, h.start⟩

/-- What stands between two quotes. -/
theorem slice?_quoted {body after : List Char}
    (h : Reading source before ('"' :: body) ('"' :: after) s) :
    slice? source (s.start + 1) (s.curr + 1 - 1) = some (.ofList body) := by
  have text : source.toList = (before ++ ['"']) ++ (body ++ '"' :: after) := by
    rw [h.at_text.text]
    simp
  have value := slice?_of_append text
  have start : s.start + 1 = (encode (before ++ ['"'])).length := by
    rw [encode_append, List.length_append, h.start]
    rfl
  have curr : s.curr + 1 - 1 = (encode (before ++ ['"'])).length + (encode body).length := by
    rw [Nat.add_sub_cancel, h.at_text.curr, ← List.length_append, ← encode_append,
      List.append_assoc]
    rfl
  rwa [start, curr]

/-- **A string is scanned by bytes** as it is cut off by characters. -/
theorem string? (h : Reading source before ['"'] rest s) :
    s.string? source
      = some ((Segment.cutString rest).1.finding, s.through (Segment.cutString rest).1.text) := by
  have test : AsciiTest (· != '"') := .bne (by decide)
  have split := List.takeWhile_append_dropWhile (p := (· != '"')) (l := rest)
  have inside := (h.skip test).withLine (s.line + newlines (rest.takeWhile (· != '"')))
  unfold ByteCursor.string? Segment.cutString
  dsimp only
  rw [h.at_text.unread, takeWhile_encode test, lineEnds_encode, inside.at_text.isAtEnd]
  generalize rest.takeWhile (· != '"') = body at split inside ⊢
  cases quoted : rest.dropWhile (· != '"') with
  | nil =>
    rw [quoted, List.append_nil] at split
    subst split
    exact inside.finds s rfl rfl rfl _
  | cons quote after =>
    have isQuote : quote = '"' := by
      have stops := List.head?_dropWhile_not (· != '"') rest
      rw [quoted] at stops
      simpa using stops
    subst isQuote
    rw [quoted] at inside
    have closed := inside.next (by decide)
    have lines : s.line + newlines body
        = s.line + newlines (['"'] ++ body ++ ['"']) := by
      simp [newlines]
    refine (congrArg (Option.map _) inside.slice?_quoted).trans ?_
    exact closed.finds s rfl lines rfl _

/-- **So is a block comment**, whose lines are counted on the way. -/
theorem blockComment? (h : Reading source before ['/', '*'] rest s) :
    s.blockComment? source
      = some ((Segment.cutSlash ('*' :: rest)).1.finding,
          s.through (Segment.cutSlash ('*' :: rest)).1.text) := by
  unfold ByteCursor.blockComment?
  rw [h.at_text.unread?, Segment.cutSlash, Option.bind_some, findClose_encode]
  cases found : Segment.splitClose rest with
  | some r =>
    obtain ⟨body, after⟩ := r
    have text : rest = (body ++ ['*', '/']) ++ after := by
      rw [← Segment.splitClose_eq found, List.append_assoc]
      rfl
    have size : (encode body).length + 2 = (encode (body ++ ['*', '/'])).length := by
      rw [encode_append, List.length_append]
      rfl
    rw [text] at h
    have inside : slice? source s.curr (s.curr + (encode body).length) = some (.ofList body) := by
      rw [h.at_text.curr]
      exact slice?_of_append (by rw [h.at_text.text, List.append_assoc body])
    dsimp only [Option.map_some]
    rw [inside, size, Option.map_some, String.toList_ofList]
    refine (h.move.withLine _).finds s rfl ?_ rfl _
    show s.line + newlines body = s.line + newlines (['/', '*'] ++ (body ++ ['*', '/']))
    simp [newlines]
  | none =>
    dsimp only [Option.map_none]
    rw [h.at_text.utf8ByteSize, lineEnds_encode]
    have whole : Reading source before ['/', '*'] (rest ++ []) s := by
      rw [List.append_nil]
      exact h
    refine (whole.move.withLine _).finds s rfl ?_ rfl _
    show s.line + newlines rest = s.line + newlines (['/', '*'] ++ rest)
    simp [newlines]

/-- So is whatever begins with a slash. -/
theorem slash? (h : Reading source before ['/'] rest s) :
    s.slash? source
      = some ((Segment.cutSlash rest).1.finding, s.through (Segment.cutSlash rest).1.text) := by
  have slash : s.sees source (· == '/') = rest.head?.any (· == '/') :=
    h.at_text.sees (.beq (by decide))
  have star : s.sees source (· == '*') = rest.head?.any (· == '*') :=
    h.at_text.sees (.beq (by decide))
  unfold ByteCursor.slash?
  rw [slash, star]
  by_cases line : ∃ rest', rest = '/' :: rest'
  · obtain ⟨rest, rfl⟩ := line
    have test : AsciiTest (· != '\n') := .bne (by decide)
    have opened : Reading source before ['/', '/'] rest (s.move 1) := h.next (by decide)
    have comment := opened.skip test
    have none : newlines (rest.takeWhile (· != '\n')) = 0 :=
      newlines_eq_zero rfl fun _ => List.mem_takeWhile_imp
    unfold ByteCursor.skip at comment
    rw [opened.at_text.unread] at comment
    show ((s.move 1).unread? source).map _ = _
    rw [opened.at_text.unread?, Segment.cutSlash]
    refine comment.finds s rfl ?_ rfl _
    show s.line = s.line + newlines (['/', '/'] ++ rest.takeWhile (· != '\n'))
    rw [newlines_append, none]
    rfl
  by_cases block : ∃ rest', rest = '*' :: rest'
  · obtain ⟨rest, rfl⟩ := block
    exact (h.next (by decide)).blockComment?
  · rw [head?_any_eq_false line, head?_any_eq_false block, Segment.cutSlash]
    · exact h.finds s rfl rfl rfl _
    · exact fun rest' same => line ⟨rest', same⟩
    · exact fun rest' same => block ⟨rest', same⟩

end Reading

end ByteCursor

/-! ## Numbers and words -/

/-- The digits before the point of a numeral, and those behind it. -/
theorem Number.ofText_whole {whole : List Char} (digits : ∀ c ∈ whole, c.isDigit = true) :
    Number.ofText (.ofList whole) = ofNumeral whole [] := by
  unfold ofText
  rw [String.toList_ofList, List.takeWhile_eq_self_iff.2 digits,
    List.dropWhile_eq_nil_iff.2 digits]
  rfl

/-- The text of a number is converted by its digits in front of the point and behind it. -/
theorem Number.ofText_fraction {whole : List Char} (digits : ∀ c ∈ whole, c.isDigit = true)
    (fraction : List Char) :
    Number.ofText (.ofList (whole ++ '.' :: fraction)) = ofNumeral whole fraction := by
  have point : ¬('.').isDigit = true := by decide
  unfold ofText
  rw [String.toList_ofList, List.takeWhile_append_of_pos digits,
    List.dropWhile_append_of_pos digits, List.takeWhile_cons_of_neg point,
    List.dropWhile_cons_of_neg point, List.append_nil]
  rfl

namespace Segment

variable {first : Char} {rest : List Char}

theorem forall_mem_digits (isDigit : first.isDigit = true) (rest : List Char) :
    ∀ c ∈ first :: rest.takeWhile Char.isDigit, c.isDigit = true :=
  List.forall_mem_cons.2 ⟨isDigit, fun _ => List.mem_takeWhile_imp⟩

/-- Whether a number has a fraction. -/
theorem fraction_or_whole (rest : List Char) :
    (∃ digit others, rest.dropWhile Char.isDigit = '.' :: digit :: others ∧ digit.isDigit = true)
    ∨ ∀ digit others, rest.dropWhile Char.isDigit = '.' :: digit :: others →
      digit.isDigit = false := by
  by_cases fraction : ∃ digit others,
      rest.dropWhile Char.isDigit = '.' :: digit :: others ∧ digit.isDigit = true
  · exact .inl fraction
  · exact .inr fun digit others after =>
      eq_false_of_ne_true fun isDigit => fraction ⟨digit, others, after, isDigit⟩

/-- A number denotes what its text says. -/
theorem finding_cutNumber (isDigit : first.isDigit = true) (rest : List Char) :
    (cutNumber first rest).1.finding = .token .number
      (some (.number (Number.ofText (.ofList (cutNumber first rest).1.text)))) := by
  have digits := forall_mem_digits isDigit rest
  rcases fraction_or_whole rest with ⟨digit, others, after, isDigit'⟩ | whole
  · rw [cutNumber_of_fraction after isDigit', text, ← List.cons_append,
      Number.ofText_fraction digits]
    rfl
  · rw [cutNumber_of_whole whole, text, Number.ofText_whole digits]
    rfl

/-- There is no line end in a number. -/
theorem newlines_cutNumber (isDigit : first.isDigit = true) (rest : List Char) :
    newlines (cutNumber first rest).1.text = 0 := by
  have digits := newlines_eq_zero (by decide) (forall_mem_digits isDigit rest)
  rcases fraction_or_whole rest with ⟨digit, others, after, isDigit'⟩ | whole
  · have digits' := newlines_eq_zero (by decide) (forall_mem_digits isDigit' others)
    rw [cutNumber_of_fraction after isDigit', text, ← List.cons_append, newlines_append, digits]
    rw [← List.singleton_append, newlines_append, digits']
    rfl
  · rw [cutNumber_of_whole whole, text, digits]

end Segment

namespace ByteCursor
namespace Reading

variable {source : String} {before text rest : List Char} {first : Char} {s : ByteCursor}

/-- The digits of a number are skipped, and a point only if a digit is behind it. -/
theorem skipNumber (h : Reading source before [first] rest s) :
    Reading source before (Segment.cutNumber first rest).1.text (Segment.cutNumber first rest).2
      (s.skipNumber source) := by
  have digits := h.skip AsciiTest.isDigit
  have point := digits.at_text.sees (p := (· == '.')) (.beq (by decide))
  unfold ByteCursor.skipNumber
  dsimp only
  rw [point]
  rcases Segment.fraction_or_whole rest with ⟨digit, others, after, isDigit⟩ | whole
  · rw [after] at digits
    have pointed : Reading source before ([first] ++ rest.takeWhile Char.isDigit ++ ['.'])
        (digit :: others) ((s.skip source Char.isDigit).move 1) := digits.move
    have more := pointed.skip AsciiTest.isDigit
    rw [pointed.at_text.sees AsciiTest.isDigit, after, if_pos (by simp [isDigit]),
      Segment.cutNumber_of_fraction after isDigit]
    rw [List.takeWhile_cons_of_pos isDigit, List.dropWhile_cons_of_pos isDigit,
      List.append_assoc] at more
    exact more
  · rw [Segment.cutNumber_of_whole whole]
    have ends : ¬((rest.dropWhile Char.isDigit).head?.any (· == '.')
        && ((s.skip source Char.isDigit).move 1).sees source Char.isDigit) = true := by
      rw [Bool.and_eq_true]
      rintro ⟨isPoint, isDigit⟩
      cases after : rest.dropWhile Char.isDigit with
      | nil =>
        rw [after] at isPoint
        exact nomatch isPoint
      | cons c others =>
        rw [after] at isPoint digits
        cases eq_of_beq isPoint
        have pointed : Reading source before ([first] ++ rest.takeWhile Char.isDigit ++ ['.'])
            others ((s.skip source Char.isDigit).move 1) := digits.next (by decide)
        rw [pointed.at_text.sees AsciiTest.isDigit] at isDigit
        cases others with
        | nil => exact nomatch isDigit
        | cons digit others => exact absurd isDigit (by simp [whole digit others after])
    rw [if_neg ends]
    exact digits

/-- **So is a number.** -/
theorem number? (h : Reading source before [first] rest s) (isDigit : first.isDigit = true) :
    s.number? source
      = some ((Segment.cutNumber first rest).1.finding,
          s.through (Segment.cutNumber first rest).1.text) := by
  have number := h.skipNumber
  have kept : s.skipNumber source = { s with curr := (s.skipNumber source).curr } := by
    unfold ByteCursor.skipNumber
    dsimp only
    split <;> rfl
  unfold ByteCursor.number?
  dsimp only
  rw [number.lexeme?, Segment.finding_cutNumber isDigit]
  refine number.finds s (by rw [kept]) ?_ (by rw [kept]) _
  rw [Segment.newlines_cutNumber isDigit, kept]
  rfl

/-- So is a word. -/
theorem word? (h : Reading source before [first] rest s)
    (isWord : Segment.isWordStart first = true) :
    s.word? source
      = some ((Segment.cutWord first rest).1.finding,
          s.through (Segment.cutWord first rest).1.text) := by
  have word := h.skip AsciiTest.isWordRest
  have letters : ∀ c ∈ first :: rest.takeWhile Segment.isWordRest,
      Segment.isWordRest c = true := by
    refine List.forall_mem_cons.2 ⟨?_, fun _ => List.mem_takeWhile_imp⟩
    unfold Segment.isWordStart at isWord
    unfold Segment.isWordRest Char.isAlphanum
    rw [Bool.or_right_comm, isWord, Bool.true_or]
  unfold ByteCursor.word?
  dsimp only
  rw [word.lexeme?]
  refine word.finds s rfl ?_ rfl _
  show s.line = s.line + newlines (first :: rest.takeWhile Segment.isWordRest)
  rw [newlines_eq_zero (by decide) letters]
  rfl

end Reading

/-! ## Symbols and stray characters -/

namespace At

variable {source : String} {before rest : List Char} {first : Char} {s : ByteCursor}

/-- The first byte is all of a character below 128. -/
theorem begun (h : At source before (first :: rest) s) (ascii : first.toNat < 128) :
    Reading source before [first] rest s.begun := by
  obtain ⟨b, bytes, -⟩ := exists_byte ascii
  refine ⟨⟨by rw [h.text, List.append_assoc]; rfl, ?_⟩, h.curr⟩
  rw [encode_append, List.length_append, ← h.curr, encode_cons, bytes]
  rfl

/-- A character is passed over as a whole, however many bytes it has. -/
theorem stray? (h : At source before (first :: rest) s) (notEnd : first ≠ '\n') :
    s.begun.stray? source
      = some (.fault (.unexpectedCharacter first), s.begun.through [first]) := by
  have size : (encode [first]).length = first.utf8Size := by
    rw [encode_cons, encode_nil, List.append_nil, String.length_utf8EncodeChar]
  have found : slice? source s.curr source.utf8ByteSize = some (.ofList (first :: rest)) := by
    rw [h.utf8ByteSize, h.curr]
    exact slice?_of_append (by rw [h.text, List.append_nil])
  unfold ByteCursor.stray? through
  rw [show s.begun.start = s.curr from rfl, found, size, newlines_singleton notEnd]
  simp

/-- A character that is no operator of two characters together with the next. -/
theorem single (h : At source before (first :: rest) s) (notEnd : first ≠ '\n') :
    (match Kind.ofSymbol? first with
      | some kind => some (Finding.token kind none, s.begun)
      | none => s.begun.stray? source)
      = some (Segment.finding ((Kind.ofSymbol? first).elim (.stray first) (.token · [first] none)),
        s.begun.through (Segment.text ((Kind.ofSymbol? first).elim (.stray first)
          (.token · [first] none)))) := by
  cases symbol : Kind.ofSymbol? first with
  | none => exact h.stray? notEnd
  | some kind =>
    have ascii : first.toNat < 128 := by
      refine Nat.lt_of_not_le fun other => ?_
      rw [Kind.ofSymbol?_eq_none other] at symbol
      exact nomatch symbol
    refine (h.begun ascii).finds s.begun rfl ?_ rfl _
    rw [newlines_singleton notEnd]
    rfl

/-- So is an operator, or a character that begins nothing. -/
theorem symbol? (h : At source before (first :: rest) s) (notEnd : first ≠ '\n') :
    s.begun.symbol? source first
      = some ((Segment.cutSymbol first rest).1.finding,
          s.begun.through (Segment.cutSymbol first rest).1.text) := by
  have single := h.single notEnd
  unfold ByteCursor.symbol?
  cases double : Kind.ofSymbolEqual? first with
  | none =>
    have cut : Segment.cutSymbol first rest
        = ((Kind.ofSymbol? first).elim (.stray first) (.token · [first] none), rest) := by
      unfold Segment.cutSymbol
      rw [double]
      cases Kind.ofSymbol? first <;> rfl
    rw [cut]
    exact single
  | some kind =>
    have ascii : first.toNat < 128 := by
      refine Nat.lt_of_not_le fun other => ?_
      rw [Kind.ofSymbolEqual?_eq_none other] at double
      exact nomatch double
    have begun := h.begun ascii
    rw [begun.at_text.sees (.beq (by decide))]
    by_cases pair : ∃ after, rest = '=' :: after
    · obtain ⟨after, rfl⟩ := pair
      have cut : Segment.cutSymbol first ('=' :: after)
          = (.token kind [first, '='] none, after) := by
        unfold Segment.cutSymbol
        rw [double]
        rfl
      rw [cut]
      refine (begun.next (by decide)).finds s.begun rfl ?_ rfl _
      rw [newlines_append, newlines_singleton notEnd]
      rfl
    · rw [head?_any_eq_false pair, Segment.cutSymbol_of_ne fun after same => pair ⟨after, same⟩]
      exact single

end At

/-! ## One step -/

/-- The cursor behind a segment that begins where the cursor is. -/
def past (s : ByteCursor) (text : List Char) : ByteCursor := s.begun.through text

/-- A byte of 128 or more begins a character that begins no token. -/
theorem segment?_of_other {c : Char} (other : 128 ≤ c.toNat) (source : String) (s : ByteCursor) :
    s.segment? source c = s.stray? source := by
  have others : 128 ≤ 'é'.toNat := by decide
  unfold segment? symbol?
  rw [AsciiTest.isBlank c _ other others, AsciiTest.isDigit c _ other others,
    AsciiTest.isWordStart c _ other others, Kind.ofSymbol?_eq_none other,
    Kind.ofSymbolEqual?_eq_none other]
  have ne {d : Char} (ascii : d.toNat < 128) : c ≠ d := by
    rintro rfl
    exact Nat.not_lt_of_le other ascii
  rw [if_neg (ne (d := '"') (by decide)), if_neg (ne (d := '/') (by decide))]
  rfl

/-- **One step leads over one segment.** -/
theorem At.step? {source : String} {before rest : List Char} {first : Char} {s : ByteCursor}
    (h : At source before (first :: rest) s) :
    s.step? source
      = some ((Segment.cut first rest).1.finding, s.past (Segment.cut first rest).1.text) := by
  obtain ⟨b, bytes, eq⟩ := List.exists_cons_of_length_pos (length_encode_pos first)
  have mem : b ∈ String.utf8EncodeChar first := by
    rw [eq]
    exact List.mem_cons_self
  have head : (s.unread source).head? = some b := by
    rw [h.unread, encode_cons, eq]
    rfl
  have test : AsciiTest (s.begun.segment? source) :=
    .of_eq fun _ other => segment?_of_other other source s.begun
  unfold ByteCursor.step?
  rw [head, Option.bind_some, test.onByte_eq mem]
  unfold segment? Segment.cut past
  by_cases blank : Segment.isBlank first = true
  · rw [if_pos blank, if_pos blank]
    have begun := h.begun (AsciiTest.isBlank.lt_of_eq_true rfl blank)
    by_cases lineEnd : first = '\n'
    · rw [if_pos lineEnd]
      subst lineEnd
      exact (begun.withLine (s.line + 1)).finds s.begun rfl rfl rfl _
    · rw [if_neg lineEnd]
      refine begun.finds s.begun rfl ?_ rfl _
      rw [newlines_singleton lineEnd]
      rfl
  have notEnd : first ≠ '\n' := by
    rintro rfl
    exact blank rfl
  rw [if_neg blank, if_neg blank]
  by_cases quote : first = '"'
  · rw [if_pos quote, if_pos quote]
    subst quote
    exact (h.begun (by decide)).string?
  rw [if_neg quote, if_neg quote]
  by_cases slash : first = '/'
  · rw [if_pos slash, if_pos slash]
    subst slash
    exact (h.begun (by decide)).slash?
  rw [if_neg slash, if_neg slash]
  by_cases digit : first.isDigit = true
  · rw [if_pos digit, if_pos digit]
    exact (h.begun (AsciiTest.isDigit.lt_of_eq_true rfl digit)).number? digit
  rw [if_neg digit, if_neg digit]
  by_cases word : Segment.isWordStart first = true
  · rw [if_pos word, if_pos word]
    exact (h.begun (AsciiTest.isWordStart.lt_of_eq_true rfl word)).word? word
  rw [if_neg word, if_neg word]
  exact h.symbol? notEnd

/-- A character of two bytes is passed over in one step. -/
example : ByteCursor.step? "é\"" {} = some (.fault (.unexpectedCharacter 'é'), { curr := 2 }) := by
  decide +kernel

/-! ## All items -/

section Items

variable {source : String} {before rest : List Char} {first : Char} {s : ByteCursor}

/-- Behind a segment the cursor is between two characters again. -/
theorem At.past (h : At source before (first :: rest) s) :
    Reading source before (Segment.cut first rest).1.text (Segment.cut first rest).2
      (s.past (Segment.cut first rest).1.text) where
  at_text :=
    { text := by rw [h.text, List.append_assoc, Segment.text_cut]
      curr := by
        rw [encode_append, List.length_append, ← h.curr]
        rfl }
  start := h.curr

theorem length_encode_pos_of_ne_nil {cs : List Char} (h : cs ≠ []) : 0 < (encode cs).length := by
  obtain ⟨c, rest, rfl⟩ := List.exists_cons_of_ne_nil h
  rw [encode_cons, List.length_append]
  exact Nat.add_pos_left (length_encode_pos c) _

/-- The end of the text is yielded as an item. -/
theorem At.next?_end (h : At source before [] s) (notDone : s.done = false) :
    s.next? source = some (some (.token (.endOfInput s.line)), { s with done := true }) := by
  rw [ByteCursor.next?, notDone, h.isAtEnd]
  rfl

/-- **A segment yields its item**, or the cursor goes on. -/
theorem At.next?_cons (h : At source before (first :: rest) s) (notDone : s.done = false) :
    s.next? source
      = match (Segment.cut first rest).1.item?
          (s.line + newlines (Segment.cut first rest).1.text) with
        | some item => some (some item, s.past (Segment.cut first rest).1.text)
        | none => (s.past (Segment.cut first rest).1.text).next? source := by
  have lexeme := h.past.lexeme?
  have onward : s.curr < (s.past (Segment.cut first rest).1.text).curr := by
    have pos := length_encode_pos_of_ne_nil (Segment.text_cut_ne_nil first rest)
    show s.curr < s.curr + _
    omega
  rw [ByteCursor.next?, notDone, if_neg Bool.false_ne_true, h.isAtEnd, h.step?]
  generalize (Segment.cut first rest).1 = segment at lexeme onward ⊢
  cases segment with
  | token kind text literal =>
    show Option.map _ (ByteCursor.lexeme? source _) = _
    rw [lexeme]
    rfl
  | blank | comment => exact if_pos onward
  | stray | openString | openComment => rfl

/-- **What is still to be yielded.** -/
inductive Remaining (source : String) : ByteCursor → List Item → Prop where
  | ahead {before rest : List Char} {s : ByteCursor} (place : At source before rest s)
    (notDone : s.done = false) : Remaining source s (itemsFrom s.line (segments rest))
  | ended {s : ByteCursor} (done : s.done = true) : Remaining source s []

/-- **One call** yields the first item that remains. -/
theorem Remaining.next? {items : List Item} (h : Remaining source s items) :
    ∃ s', s.next? source = some (items.head?, s') ∧ Remaining source s' items.tail := by
  cases h with
  | ended done =>
    refine ⟨s, ?_, .ended done⟩
    rw [ByteCursor.next?, done]
    rfl
  | @ahead before rest _ place notDone =>
    fun_induction segments rest generalizing before s with
    | case1 => exact ⟨_, place.next?_end notDone, .ended rfl⟩
    | case2 first rest ih =>
      have next := place.next?_cons notDone
      have past := place.past.at_text
      rw [itemsFrom]
      cases found : (Segment.cut first rest).1.item?
          (s.line + newlines (Segment.cut first rest).1.text) with
      | some item =>
        rw [found] at next
        exact ⟨_, next, .ahead past notDone⟩
      | none =>
        rw [found] at next
        obtain ⟨s', yielded, later⟩ := ih past notDone
        exact ⟨s', next.trans yielded, later⟩

/-- **All calls** yield the items that remain, and then nothing for ever. -/
theorem Remaining.yields? {items : List Item} (h : Remaining source s items) (k : Nat) :
    yields? source k s = some ((List.range k).map fun i => items[i]?) := by
  induction k generalizing s items with
  | zero => rfl
  | succ k ih =>
    obtain ⟨s', yielded, later⟩ := h.next?
    have items' : (List.range (k + 1)).map (fun i => items[i]?)
        = items.head? :: (List.range k).map fun i => items.tail[i]? := by
      simp [List.range_succ_eq_map, List.head?_eq_getElem?, Function.comp_def]
    rw [items', ByteCursor.yields?, yielded]
    exact congrArg (Option.bind · _) (ih later)

end Items

end ByteCursor
end Kix
