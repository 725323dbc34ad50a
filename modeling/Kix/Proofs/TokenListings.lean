import Kix.Command.Run
import Kix.Proofs.DisplayedNumbers
import Kix.Proofs.JsonStrings
import Kix.Proofs.StaticReports
import Kix.Proofs.Transcripts

/-!
# Token listings lose nothing

A token listing has one line for each token, and a string may hold anything but a quote: line
ends, backslashes that look like escapes, or a line of a listing itself. No character below
U+0020 stands inside of a line, so that the listing falls into its lines at its line ends
(`Command.splitLines_listing`), and a line is read back, field by field, as the token it was made
of (`Token.readLine?_dump`).

Numbers are listed by their digits, and one that is too large by `null`. Of these texts a single
fact is used: they have no control character in them and no closing brace
(`Number.fenced_dumped`). Which digits are chosen plays no part, since the text of a token
determines the number (`LongestMatch.determined`): two sources have the same listing exactly if
they have the same tokens (`Command.listings_lose_nothing`).
-/

namespace Kix

/-! ## Reading a line -/

/-- **What a listing shows of a literal.** A number is shown as a text. -/
inductive ListedLiteral where
  | number (text : String)
  | string (value : String)
  | word (name : String)

/-- **What a listing shows of a token.** -/
structure ListedToken where
  kind : Kind
  lexeme : String
  literal : Option ListedLiteral
  line : Nat

namespace ListedToken

/-- Reading a literal: `null`, an object that holds a number or a string, or a string. -/
def readLiteral? (cs : List Char) : Option (Option ListedLiteral × List Char) :=
  match cs.dropPrefix? "null".toList with
  | some rest => some (none, rest)
  | none =>
    match cs.dropPrefix? "\x7b\"Number\":".toList with
    | some rest =>
      some (some (.number (.ofList (rest.takeWhile (· != '\x7d')))),
        (rest.dropWhile (· != '\x7d')).tail)
    | none =>
      match cs.dropPrefix? "\x7b\"Str\":".toList with
      | some rest => (Json.read? rest).map fun (value, rest) => (some (.string value), rest.tail)
      | none => (Json.read? cs).map fun (name, rest) => (some (.word name), rest)

/-- **Reading a line of a listing**, which has its four fields in order. -/
def readLine? (cs : List Char) : Option ListedToken := do
  let rest ← cs.dropPrefix? "\x7b\"type\":".toList
  let (name, rest) ← Json.read? rest
  let kind ← Kind.ofName? name
  let rest ← rest.dropPrefix? ",\"lexeme\":".toList
  let (lexeme, rest) ← Json.read? rest
  let rest ← rest.dropPrefix? ",\"literal\":".toList
  let (literal, rest) ← readLiteral? rest
  let rest ← rest.dropPrefix? ",\"line\":".toList
  if rest.dropWhile Char.isDigit = ['\x7d'] then
    some { kind, lexeme, literal, line := Number.spelled (rest.takeWhile Char.isDigit) }
  else none

end ListedToken

/-! ## Numbers in a listing -/

/-- **Text that stays within its object and its line**: it has no control character in it and
no brace that would end the object. -/
def Fenced (text : List Char) : Prop := ∀ c ∈ text, 0x20 ≤ c.toNat ∧ c ≠ '\x7d'

namespace Number

/-- What may stand in the listed text of a number. -/
def isListed (c : Char) : Bool := c.isDigit || ['.', 'e', '+', '-'].contains c

theorem isListed_of_isDigit {c : Char} (digit : c.isDigit = true) : isListed c = true := by
  rw [isListed, digit, Bool.true_or]

/-- A sign may be listed. -/
theorem isListed_signed {negative : Bool} {text : List Char}
    (listed : ∀ c ∈ text, isListed c = true) : ∀ c ∈ signed negative text, isListed c = true := by
  cases negative with
  | false => exact listed
  | true => exact List.forall_mem_cons.2 ⟨rfl, listed⟩

theorem isListed_positional (d : Decimal) : ∀ c ∈ d.positional, isListed c = true := by
  intro c mem
  rcases d.writes_positional.mem_cases c mem with digit | rfl
  · exact isListed_of_isDigit digit
  · rfl

theorem isListed_numeral (n : Nat) : ∀ c ∈ Decimal.numeral n, isListed c = true :=
  fun c mem => isListed_of_isDigit ((isDigits_numeral n).2 c mem)

/-- In scientific notation there are digits, a point, an exponent and its sign. -/
theorem isListed_scientific (d : Decimal) : ∀ c ∈ scientific d, isListed c = true := by
  have digits := isListed_numeral d.digits
  unfold scientific
  dsimp only
  refine List.forall_mem_append.2 ⟨?_, List.forall_mem_cons.2 ⟨rfl, List.forall_mem_cons.2
    ⟨?_, isListed_numeral _⟩⟩⟩
  · split
    · next first second others split =>
      rw [split] at digits
      obtain ⟨first, others⟩ := List.forall_mem_cons.1 digits
      exact List.forall_mem_cons.2 ⟨first, List.forall_mem_cons.2 ⟨rfl, others⟩⟩
    · exact digits
  · split <;> rfl

/-- **The listed text of a number** consists of digits, points, signs and `e`. -/
theorem isListed_of_dumped? {x : Float} {text : String} (dumped : dumped? x = some text) :
    ∀ c ∈ text.toList, isListed c = true := by
  unfold dumped? at dumped
  split at dumped
  · split at dumped
    · cases dumped
      rw [String.toList_ofList]
      exact isListed_signed (List.all_eq_true.1 rfl)
    · cases dumped
      rw [String.toList_ofList]
      refine isListed_signed ?_
      split
      · split
        · exact List.forall_mem_append.2 ⟨isListed_positional _, List.all_eq_true.1 rfl⟩
        · exact isListed_positional _
      · exact isListed_scientific _
  · cases dumped

/-- Text of such characters is neither cut by a line end nor by a brace. -/
theorem fenced_of_isListed {text : List Char} (listed : ∀ c ∈ text, isListed c = true) :
    Fenced text := by
  intro c mem
  rcases Bool.or_eq_true_iff.1 (listed c mem) with digit | sign
  · obtain ⟨least, -⟩ := Char.isDigit_iff_toNat.1 digit
    refine ⟨Nat.le_trans (by decide) least, ?_⟩
    rintro rfl
    cases digit
  · simp only [List.contains_iff_mem, List.mem_cons, List.not_mem_nil, or_false] at sign
    rcases sign with rfl | rfl | rfl | rfl <;> decide

/-- **The text of a number in a listing is fenced.** This is all that is used of it. -/
theorem fenced_dumped (x : Float) : Fenced (dumped x).toList := by
  rw [dumped]
  cases found : dumped? x with
  | none =>
    have all : "null".toList.all (fun c => decide (0x20 ≤ c.toNat) && c != '\x7d') = true := rfl
    intro c mem
    simpa using List.all_eq_true.1 all c mem
  | some text => exact fenced_of_isListed (isListed_of_dumped? found)

end Number

/-! ## A line is read back -/

/-- What a listing shows of a literal. -/
def Literal.listed : Literal → ListedLiteral
  | number x => .number (Number.dumped x)
  | string s => .string s
  | bool b => .word (if b then "True" else "False")
  | nil => .word "Nil"

/-- What a listing shows of a token. -/
def Token.listed (t : Token) : ListedToken where
  kind := t.kind
  lexeme := t.lexeme
  literal := t.literal.map Literal.listed
  line := t.line

/-- A kind is told by its name. -/
theorem Kind.ofName?_name (kind : Kind) : ofName? kind.name = some kind := by
  cases kind <;> decide

namespace ListedToken

/-- What a text begins with is taken off. -/
theorem dropPrefix?_append (text : String) (rest : List Char) :
    (text.toList ++ rest).dropPrefix? text.toList = some rest :=
  List.dropPrefix?_append_of_beq rest (beq_self_eq_true _)

theorem readLiteral?_null (rest : List Char) :
    readLiteral? ("null".toList ++ rest) = some (none, rest) := by
  rw [readLiteral?, dropPrefix?_append]

/-- A fenced text inside of an object is read back. -/
theorem readLiteral?_number {text : List Char} (fenced : Fenced text) (rest : List Char) :
    readLiteral? ("\x7b\"Number\":".toList ++ (text ++ '\x7d' :: rest))
      = some (some (.number (.ofList text)), rest) := by
  have other : ("\x7b\"Number\":".toList ++ (text ++ '\x7d' :: rest)).dropPrefix? "null".toList
      = none := rfl
  have stops : ∀ c after, '\x7d' :: rest = c :: after → (c != '\x7d') = false := by
    rintro c after same
    cases same
    rfl
  have inside : ∀ c ∈ text, (c != '\x7d') = true := fun c mem => bne_iff_ne.2 (fenced c mem).2
  have ends := Segment.span_exact inside stops
  rw [readLiteral?, other, dropPrefix?_append]
  dsimp only
  rw [ends.1, ends.2, List.tail_cons]

/-- A string inside of an object is read back. -/
theorem readLiteral?_string (s : String) (rest : List Char) :
    readLiteral? ("\x7b\"Str\":".toList ++ ((Json.quote s).toList ++ '\x7d' :: rest))
      = some (some (.string s), rest) := by
  have other : ("\x7b\"Str\":".toList ++ ((Json.quote s).toList ++ '\x7d' :: rest)).dropPrefix?
      "null".toList = none := rfl
  have other' : ("\x7b\"Str\":".toList ++ ((Json.quote s).toList ++ '\x7d' :: rest)).dropPrefix?
      "\x7b\"Number\":".toList = none := rfl
  rw [readLiteral?, other, other', dropPrefix?_append]
  dsimp only
  rw [Json.read?_quote]
  rfl

/-- A quoted word is read back, since none of the others begins with a quote. -/
theorem readLiteral?_quote (s : String) (rest : List Char) :
    readLiteral? ((Json.quote s).toList ++ rest) = some (some (.word s), rest) := by
  have other {text : String} (begins : text.toList.head?.any (· != '"') = true) :
      ((Json.quote s).toList ++ rest).dropPrefix? text.toList = none := by
    rw [Json.toList_quote]
    cases letters : text.toList with
    | nil =>
      rw [letters] at begins
      cases begins
    | cons c cs =>
      rw [letters] at begins
      have differ : ('"' == c) = false := beq_eq_false_iff_ne.2 (bne_iff_ne.1 begins).symm
      show List.dropPrefix? ('"' :: _) (c :: cs) = none
      rw [List.dropPrefix?, differ]
      rfl
  rw [readLiteral?, other rfl, other rfl, other rfl, Json.read?_quote]
  rfl

/-- **A literal is read back.** -/
theorem readLiteral?_dump (literal : Option Literal) (rest : List Char) :
    readLiteral? (((literal.map Literal.dump).getD "null").toList ++ rest)
      = some (literal.map Literal.listed, rest) := by
  cases literal with
  | none => exact readLiteral?_null rest
  | some literal =>
    rw [Option.map_some, Option.getD_some]
    cases literal with
    | number x =>
      have read := readLiteral?_number (Number.fenced_dumped x) rest
      rw [String.ofList_toList] at read
      rw [Literal.dump, String.toList_append, String.toList_append, List.append_assoc,
        List.append_assoc]
      exact read
    | string s =>
      rw [Literal.dump, String.toList_append, String.toList_append, List.append_assoc,
        List.append_assoc]
      exact readLiteral?_string s rest
    | bool b => exact readLiteral?_quote _ rest
    | nil => exact readLiteral?_quote _ rest

end ListedToken

/-- The fields of a line. -/
theorem Token.toList_dump (t : Token) :
    t.dump.toList = "\x7b\"type\":".toList ++ ((Json.quote t.kind.name).toList
      ++ (",\"lexeme\":".toList ++ ((Json.quote t.lexeme).toList
      ++ (",\"literal\":".toList ++ (((t.literal.map Literal.dump).getD "null").toList
      ++ (",\"line\":".toList ++ (Decimal.numeral t.line ++ ['\x7d']))))))) := by
  have line : (toString t.line).toList = Decimal.numeral t.line := Nat.toList_repr
  rw [← line]
  unfold dump
  simp only [String.toList_append, List.append_assoc]
  rfl

/-- **A token is read back from its line.** -/
theorem Token.readLine?_dump (t : Token) : ListedToken.readLine? t.dump.toList = some t.listed := by
  have stops : ∀ c after, ['\x7d'] = c :: after → c.isDigit = false := by
    rintro c after same
    cases same
    rfl
  have ends := Segment.span_exact (Number.isDigits_numeral t.line).2 stops
  rw [toList_dump, ListedToken.readLine?]
  simp only [ListedToken.dropPrefix?_append, Json.read?_quote, Kind.ofName?_name,
    ListedToken.readLiteral?_dump, Option.bind_eq_bind, Option.bind_some]
  rw [if_pos ends.2, ends.1, Number.spelled_numeral]
  rfl

/-! ## A line stays on one line -/

/-- Text without control characters. -/
def Printable (cs : List Char) : Prop := ∀ c ∈ cs, 0x20 ≤ c.toNat

theorem Printable.of_all {cs : List Char} (all : cs.all (0x20 ≤ ·.toNat) = true) : Printable cs :=
  fun c mem => of_decide_eq_true (List.all_eq_true.1 all c mem)

theorem Printable.append {cs cs' : List Char} (h : Printable cs) (h' : Printable cs') :
    Printable (cs ++ cs') := List.forall_mem_append.2 ⟨h, h'⟩

theorem Fenced.printable {text : List Char} (h : Fenced text) : Printable text :=
  fun c mem => (h c mem).1

theorem Json.printable_quote (s : String) : Printable (quote s).toList :=
  fun _ => le_toNat_of_mem_quote

/-- No control character stands in a literal: strings are escaped. -/
theorem Literal.printable_dump (literal : Literal) : Printable literal.dump.toList := by
  cases literal with
  | number x =>
    rw [dump, String.toList_append, String.toList_append]
    exact .append (.append (.of_all rfl) (Number.fenced_dumped x).printable) (.of_all rfl)
  | string s =>
    rw [dump, String.toList_append, String.toList_append]
    exact .append (.append (.of_all rfl) (Json.printable_quote s))
      (.of_all rfl)
  | bool b => exact Json.printable_quote _
  | nil => exact Json.printable_quote _

/-- **No control character stands in a line.** -/
theorem Token.printable_dump (t : Token) : Printable t.dump.toList := by
  have numeral : Printable (Decimal.numeral t.line) :=
    (Number.fenced_of_isListed (Number.isListed_numeral _)).printable
  have literal : Printable ((t.literal.map Literal.dump).getD "null").toList := by
    cases t.literal with
    | none => exact .of_all rfl
    | some literal => exact literal.printable_dump
  rw [toList_dump]
  refine .append (.of_all rfl) (.append (Json.printable_quote _) ?_)
  refine .append (.of_all rfl) (.append (Json.printable_quote _) ?_)
  refine .append (.of_all rfl) (.append literal ?_)
  exact .append (.of_all rfl) (numeral.append (.of_all rfl))

/-- No byte of such a text is a line end. -/
theorem Printable.lineEnd_not_mem {cs : List Char} (h : Printable cs) : 10 ∉ encode cs := by
  intro mem
  obtain ⟨c, inside, mem⟩ := List.mem_flatMap.1 mem
  have same := AsciiTest.onByte_eq (.beq (d := '\n') (by decide)) mem
  have isEnd : c = '\n' := eq_of_beq (same.symm.trans (by decide))
  have printable := h c inside
  rw [isEnd] at printable
  exact absurd printable (by decide)

namespace Command

/-- A line in front of others is cut off. -/
theorem splitLines_cons {line : List UInt8} (inner : 10 ∉ line) (rest : List UInt8) :
    splitLines (line ++ 10 :: rest) = (line ++ [10]) :: splitLines rest := by
  induction line with
  | nil => exact if_pos rfl
  | cons b line ih =>
    have notEnd : b ≠ 10 := fun same => inner (same ▸ List.mem_cons_self)
    have later := ih fun mem => inner (List.mem_cons_of_mem _ mem)
    rw [List.cons_append, splitLines, if_neg notEnd, later]
    rfl

/-- The bytes of a line of a listing. -/
def listedLine (t : Token) : List UInt8 := encode (t.dump.toList ++ ['\n'])

/-- **A listing falls into its lines.** -/
theorem splitLines_listing (ts : List Token) :
    splitLines (ts.flatMap listedLine) = ts.map listedLine := by
  induction ts with
  | nil => rfl
  | cons t ts ih =>
    have bytes : listedLine t = encode t.dump.toList ++ [10] := encode_append _ _
    rw [List.flatMap_cons, List.map_cons, bytes, List.append_assoc, List.singleton_append,
      splitLines_cons t.printable_dump.lineEnd_not_mem, ih]

/-- What is written when tokens are listed on a stream without a limit. -/
theorem written_listing {out : Sink} (unlimited : out.limit = none) (ts : List Token) :
    (ts.foldl (fun s t => s.put (t.dump ++ "\n")) out).written.data.toList
      = out.written.data.toList ++ ts.flatMap listedLine := by
  induction ts generalizing out with
  | nil => exact (List.append_nil _).symm
  | cons t ts ih =>
    have later := @ih (out.put (t.dump ++ "\n")) (by
      rw [Sink.put_of_limit unlimited]
      exact unlimited)
    rw [List.foldl_cons, later, Sink.put_of_limit unlimited]
    show (out.written ++ (t.dump ++ "\n").toUTF8).data.toList ++ _ = _
    rw [ByteArray.data_append, Array.toList_append, toList_data_toUTF8, String.toList_append,
      List.flatMap_cons, List.append_assoc]
    rfl

/-- **The listing of a source.** -/
theorem written_dumpTokens (source : String) :
    (dumpTokens source).out.written.data.toList = (tokens source).flatMap listedLine :=
  written_listing rfl (tokens source)

/-! ## Tokens with the same lines -/

/-- **Tokens with the same line show the same.** -/
theorem listed_of_listedLine {t t' : Token} (same : listedLine t = listedLine t') :
    t.listed = t'.listed := by
  have texts : t.dump.toList = t'.dump.toList := List.append_cancel_right (encode_injective same)
  have read := t.readLine?_dump
  rw [texts, t'.readLine?_dump] at read
  exact (Option.some.inj read).symm

end Command

/-- **Tokens of sources are told apart by their texts and lines.** -/
theorem Token.eq_of_lexeme_eq {source source' : String} {t t' : Token} (mem : t ∈ tokens source)
    (mem' : t' ∈ tokens source') (lexeme : t.lexeme = t'.lexeme) (line : t.line = t'.line) :
    t = t' := by
  have filled {t : Token} {rest : List Char}
      (h : LongestMatch t.kind t.lexeme.toList t.literal rest) : t.lexeme ≠ "" := by
    intro empty
    have first := h.alone.first?_eq
    rw [empty] at first
    cases first
  rcases longestMatch_of_mem_tokens mem with ⟨n, rfl⟩ | ⟨rest, longest⟩
  · rcases longestMatch_of_mem_tokens mem' with ⟨n', rfl⟩ | ⟨rest', longest'⟩
    · exact congrArg Token.endOfInput line
    · exact absurd lexeme.symm (filled longest')
  · rcases longestMatch_of_mem_tokens mem' with ⟨n', rfl⟩ | ⟨rest', longest'⟩
    · exact absurd lexeme (filled longest)
    · rw [← lexeme] at longest'
      obtain ⟨kind, literal⟩ := longest.determined longest'
      cases t
      cases t'
      cases kind
      cases lexeme
      cases literal
      cases line
      rfl

namespace Command

/-- **Two sources have the same listing exactly if they have the same tokens.** -/
theorem written_dumpTokens_eq_iff (source source' : String) :
    (dumpTokens source).out.written = (dumpTokens source').out.written
      ↔ tokens source = tokens source' := by
  constructor
  · intro same
    have lines := congrArg (fun bytes : ByteArray => splitLines bytes.data.toList) same
    rw [written_dumpTokens, written_dumpTokens, splitLines_listing, splitLines_listing] at lines
    refine List.ext_getElem? fun k => ?_
    have line : ((tokens source).map listedLine)[k]? = ((tokens source').map listedLine)[k]? :=
      congrArg (·[k]?) lines
    rw [List.getElem?_map, List.getElem?_map] at line
    cases found : (tokens source)[k]? with
    | none =>
      rw [found, Option.map_none] at line
      exact (Option.map_eq_none_iff.1 line.symm).symm
    | some t =>
      rw [found, Option.map_some] at line
      obtain ⟨t', found', line⟩ := Option.map_eq_some_iff.1 line.symm
      have listed := listed_of_listedLine line.symm
      rw [found', Token.eq_of_lexeme_eq (List.mem_of_getElem? found) (List.mem_of_getElem? found')
        (congrArg ListedToken.lexeme listed) (congrArg ListedToken.line listed)]
  · intro same
    refine ByteArray.ext (Array.toList_inj.1 ?_)
    rw [written_dumpTokens, written_dumpTokens, same]

/-! ## Sources with errors -/

/-- The status of listing a source. -/
theorem status_dumpTokens_eq_iff (source : String) :
    (dumpTokens source).status = 65 ↔ lexicalReports source ≠ [] := by
  have status : (dumpTokens source).status
      = if (lexicalReports source).isEmpty = true then 0 else 65 := rfl
  rw [status, ne_eq, ← List.isEmpty_iff]
  split
  · next clean => exact iff_of_false (by decide) (not_not_intro clean)
  · next faulty => exact iff_of_true rfl faulty

/-- **A script with a lexical error is not run**, and ends with the status of that. -/
theorem runScript?_of_lexicalReports {source : String} (faulty : lexicalReports source ≠ [])
    (o : Options) (steps : Nat) (clock : Nat → Nat) :
    ∃ result, runScript? o steps clock source = some result ∧ result.status = 65 := by
  let s := openSession o clock
  have static : (s.afterReading source).log.hadError = true := by
    obtain ⟨r, mem⟩ := List.exists_mem_of_ne_nil _ faulty
    show (false || (lexicalReports source ++ (s.reading source).reports).any Report.isStatic) = true
    rw [Bool.false_or, List.any_append, List.any_eq_true.2
      ⟨r, mem, allStatic_lexicalReports source r mem⟩, Bool.true_or]
  have stopped : s.compile source = (none, (s.afterReading source).flush) := by
    rw [Session.compile_eq, if_pos static]
  have ended : runScript? o steps clock source
      = some { status := (s.afterReading source).flush.exitCode
               out := (s.afterReading source).flush.machine.out
               err := (s.afterReading source).flush.err } := by
    unfold runScript? Session.runUnit?
    rw [show (openSession o clock).compile source = _ from stopped]
    rfl
  exact ⟨_, ended, if_pos static⟩

/-- **Token listings lose nothing.** For every source the listing has one line for each token, no
line has a control character in it, and the fields of a line read back as those of its token, the
text of the token and of a string among them. Another source has the same listing exactly if it
has the same tokens. The status is 65 exactly if there is a lexical error, and then the command
ends with 65 however that script is run. -/
theorem listings_lose_nothing (source : String) :
    splitLines (dumpTokens source).out.written.data.toList = (tokens source).map listedLine
    ∧ (∀ t ∈ tokens source, Printable t.dump.toList
      ∧ ListedToken.readLine? t.dump.toList = some t.listed)
    ∧ (∀ source', (dumpTokens source').out.written = (dumpTokens source).out.written
      ↔ tokens source' = tokens source)
    ∧ ((dumpTokens source).status = 65 ↔ lexicalReports source ≠ [])
    ∧ (lexicalReports source ≠ [] → ∀ (o : Options) (path : String) (steps : Nat)
        (clock : Nat → Nat) (contents : String → Except ScriptFault ByteArray) (input : ByteArray),
      o.script = some path → scriptText (contents path) = .ok source →
        ∃ result, run? o steps clock contents input = some result ∧ result.status = 65) := by
  refine ⟨?_, fun t _ => ⟨t.printable_dump, t.readLine?_dump⟩,
    fun source' => written_dumpTokens_eq_iff source' source, status_dumpTokens_eq_iff source, ?_⟩
  · rw [written_dumpTokens, splitLines_listing]
  · intro faulty o path steps clock contents input script text
    unfold run?
    rw [script]
    dsimp only
    rw [text]
    dsimp only
    split
    · exact ⟨_, rfl, (status_dumpTokens_eq_iff source).2 faulty⟩
    · exact runScript?_of_lexicalReports faulty o steps clock

/-- A string with a line end, a control character and what looks like an escape in it, and a
character that belongs to no token. -/
def escapedText : String := "\"a\n\x01\\u0041\" é"

theorem listings_lose_nothing_escapes :
    (∃ t ∈ tokens escapedText, t.literal = some (.string "a\n\x01\\u0041")
      ∧ ListedToken.readLine? t.dump.toList = some t.listed)
    ∧ (dumpTokens escapedText).status = 65 := by
  have found : (tokens escapedText)[0]? = some
      { kind := .string, lexeme := "\"a\n\x01\\u0041\""
        literal := some (.string "a\n\x01\\u0041"), line := 2 } := by
    decide +kernel
  obtain ⟨-, lines, -, status, -⟩ := listings_lose_nothing escapedText
  have mem := List.mem_of_getElem? found
  exact ⟨⟨_, mem, rfl, (lines _ mem).2⟩, status.2 (by decide +kernel)⟩

end Command

end Kix
