import Kix.Number.Text
import Kix.Token.Basic

/-!
# Source text cut into segments

Every source text is a sequence of **segments**: tokens, single blank
characters, comments, and pieces that belong to no token – a stray character,
or the rest of the text behind a quote or a comment opener that is never
closed. `Segment.cut` takes the first segment off a nonempty text and
`segments` goes on until nothing is left. Nothing is lost or added:
`text_segments` says that the segments, written one after the other, are the
source again.

Lines are no concern here. A segment knows its own text, so the line of each
follows by counting newlines (`Kix.Token.Source`).
-/

namespace Kix

/-- A piece of source text, classified. -/
inductive Segment where
  | token (kind : Kind) (lexeme : List Char) (literal : Option Literal)
  | blank (c : Char)
  | comment (lexeme : List Char)
  /-- A character that begins no token. -/
  | stray (c : Char)
  /-- A string without a closing quote, up to the end of the text. -/
  | openString (lexeme : List Char)
  /-- A block comment that is not closed, up to the end of the text. -/
  | openComment (lexeme : List Char)
  deriving DecidableEq

namespace Segment

/-- The source text of a segment. -/
def text : Segment → List Char
  | token _ lexeme _ | comment lexeme | openString lexeme | openComment lexeme => lexeme
  | blank c | stray c => [c]

/-- The characters that separate tokens. -/
def isBlank (c : Char) : Bool := c == ' ' || c == '\r' || c == '\t' || c == '\n'

/-- Words begin with an ASCII letter or an underscore. -/
def isWordStart (c : Char) : Bool := c.isAlpha || c == '_'

/-- Words go on with ASCII letters, digits and underscores. -/
def isWordRest (c : Char) : Bool := c.isAlphanum || c == '_'

/-! ## The first segment of a text

Each function below takes the text behind the character that announced its
kind of segment and gives the segment with what remains. -/

/-- A string: everything up to the next quote, line ends included. -/
def cutString (rest : List Char) : Segment × List Char :=
  let body := rest.takeWhile (· != '"')
  match rest.dropWhile (· != '"') with
  | quote :: after =>
    (.token .string ('"' :: (body ++ [quote])) (some (.string (.ofList body))), after)
  | [] => (.openString ('"' :: rest), [])

/-- The text up to the first `*/` and the text behind it. -/
def splitClose : List Char → Option (List Char × List Char)
  | [] => none
  | c :: rest =>
    match c, rest with
    | '*', '/' :: after => some ([], after)
    | _, _ => (splitClose rest).map fun (body, after) => (c :: body, after)

/-- A slash, or a comment up to the end of the line or the first `*/`. -/
def cutSlash : List Char → Segment × List Char
  | '/' :: rest =>
    (.comment ('/' :: '/' :: rest.takeWhile (· != '\n')), rest.dropWhile (· != '\n'))
  | '*' :: rest =>
    match splitClose rest with
    | some (body, after) => (.comment ('/' :: '*' :: (body ++ ['*', '/'])), after)
    | none => (.openComment ('/' :: '*' :: rest), [])
  | rest => (.token .slash ['/'] none, rest)

/-- A number: digits, and a point with more digits if there are any behind
it. -/
def cutNumber (first : Char) (rest : List Char) : Segment × List Char :=
  let whole := first :: rest.takeWhile Char.isDigit
  let after := rest.dropWhile Char.isDigit
  match after with
  | '.' :: digit :: others =>
    if digit.isDigit then
      let fraction := digit :: others.takeWhile Char.isDigit
      (.token .number (whole ++ '.' :: fraction)
        (some (.number (Number.ofNumeral whole fraction))), others.dropWhile Char.isDigit)
    else (.token .number whole (some (.number (Number.ofNumeral whole []))), after)
  | _ => (.token .number whole (some (.number (Number.ofNumeral whole []))), after)

/-- A word, reserved or not. -/
def cutWord (first : Char) (rest : List Char) : Segment × List Char :=
  let word := first :: rest.takeWhile isWordRest
  (.token (.ofWord (.ofList word)) word none, rest.dropWhile isWordRest)

/-- An operator of two characters if there is one, else of one character, else
a stray character. -/
def cutSymbol (first : Char) (rest : List Char) : Segment × List Char :=
  match Kind.ofSymbolEqual? first, rest with
  | some kind, '=' :: after => (.token kind [first, '='] none, after)
  | _, _ =>
    match Kind.ofSymbol? first with
    | some kind => (.token kind [first] none, rest)
    | none => (.stray first, rest)

/-- **The first segment of a text** that begins with `first`. -/
def cut (first : Char) (rest : List Char) : Segment × List Char :=
  if isBlank first then (.blank first, rest)
  else if first = '"' then cutString rest
  else if first = '/' then cutSlash rest
  else if first.isDigit then cutNumber first rest
  else if isWordStart first then cutWord first rest
  else cutSymbol first rest

/-! ## Nothing is lost -/

theorem text_cutString (rest : List Char) :
    (cutString rest).1.text ++ (cutString rest).2 = '"' :: rest := by
  unfold cutString
  dsimp only
  split
  · next quote after h =>
    have split := List.takeWhile_append_dropWhile (p := (· != '"')) (l := rest)
    rw [h] at split
    simp only [text, List.cons_append, List.append_assoc, List.nil_append, split]
  · simp [text]

theorem splitClose_eq {cs body after : List Char} (h : splitClose cs = some (body, after)) :
    body ++ '*' :: '/' :: after = cs := by
  fun_induction splitClose cs generalizing body after with
  | case1 => simp at h
  | case2 => simp_all
  | case3 c rest _ ih =>
    obtain ⟨⟨b, a⟩, hs, he⟩ := Option.map_eq_some_iff.1 h
    simp only [Prod.mk.injEq] at he
    obtain ⟨rfl, rfl⟩ := he
    simp [ih hs]

theorem text_cutSlash (rest : List Char) :
    (cutSlash rest).1.text ++ (cutSlash rest).2 = '/' :: rest := by
  unfold cutSlash
  split
  · simp [text]
  · split
    · next h => simp [text, splitClose_eq h]
    · simp [text]
  · simp [text]

theorem text_cutNumber (first : Char) (rest : List Char) :
    (cutNumber first rest).1.text ++ (cutNumber first rest).2 = first :: rest := by
  unfold cutNumber
  dsimp only
  have split := List.takeWhile_append_dropWhile (p := Char.isDigit) (l := rest)
  split
  · next digit others h =>
    split
    · rw [h] at split
      simp [text, split]
    · simp [text]
  · simp [text]

theorem text_cutWord (first : Char) (rest : List Char) :
    (cutWord first rest).1.text ++ (cutWord first rest).2 = first :: rest := by
  simp [cutWord, text]

theorem text_cutSymbol (first : Char) (rest : List Char) :
    (cutSymbol first rest).1.text ++ (cutSymbol first rest).2 = first :: rest := by
  unfold cutSymbol
  split
  · simp [text]
  · split <;> simp [text]

/-- **Cutting loses nothing**: the first segment and the rest are the text. -/
theorem text_cut (first : Char) (rest : List Char) :
    (cut first rest).1.text ++ (cut first rest).2 = first :: rest := by
  unfold cut
  split
  · simp [text]
  split
  · next h => rw [h]; exact text_cutString rest
  split
  · next h => rw [h]; exact text_cutSlash rest
  split
  · exact text_cutNumber first rest
  split
  · exact text_cutWord first rest
  · exact text_cutSymbol first rest

/-- No segment is empty. -/
theorem text_cut_ne_nil (first : Char) (rest : List Char) : (cut first rest).1.text ≠ [] := by
  unfold cut cutString cutSlash cutNumber cutWord cutSymbol
  dsimp only
  repeat' split
  all_goals simp [text]

/-- What remains behind the first segment is shorter than the text. -/
theorem length_cut_lt (first : Char) (rest : List Char) :
    (cut first rest).2.length < (first :: rest).length := by
  have whole := congrArg List.length (text_cut first rest)
  have nonempty := List.length_pos_iff.2 (text_cut_ne_nil first rest)
  rw [List.length_append] at whole
  omega

end Segment

/-! ## The whole text -/

/-- **The segments of a text**, in order. -/
def segments : List Char → List Segment
  | [] => []
  | first :: rest => (Segment.cut first rest).1 :: segments (Segment.cut first rest).2
termination_by cs => cs.length
decreasing_by exact Segment.length_cut_lt first rest

/-- **The segments are the text**: written one after the other they give it
back. -/
theorem text_segments (cs : List Char) : (segments cs).flatMap Segment.text = cs := by
  fun_induction segments cs with
  | case1 => rfl
  | case2 first rest ih => rw [List.flatMap_cons, ih, Segment.text_cut]

/-- Each segment of a text is the first one of some text. -/
theorem Segment.of_mem_segments {p : Segment → Prop}
    (first : ∀ first rest, p (Segment.cut first rest).1) {cs : List Char} {s : Segment}
    (h : s ∈ segments cs) : p s := by
  fun_induction segments cs with
  | case1 => simp at h
  | case2 c rest ih =>
    rcases List.mem_cons.1 h with rfl | h
    · exact first c rest
    · exact ih h

/-- Each segment of a text is nonempty. -/
theorem text_ne_nil_of_mem_segments {cs : List Char} {s : Segment} (h : s ∈ segments cs) :
    s.text ≠ [] :=
  Segment.of_mem_segments (p := fun s => s.text ≠ []) Segment.text_cut_ne_nil h

end Kix
