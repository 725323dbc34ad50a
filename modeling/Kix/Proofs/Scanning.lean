import Kix.Proofs.Levels
import Kix.Token.Source

/-!
# The tokens of a source text

What every token that is scanned has to do with its text: a token that denotes a
value is of the kind that such values are written with (`lawful_of_mem_tokens`), and
only the last token marks the end of the input (`Segment.sound_of_mem_segments`).
-/

namespace Kix

namespace Kind

/-- A word is a name or one of the reserved words. -/
theorem ofWord_mem (word : String) : ofWord word ∈ identifier :: reserved.map Prod.snd := by
  unfold ofWord
  cases found : reserved.lookup word with
  | none => exact List.mem_cons_self
  | some kind =>
    obtain ⟨before, behind, split, -⟩ := List.lookup_eq_some_iff.1 found
    refine List.mem_cons_of_mem _ (List.mem_map.2 ⟨(word, kind), ?_, rfl⟩)
    rw [split]
    exact List.mem_append_right _ List.mem_cons_self

/-- The kinds of tokens that need not carry a value. -/
def isPlain (kind : Kind) : Bool := kind != .number && kind != .string && kind != .eof

theorem isPlain_ofWord (word : String) : (ofWord word).isPlain = true := by
  have all : ∀ kind ∈ identifier :: reserved.map Prod.snd, kind.isPlain = true := by decide
  exact all _ (ofWord_mem word)

/-- A token of one character carries no value. -/
theorem isPlain_ofSymbol? {c : Char} {kind : Kind} (h : ofSymbol? c = some kind) :
    kind.isPlain = true := by
  unfold ofSymbol? at h
  split at h <;> cases h <;> rfl

/-- Nor does one with an equals sign behind it. -/
theorem isPlain_ofSymbolEqual? {c : Char} {kind : Kind} (h : ofSymbolEqual? c = some kind) :
    kind.isPlain = true := by
  unfold ofSymbolEqual? at h
  split at h <;> cases h <;> rfl

end Kind

/-- Tokens other than numbers and strings denote what their kind says. -/
theorem Token.lawful_of_isPlain {t : Token} (h : t.kind.isPlain = true) : t.Lawful := by
  intro value denoted
  unfold Token.denotes? at denoted
  split at denoted
  case h_4 sign | h_5 sign =>
    rw [sign] at h
    cases h
  case h_6 => cases denoted
  all_goals
    next sign =>
      cases denoted
      exact sign

namespace Segment

/-- **The tokens among segments are as they should be**: none marks the end of the
input, and none denotes a value of another kind. -/
def Sound : Segment → Prop
  | token kind _ literal =>
    kind ≠ .eof ∧ ∀ lexeme line, Token.Lawful { kind, lexeme, literal, line }
  | _ => True

/-- A token that need not carry a value is as it should be, whatever it carries. -/
theorem sound_of_isPlain {kind : Kind} (h : kind.isPlain = true) (lexeme : List Char)
    (literal : Option Literal) : (token kind lexeme literal).Sound := by
  refine ⟨?_, fun _ _ => Token.lawful_of_isPlain h⟩
  rintro rfl
  cases h

/-- A string, if it is closed, is a token of its own kind. -/
theorem sound_cutString (rest : List Char) : (cutString rest).1.Sound := by
  unfold cutString
  dsimp only
  split
  · refine ⟨nofun, fun lexeme line value denoted => ?_⟩
    cases denoted
    rfl
  · trivial

/-- A slash, or a comment, which is no token. -/
theorem sound_cutSlash (rest : List Char) : (cutSlash rest).1.Sound := by
  unfold cutSlash
  split
  · trivial
  · split <;> trivial
  · exact sound_of_isPlain rfl _ _

theorem sound_number (lexeme : List Char) (x : Float) :
    (token .number lexeme (some (.number x))).Sound := by
  refine ⟨nofun, fun lexeme line value denoted => ?_⟩
  cases denoted
  rfl

/-- The value of a number is one. -/
theorem sound_cutNumber (first : Char) (rest : List Char) : (cutNumber first rest).1.Sound := by
  unfold cutNumber
  dsimp only
  split
  · split <;> exact sound_number _ _
  · exact sound_number _ _

/-- An operator of one character or two. -/
theorem sound_cutSymbol (first : Char) (rest : List Char) : (cutSymbol first rest).1.Sound := by
  unfold cutSymbol
  split
  · next found => exact sound_of_isPlain (Kind.isPlain_ofSymbolEqual? found) _ _
  · split
    · next found => exact sound_of_isPlain (Kind.isPlain_ofSymbol? found) _ _
    · trivial

/-- **What is cut off is as it should be**, by the first character. -/
theorem sound_cut (first : Char) (rest : List Char) : (cut first rest).1.Sound := by
  unfold cut
  split
  · trivial
  split
  · exact sound_cutString rest
  split
  · exact sound_cutSlash rest
  split
  · exact sound_cutNumber first rest
  split
  · exact sound_of_isPlain (Kind.isPlain_ofWord _) _ _
  · exact sound_cutSymbol first rest

/-- **So are all segments of a text.** -/
theorem sound_of_mem_segments {cs : List Char} {s : Segment} (h : s ∈ segments cs) : s.Sound :=
  of_mem_segments sound_cut h

end Segment

/-- A token among the items of sound segments is lawful. -/
theorem lawful_of_mem_itemsFrom {segs : List Segment} (sound : ∀ s ∈ segs, s.Sound) {line : Nat}
    {t : Token} (h : .token t ∈ itemsFrom line segs) : t.Lawful := by
  induction segs generalizing line with
  | nil =>
    cases List.mem_singleton.1 h
    exact fun value denoted => nomatch denoted
  | cons s rest ih =>
    have ih := @ih fun s mem => sound s (List.mem_cons_of_mem _ mem)
    unfold itemsFrom at h
    cases s with
    | token kind lexeme literal =>
      rcases List.mem_cons.1 h with same | h
      · cases same
        exact (sound _ List.mem_cons_self).2 _ _
      · exact ih h
    | stray c | openString lexeme | openComment lexeme =>
      rcases List.mem_cons.1 h with same | h
      · cases same
      · exact ih h
    | blank c | comment lexeme => exact ih h

/-- **A scanned token that denotes a value is of the kind of such values.** -/
theorem lawful_of_mem_tokens {source : String} {t : Token} (h : t ∈ tokens source) :
    t.Lawful := by
  obtain ⟨item, mem, isToken⟩ := List.mem_filterMap.1 h
  cases item with
  | fault r => cases isToken
  | token t' =>
    cases isToken
    exact lawful_of_mem_itemsFrom (fun _ => Segment.sound_of_mem_segments) mem

end Kix
