import Kix.Proofs.FittingSegments

/-!
# Unexpected characters

A character that begins no token is reported and passed over, and scanning goes on behind it.
Nothing else depends on it: with a space in its place (`respace`), the same is scanned, but
without the report (`stray_characters_are_spaces`).

The two scans are kept in step by the segments. Where a character was replaced, a space is cut
off in its place, and in front of it every other segment still fits, because no token other than
a string goes on behind a space, and a string that does would have gone on before.
-/

namespace Kix

/-- Whether an item reports an unexpected character. -/
def Item.isStray : Item → Bool
  | fault (.lexical _ (.unexpectedCharacter _)) => true
  | _ => false

/-- **The character at an index is reported** as unexpected. -/
def StrayAt (source : String) (i : Nat) : Prop :=
  ∃ k item s before text after, Placed source k item s before text after
    ∧ item.isStray = true ∧ before.length = i

/-- **A text with spaces for the unexpected characters** of another. -/
structure Respaced (source text : String) : Prop where
  stray : ∀ i, StrayAt source i → text.toList[i]? = some ' '
  other : ∀ i, ¬StrayAt source i → text.toList[i]? = source.toList[i]?

namespace Segment

/-- A space for an unexpected character; any other segment as it is. -/
def respaced : Segment → Segment
  | stray _ => blank ' '
  | s => s

end Segment

/-- The text of segments with a space for each that is an unexpected character. -/
def respacedText (segs : List Segment) : List Char := segs.flatMap (·.respaced.text)

/-- **Spaces for unexpected characters.** -/
def respace (source : String) : String := .ofList (respacedText (segments source.toList))

/-! ## What a space changes -/

/-- The same character, or a space for one that begins no token. -/
def SameOrSpace (c c' : Char) : Prop := c' = c ∨ c' = ' ' ∧ Segment.Unexpected c

/-- A character and what stands for it are both line ends or neither is. -/
theorem SameOrSpace.eq_newline_iff {c c' : Char} (h : SameOrSpace c c') :
    c' = '\n' ↔ c = '\n' := by
  rcases h with rfl | ⟨rfl, unexpected⟩
  · exact Iff.rfl
  · refine iff_of_false (by decide) ?_
    rintro rfl
    cases unexpected.notBlank

section Texts

variable {cs cs' rest rest' : List Char}

/-- So the lines are the same. -/
theorem newlines_of_sameOrSpace (h : List.Forall₂ SameOrSpace cs cs') :
    newlines cs' = newlines cs := by
  induction h with
  | nil => rfl
  | @cons c c' cs cs' here later ih =>
    unfold newlines at ih ⊢
    rw [List.count_cons, List.count_cons, ih]
    congr 1
    simp only [beq_iff_eq, here.eq_newline_iff]

/-- What has no space was there before. -/
theorem isPrefix_of_sameOrSpace (h : List.Forall₂ SameOrSpace cs cs') {word : List Char}
    (within : word <+: cs') (noSpace : ' ' ∉ word) : word <+: cs := by
  induction h generalizing word with
  | nil => exact within
  | cons here later ih =>
    cases word with
    | nil => exact List.nil_prefix
    | cons d word =>
      obtain ⟨rfl, behind⟩ := List.cons_prefix_cons.1 within
      obtain ⟨notSpace, noSpace⟩ := not_or.1 (List.mem_cons.not.1 noSpace)
      rcases here with rfl | ⟨rfl, -⟩
      · exact List.cons_prefix_cons.2 ⟨rfl, ih behind noSpace⟩
      · exact absurd rfl notSpace

theorem sameOrSpace_refl (cs : List Char) : List.Forall₂ SameOrSpace cs cs :=
  List.forall₂_same.2 fun _ _ => .inl rfl

/-- The longest token is the same. -/
theorem LongestMatch.respace {kind : Kind} {lexeme : List Char} {literal : Option Literal}
    (h : LongestMatch kind lexeme literal rest) (same : List.Forall₂ SameOrSpace rest rest') :
    LongestMatch kind lexeme literal rest' := by
  have whole : List.Forall₂ SameOrSpace (lexeme ++ rest) (lexeme ++ rest') :=
    List.rel_append (sameOrSpace_refl lexeme) same
  refine ⟨h.spells, ?_, fun comment => h.notLineComment ?_, fun comment => h.notBlockComment ?_⟩
  · intro kind' lexeme' literal' spells' within
    by_cases space : ' ' ∈ lexeme'
    · -- a string with a space in it would have to be the token itself
      by_contra longer
      have inside := List.prefix_of_prefix_length_le (List.prefix_append lexeme rest') within
        (Nat.le_of_not_le longer)
      obtain rfl := h.spells.eq_of_isPrefix_of_blank spells' inside (by decide) space
      exact longer (Nat.le_refl _)
    · exact h.longest _ _ _ spells' (isPrefix_of_sameOrSpace whole within space)
  · exact isPrefix_of_sameOrSpace whole comment (by decide)
  · exact isPrefix_of_sameOrSpace whole comment (by decide)

/-- **Segments fit as before.** -/
theorem Segment.Fits.respace {s : Segment} (h : s.Fits rest)
    (same : List.Forall₂ SameOrSpace rest rest') : s.Fits rest' := by
  refine ⟨?_, fun kind lexeme literal isToken => (h.longest _ _ _ isToken).respace same⟩
  cases h.shape with
  | token inner => exact .token inner
  | blank mem => exact .blank mem
  | lineComment within ends =>
    refine .lineComment within ?_
    cases same with
    | nil => exact .inl rfl
    | cons here later =>
      refine .inr ?_
      rcases ends with empty | newline
      · cases empty
      · exact congrArg some (here.eq_newline_iff.2 (Option.some.inj newline))
  | blockComment first => exact .blockComment first
  | stray unexpected => exact .stray unexpected
  | openString never =>
    cases same
    exact .openString never
  | openComment never =>
    cases same
    exact .openComment never

end Texts

/-! ## The segments of the new text -/

namespace Segment

/-- What fits in front of a text still fits with a space in it. -/
theorem Fits.respaced {s : Segment} {rest : List Char} (h : s.Fits rest) :
    s.respaced.Fits rest := by
  cases s with
  | stray c => exact ⟨.blank (by decide), nofun⟩
  | _ => exact h

/-- Respacing replaces single characters, of which no token begins with one. -/
theorem Fits.sameOrSpace {s : Segment} {rest : List Char} (h : s.Fits rest) :
    List.Forall₂ SameOrSpace s.text s.respaced.text := by
  cases h.shape with
  | stray unexpected => exact .cons (.inr ⟨rfl, unexpected⟩) .nil
  | _ => exact sameOrSpace_refl _

end Segment

/-- **Respacing a text** replaces only characters that begin no token. -/
theorem sameOrSpace_respacedText (cs : List Char) :
    List.Forall₂ SameOrSpace cs (respacedText (segments cs)) := by
  fun_induction segments cs with
  | case1 => exact .nil
  | case2 first rest ih =>
    have here := (Segment.fits_cut first rest).sameOrSpace
    rw [← Segment.text_cut first rest]
    exact List.rel_append here ih

/-- **The segments of the new text** are those of the old one, with spaces for unexpected
characters. -/
theorem segments_respacedText (cs : List Char) :
    segments (respacedText (segments cs)) = (segments cs).map Segment.respaced := by
  fun_induction segments cs with
  | case1 =>
    show segments [] = []
    rw [segments]
  | case2 first rest ih =>
    have fits := ((Segment.fits_cut first rest).respace (sameOrSpace_respacedText _)).respaced
    rw [List.map_cons, ← ih, ← segments_of_fits fits]
    rfl

/-! ## What is scanned -/

namespace Segment

variable {s : Segment} {item : Item} {line : Nat}

/-- Unexpected characters are reported where they are segments. -/
theorem exists_stray_of_item? (found : s.item? line = some item) (isStray : item.isStray = true) :
    ∃ c, s = stray c := by
  cases s with
  | stray c => exact ⟨c, rfl⟩
  | token kind lexeme literal | openString lexeme | openComment lexeme =>
    cases found
    cases isStray
  | blank c | comment lexeme => cases found

/-- A space takes the place of a report. -/
theorem item?_respaced (s : Segment) (line : Nat) :
    (s.respaced.item? line).toList = (s.item? line).toList.filter (!·.isStray) := by
  cases s <;> rfl

end Segment

/-- The items are the same but for the stray ones, which are gone. -/
theorem itemsIn_respaced {segs : List Segment}
    (same : ∀ s ∈ segs, newlines s.respaced.text = newlines s.text) (line : Nat) :
    itemsIn line (segs.map Segment.respaced) = (itemsIn line segs).filter (!·.isStray) := by
  induction segs generalizing line with
  | nil => rfl
  | cons s segs ih =>
    obtain ⟨here, later⟩ := List.forall_mem_cons.1 same
    rw [List.map_cons, itemsIn, itemsIn, here, Segment.item?_respaced, ih later,
      List.filter_append]

/-- No line end is replaced. -/
theorem Segment.newlines_respaced {cs : List Char} {s : Segment} (h : s ∈ segments cs) :
    newlines s.respaced.text = newlines s.text := by
  refine of_mem_segments (p := fun s => newlines s.respaced.text = newlines s.text) ?_ h
  exact fun first rest => newlines_of_sameOrSpace (fits_cut first rest).sameOrSpace

theorem toList_respace (source : String) :
    (respace source).toList = respacedText (segments source.toList) :=
  String.toList_ofList

/-- **Scanning the respaced text** finds everything but the stray characters. -/
theorem scan_respace (source : String) :
    scan (respace source) = (scan source).filter (!·.isStray) := by
  have lines : lastLine (respace source) = lastLine source := by
    unfold lastLine
    rw [toList_respace, newlines_of_sameOrSpace (sameOrSpace_respacedText _)]
  rw [scan_eq, scan_eq, List.filter_append, toList_respace, segments_respacedText,
    itemsIn_respaced fun s => Segment.newlines_respaced, lines]
  rfl

/-! ## Where the spaces are -/

/-- **An unexpected character is a segment of its own.** -/
theorem strayAt_iff {source : String} {i : Nat} :
    StrayAt source i ↔ ∃ pre c post, segments source.toList = pre ++ .stray c :: post
      ∧ (pre.flatMap Segment.text).length = i := by
  constructor
  · rintro ⟨k, item, s, before, text, after, placed, isStray, rfl⟩
    obtain ⟨pre, seg, post, split, rfl, -, -, found⟩ := placed.exists_segment
    obtain ⟨c, rfl⟩ := Segment.exists_stray_of_item? found isStray
    exact ⟨pre, c, post, split, rfl⟩
  · rintro ⟨pre, c, post, split, rfl⟩
    exact ⟨_, _, _, _, _, _, placed_of_segments split rfl, rfl, rfl⟩

/-- A segment is as long as before. -/
theorem Segment.length_respaced (s : Segment) : s.respaced.text.length = s.text.length := by
  cases s <;> rfl

theorem respacedText_cons (s : Segment) (segs : List Segment) :
    respacedText (s :: segs) = s.respaced.text ++ respacedText segs := rfl

/-- At the place of an unexpected character there is a space. -/
theorem getElem?_respacedText_stray (pre : List Segment) (c : Char) (post : List Segment) :
    (respacedText (pre ++ .stray c :: post))[(pre.flatMap Segment.text).length]? = some ' ' := by
  induction pre with
  | nil => rfl
  | cons s pre ih =>
    rw [List.cons_append, respacedText_cons, List.flatMap_cons, List.length_append,
      ← s.length_respaced, List.getElem?_append_right (Nat.le_add_right _ _),
      Nat.add_sub_cancel_left, ih]

/-- The text is the same but for the unexpected characters. -/
theorem getElem?_respacedText_other (segs : List Segment) (i : Nat)
    (other : ∀ pre c post, segs = pre ++ .stray c :: post → (pre.flatMap Segment.text).length ≠ i) :
    (respacedText segs)[i]? = (segs.flatMap Segment.text)[i]? := by
  induction segs generalizing i with
  | nil => rfl
  | cons s segs ih =>
    rw [respacedText_cons, List.flatMap_cons]
    by_cases inside : i < s.text.length
    · rw [List.getElem?_append_left inside, List.getElem?_append_left (s.length_respaced ▸ inside)]
      cases s with
      | stray c => exact absurd (Nat.lt_one_iff.1 inside).symm (other [] c segs rfl)
      | _ => rfl
    · have behind := Nat.le_of_not_lt inside
      rw [List.getElem?_append_right behind,
        List.getElem?_append_right (s.length_respaced ▸ behind), s.length_respaced]
      refine ih _ fun pre c post split length => other (s :: pre) c post (congrArg _ split) ?_
      rw [List.flatMap_cons, List.length_append, length, Nat.add_sub_of_le behind]

/-- **Such a text exists**: it is the one that respacing gives. -/
theorem respaced_respace (source : String) : Respaced source (respace source) where
  stray i h := by
    obtain ⟨pre, c, post, split, rfl⟩ := strayAt_iff.1 h
    rw [toList_respace, split]
    exact getElem?_respacedText_stray pre c post
  other i h := by
    have same := getElem?_respacedText_other (segments source.toList) i
      fun pre c post split length => h (strayAt_iff.2 ⟨pre, c, post, split, length⟩)
    rw [toList_respace, same, text_segments]

/-- **There is only one such text**, since each of its characters is given. -/
theorem Respaced.unique {source text text' : String} (h : Respaced source text)
    (h' : Respaced source text') : text = text' := by
  refine String.ext (List.ext_getElem? fun i => ?_)
  by_cases stray : StrayAt source i
  · rw [h.stray i stray, h'.stray i stray]
  · rw [h.other i stray, h'.other i stray]

/-- **An unexpected character is the same as a space.** Spaces can be put in the place of the
unexpected characters in one way, and then everything is scanned as before but for the reports
about them. -/
theorem stray_characters_are_spaces (source : String) :
    (∀ text, Respaced source text ↔ text = respace source)
      ∧ scan (respace source) = (scan source).filter (!·.isStray) := by
  refine ⟨fun text => ⟨fun h => h.unique (respaced_respace source), ?_⟩, scan_respace source⟩
  rintro rfl
  exact respaced_respace source

example : respace "1é.5 !€= /~/ \"é\"" = "1 .5 ! = / / \"é\"" := by decide +kernel

end Kix
