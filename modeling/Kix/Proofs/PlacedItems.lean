import Kix.Proofs.SourcePartition

/-!
# Where items stand

Scanning yields items one after the other. Each item but the last is about a part of the text:
a token is about its lexeme, a report about the text that belongs to no token. The cursor that
yields an item is left around that part, and so tells where the item stands (`Placed`).

A place determines what stands there, and every item has one (`exists_placed`). The line of an
item counts the line ends up to the end of its part of the text (`lines_count_newlines`).
-/

namespace Kix

namespace ByteCursor

/-- **What a call of the cursor yields**, and the cursor behind it. Calls are counted from
zero. -/
def call? (source : String) : Nat → ByteCursor → Option (Option Item × ByteCursor)
  | 0, s => s.next? source
  | k + 1, s => (s.next? source).bind fun r => call? source k r.2

variable {source : String} {before rest : List Char} {s s' : ByteCursor}

/-- Cursors with the same first call have the same calls. -/
theorem call?_congr (h : s.next? source = s'.next? source) (k : Nat) :
    call? source k s = call? source k s' := by
  cases k with
  | zero => exact h
  | succ k =>
    rw [call?, call?, h]

/-- A call after the first is one of the cursor behind it. -/
theorem call?_succ {item : Item} (h : s.next? source = some (some item, s')) (k : Nat) :
    call? source (k + 1) s = call? source k s' := by
  rw [call?, h]
  rfl

/-- The cursor behind a segment that stands behind others. -/
def behind (s : ByteCursor) (pre : List Segment) (seg : Segment) : ByteCursor where
  start := s.curr + byteSize pre
  curr := s.curr + byteSize (pre ++ [seg])
  line := s.line + newlines (pre.flatMap Segment.text ++ seg.text)
  done := s.done

theorem byteSize_cons (seg : Segment) (segs : List Segment) :
    byteSize (seg :: segs) = (encode seg.text).length + byteSize segs := by
  unfold byteSize
  rw [List.flatMap_cons, encode_append, List.length_append]

theorem behind_nil (s : ByteCursor) (seg : Segment) : s.behind [] seg = s.past seg.text := by
  unfold behind past begun through
  rw [List.nil_append, byteSize_cons]
  rfl

/-- A cursor behind several segments goes past the first of them. -/
theorem behind_cons (s : ByteCursor) (p : Segment) (pre : List Segment) (seg : Segment) :
    s.behind (p :: pre) seg = (s.past p.text).behind pre seg := by
  unfold behind past begun through
  simp only [List.cons_append, byteSize_cons, List.flatMap_cons, newlines_append, Nat.add_assoc]

/-- **A segment is yielded after the items of those before it.** -/
theorem At.call? (place : At source before rest s) (notDone : s.done = false)
    {pre post : List Segment} {seg : Segment} (split : segments rest = pre ++ seg :: post)
    {item : Item}
    (found : seg.item? (s.line + newlines (pre.flatMap Segment.text ++ seg.text)) = some item) :
    call? source (itemsIn s.line pre).length s = some (some item, s.behind pre seg) := by
  induction pre generalizing before rest s with
  | nil =>
    cases rest with
    | nil =>
      rw [segments] at split
      cases split
    | cons first rest =>
      have next := place.next?_cons notDone
      rw [segments] at split
      obtain ⟨rfl, -⟩ := List.cons.inj split
      rw [List.flatMap_nil, List.nil_append] at found
      rw [found] at next
      rw [behind_nil]
      exact next
  | cons p pre ih =>
    cases rest with
    | nil =>
      rw [segments] at split
      cases split
    | cons first rest =>
      have next := place.next?_cons notDone
      rw [segments] at split
      obtain ⟨rfl, later⟩ := List.cons.inj split
      rw [List.flatMap_cons, List.append_assoc, newlines_append, ← Nat.add_assoc] at found
      have yielded := ih place.past.at_text notDone later found
      rw [behind_cons, ← yielded, itemsIn]
      cases here : (Segment.cut first rest).1.item?
          (s.line + newlines (Segment.cut first rest).1.text) with
      | none =>
        rw [here] at next
        exact call?_congr next _
      | some item' =>
        rw [here] at next
        rw [Option.toList_some, List.singleton_append, List.length_cons]
        exact call?_succ next _

end ByteCursor

/-! ## Items and segments -/

/-- An item is that of a segment behind those of the items before it. -/
theorem exists_segment_of_getElem? {line k : Nat} {segs : List Segment} {item : Item}
    (h : (itemsIn line segs)[k]? = some item) :
    ∃ pre seg post, segs = pre ++ seg :: post ∧ (itemsIn line pre).length = k
      ∧ seg.item? (line + newlines (pre.flatMap Segment.text ++ seg.text)) = some item := by
  induction segs generalizing line k with
  | nil => cases h
  | cons s rest ih =>
    rw [itemsIn] at h
    cases here : s.item? (line + newlines s.text) with
    | none =>
      rw [here] at h
      obtain ⟨pre, seg, post, rfl, rfl, found⟩ := ih h
      refine ⟨s :: pre, seg, post, rfl, ?_, ?_⟩
      · rw [itemsIn, here]
        rfl
      · rw [List.flatMap_cons, List.append_assoc, newlines_append, ← Nat.add_assoc]
        exact found
    | some item' =>
      rw [here] at h
      cases k with
      | zero =>
        cases h
        exact ⟨[], s, rest, rfl, rfl, here⟩
      | succ k =>
        obtain ⟨pre, seg, post, rfl, rfl, found⟩ := ih h
        refine ⟨s :: pre, seg, post, rfl, ?_, ?_⟩
        · rw [itemsIn, here]
          rfl
        · rw [List.flatMap_cons, List.append_assoc, newlines_append, ← Nat.add_assoc]
          exact found

/-- The item of a segment stands behind those of the segments before it. -/
theorem getElem?_itemsIn {line : Nat} {pre : List Segment} {seg : Segment} {item : Item}
    (found : seg.item? (line + newlines (pre.flatMap Segment.text ++ seg.text)) = some item)
    (post : List Segment) :
    (itemsIn line (pre ++ seg :: post))[(itemsIn line pre).length]? = some item := by
  rw [newlines_append, ← Nat.add_assoc] at found
  rw [itemsIn_append, List.getElem?_append_right (Nat.le_refl _), Nat.sub_self, itemsIn, found]
  rfl

/-! ## Places -/

namespace Item

/-- The line of an item. -/
def line? : Item → Option Nat
  | token t => some t.line
  | fault r => r.line?

/-- Whether an item marks the end of the input. -/
def isEnd : Item → Bool
  | token t => t.kind == .eof
  | fault _ => false

/-- **What an item is about**: a token about its lexeme, a report about a character, or about
all that is left of the text. -/
def About (text after : List Char) : Item → Prop
  | token t => t.lexeme.toList = text
  | fault (.lexical _ (.unexpectedCharacter c)) => text = [c]
  | fault (.lexical _ .unterminatedString) => ['"'] <+: text ∧ after = []
  | fault (.lexical _ .unterminatedComment) => ['/', '*'] <+: text ∧ after = []
  | fault _ => False

end Item

/-- **Where an item stands**: it is yielded at call `k`, after which the cursor `s` is around the
text that the item is about. -/
structure Placed (source : String) (k : Nat) (item : Item) (s : ByteCursor)
    (before text after : List Char) : Prop where
  whole : source.toList = before ++ (text ++ after)
  yielded : (scan source)[k]? = some item
  inner : item.isEnd = false
  about : item.About text after
  call : ByteCursor.call? source k {} = some (some item, s)
  start : s.start = (encode before).length
  stop : s.curr = (encode (before ++ text)).length

/-- What a segment of a shape yields is about its text. -/
theorem Segment.Shape.about {seg : Segment} {after : List Char} (shape : seg.Shape after)
    {line : Nat} {item : Item} (found : seg.item? line = some item) :
    item.About seg.text after := by
  cases shape with
  | token inner =>
    cases found
    exact String.toList_ofList
  | blank mem | lineComment within ends | blockComment first => cases found
  | stray unexpected =>
    cases found
    rfl
  | openString never | openComment never =>
    cases found
    exact ⟨⟨_, rfl⟩, rfl⟩

theorem Segment.Sound.isEnd {seg : Segment} (sound : seg.Sound) {line : Nat} {item : Item}
    (found : seg.item? line = some item) : item.isEnd = false := by
  cases seg with
  | token kind lexeme literal =>
    cases found
    exact beq_eq_false_iff_ne.2 sound.1
  | blank c | comment lexeme => cases found
  | stray c | openString lexeme | openComment lexeme =>
    cases found
    rfl

section Places

variable {source : String} {k : Nat} {item : Item}

/-- **The item of a segment stands where the segment does.** -/
theorem placed_of_segments {pre post : List Segment} {seg : Segment}
    (split : segments source.toList = pre ++ seg :: post)
    (found : seg.item? (1 + newlines (pre.flatMap Segment.text ++ seg.text)) = some item) :
    Placed source (itemsIn 1 pre).length item (ByteCursor.behind {} pre seg)
      (pre.flatMap Segment.text) seg.text (post.flatMap Segment.text) := by
  have whole : source.toList
      = pre.flatMap Segment.text ++ (seg.text ++ post.flatMap Segment.text) := by
    rw [← List.flatMap_cons, ← List.flatMap_append, ← split, text_segments]
  obtain ⟨first, rest, -, cut⟩ := exists_cut_of_segments_eq split
  have shape := Segment.shape_cut first rest
  have sound := Segment.sound_cut first rest
  rw [cut] at shape sound
  have place : ByteCursor.At source [] source.toList {} := ⟨rfl, rfl⟩
  exact
    { whole
      yielded := by
        have found := getElem?_itemsIn found post
        rw [scan_eq, split, List.getElem?_append_left (List.getElem?_eq_some_iff.1 found).1, found]
      inner := sound.isEnd found
      about := shape.about found
      call := place.call? rfl split found
      start := Nat.zero_add _
      stop := by
        show 0 + byteSize (pre ++ [seg]) = _
        unfold byteSize
        rw [Nat.zero_add, List.flatMap_append, List.flatMap_singleton] }

/-- **Every item but the last has its place.** -/
theorem exists_segment_of_scan (yielded : (scan source)[k]? = some item) :
    (∃ pre seg post, segments source.toList = pre ++ seg :: post ∧ (itemsIn 1 pre).length = k
      ∧ seg.item? (1 + newlines (pre.flatMap Segment.text ++ seg.text)) = some item)
    ∨ k + 1 = (scan source).length ∧ item = .token (.endOfInput (lastLine source)) := by
  rw [scan_eq] at yielded ⊢
  rw [List.length_append, List.length_singleton]
  rcases Nat.lt_trichotomy k (itemsIn 1 (segments source.toList)).length with inside | rfl | beyond
  · rw [List.getElem?_append_left inside] at yielded
    exact .inl (exists_segment_of_getElem? yielded)
  · rw [List.getElem?_concat_length] at yielded
    exact .inr ⟨rfl, (Option.some.inj yielded).symm⟩
  · rw [List.getElem?_eq_none (by rw [List.length_append, List.length_singleton]; omega)] at yielded
    cases yielded

/-- An item stands on the line on which its segment ends. -/
theorem Segment.line?_of_item? {seg : Segment} {line : Nat} (found : seg.item? line = some item) :
    item.line? = some line := by
  cases seg with
  | token kind lexeme literal =>
    cases found
    rfl
  | blank c | comment lexeme => cases found
  | stray c | openString lexeme | openComment lexeme =>
    cases found
    rfl

/-- **The line of an item counts line ends**: those in front of the text that the item is about,
and those in it. The end of the input is on the line behind all of them. -/
theorem lines_count_newlines (source : String) (k : Nat) (item : Item)
    (yielded : (scan source)[k]? = some item) :
    (∃ s before text after, Placed source k item s before text after
      ∧ item.line? = some (1 + newlines (before ++ text)))
    ∨ k + 1 = (scan source).length
      ∧ item = .token (.endOfInput (1 + newlines source.toList)) := by
  rcases exists_segment_of_scan yielded with ⟨pre, seg, post, split, rfl, found⟩ | last
  · exact .inl ⟨_, _, _, _, placed_of_segments split found, Segment.line?_of_item? found⟩
  · exact .inr last

end Places

/-- A text with line ends in a string, behind a comment, in a comment and in one left open. -/
def scatteredLines : String := "\"a\nb\" // c\n/* d\n*/ é /*\n"

theorem lines_count_newlines_scattered :
    ∃ s before text after,
      Placed scatteredLines 2 (.fault (.lexical 5 .unterminatedComment)) s before text after
      ∧ some 5 = some (1 + newlines (before ++ text)) := by
  have yielded : (scan scatteredLines)[2]? = some (.fault (.lexical 5 .unterminatedComment)) := by
    decide +kernel
  exact (lines_count_newlines _ _ _ yielded).resolve_right fun last => nomatch last.2

/-! ## A place determines what stands there -/

/-- Two first parts of one text with equally many bytes are the same. -/
theorem eq_of_length_encode {cs cs' rest rest' : List Char} (whole : cs ++ rest = cs' ++ rest')
    (bytes : (encode cs).length = (encode cs').length) : cs = cs' := by
  rcases List.append_eq_append_iff.1 whole with ⟨more, rfl, -⟩ | ⟨more, rfl, -⟩
  all_goals
    rw [encode_append, List.length_append] at bytes
    have none : more = [] := by
      by_contra nonempty
      have := ByteCursor.length_encode_pos_of_ne_nil nonempty
      omega
    rw [none, List.append_nil]

section Unique

variable {source : String} {k : Nat} {item item' : Item} {s s' : ByteCursor}
  {before before' text text' after after' : List Char}

/-- **The place of an item is determined.** -/
theorem Placed.unique (h : Placed source k item s before text after)
    (h' : Placed source k item' s' before' text' after') :
    before = before' ∧ text = text' ∧ after = after' := by
  obtain ⟨rfl, rfl⟩ : item = item' ∧ s = s' := by
    have same := h.call.symm.trans h'.call
    cases same
    exact ⟨rfl, rfl⟩
  have whole := h.whole.symm.trans h'.whole
  obtain rfl := eq_of_length_encode whole (h.start.symm.trans h'.start)
  have rest := List.append_cancel_left whole
  have bytes := h.stop.symm.trans h'.stop
  rw [encode_append, encode_append, List.length_append, List.length_append] at bytes
  obtain rfl := eq_of_length_encode rest (Nat.add_left_cancel bytes)
  exact ⟨rfl, rfl, List.append_cancel_left rest⟩

/-- **Where an item stands there is its segment.** -/
theorem Placed.exists_segment (h : Placed source k item s before text after) :
    ∃ pre seg post, segments source.toList = pre ++ seg :: post
      ∧ pre.flatMap Segment.text = before ∧ seg.text = text ∧ post.flatMap Segment.text = after
      ∧ seg.item? (1 + newlines (before ++ text)) = some item := by
  rcases exists_segment_of_scan h.yielded with ⟨pre, seg, post, split, rfl, found⟩ | ⟨-, rfl⟩
  · obtain ⟨rfl, rfl, rfl⟩ := (placed_of_segments split found).unique h
    exact ⟨pre, seg, post, split, rfl, rfl, rfl, found⟩
  · cases h.inner

end Unique

end Kix
