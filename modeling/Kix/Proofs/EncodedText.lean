import Kix.Token.Source
import Mathlib.Data.List.Basic

/-!
# Text as bytes

A text is stored as the bytes of its characters, one after the other. A character below 128
is one byte, and all bytes of other characters are 128 or more. So a test that tells only
the former characters apart gives the same result on a character and on each of its bytes
(`AsciiTest.byte`), and a stretch of characters that pass it is a stretch of bytes that do
(`takeWhile_encode`).

A part of a text is taken by the offsets where it begins and ends, which have to be places
between two characters (`slice?`).
-/

namespace Kix

/-- **The bytes of a text.** -/
def encode (cs : List Char) : List UInt8 := cs.flatMap String.utf8EncodeChar

@[simp] theorem encode_nil : encode [] = [] := rfl

@[simp] theorem encode_cons (c : Char) (cs : List Char) :
    encode (c :: cs) = String.utf8EncodeChar c ++ encode cs := List.flatMap_cons

@[simp] theorem encode_append (cs cs' : List Char) : encode (cs ++ cs') = encode cs ++ encode cs' :=
  List.flatMap_append

/-- The bytes of a string are those of its characters. -/
theorem toList_data_toUTF8 (source : String) :
    source.toUTF8.data.toList = encode source.toList := by
  obtain ⟨cs, rfl⟩ := source.exists_eq_ofList
  show (String.ofList cs).toByteArray.data.toList = _
  rw [String.toByteArray_ofList, String.toList_ofList]
  exact List.toList_data_toByteArray

/-- Texts with the same bytes are the same. -/
theorem encode_injective {cs cs' : List Char} (same : encode cs = encode cs') : cs = cs' := by
  have bytes : (String.ofList cs).toUTF8 = (String.ofList cs').toUTF8 := by
    refine ByteArray.ext (Array.toList_inj.1 ?_)
    rw [toList_data_toUTF8, toList_data_toUTF8, String.toList_ofList, String.toList_ofList, same]
  exact String.ofList_injective (String.toByteArray_inj.1 bytes)

/-- The size of a text is the number of its bytes. -/
theorem utf8ByteSize_eq (source : String) :
    source.utf8ByteSize = (encode source.toList).length := by
  rw [← toList_data_toUTF8]
  rfl

/-- No character has an empty encoding. -/
theorem length_encode_pos (c : Char) : 0 < (String.utf8EncodeChar c).length := by
  rw [String.length_utf8EncodeChar]
  exact c.utf8Size_pos

/-! ## Characters below 128 -/

/-- The byte of a character below 128. -/
theorem exists_byte {c : Char} (ascii : c.toNat < 128) :
    ∃ b, String.utf8EncodeChar c = [b] ∧ Char.ofUInt8 b = c := by
  refine ⟨UInt8.ofNat c.toNat, ?_, ?_⟩
  · unfold String.utf8EncodeChar
    exact if_pos (Nat.le_of_lt_succ ascii)
  · refine Char.ext (UInt32.toNat_inj.1 ?_)
    show (UInt8.ofNat c.toNat).toNat = c.toNat
    rw [UInt8.toNat_ofNat']
    exact Nat.mod_eq_of_lt (by omega)

/-- The bytes of other characters are 128 or more. -/
theorem le_toNat_of_mem {c : Char} (other : 128 ≤ c.toNat) {b : UInt8}
    (mem : b ∈ String.utf8EncodeChar c) : 128 ≤ b.toNat := by
  unfold String.utf8EncodeChar at mem
  dsimp only at mem
  rw [show c.val.toNat = c.toNat from rfl, if_neg (Nat.not_le_of_lt other)] at mem
  split at mem
  · simp only [List.mem_cons, List.not_mem_nil, or_false] at mem
    rcases mem with rfl | rfl <;> rw [UInt8.toNat_ofNat'] <;> omega
  split at mem
  · simp only [List.mem_cons, List.not_mem_nil, or_false] at mem
    rcases mem with rfl | rfl | rfl <;> rw [UInt8.toNat_ofNat'] <;> omega
  · simp only [List.mem_cons, List.not_mem_nil, or_false] at mem
    rcases mem with rfl | rfl | rfl | rfl <;> rw [UInt8.toNat_ofNat'] <;> omega

/-- Symbols are below 128. -/
theorem Kind.ofSymbol?_eq_none {c : Char} (other : 128 ≤ c.toNat) : Kind.ofSymbol? c = none := by
  unfold Kind.ofSymbol?
  split
  case h_18 => rfl
  all_goals exact absurd other (by decide)

/-- No operator begins with a character beyond ASCII. -/
theorem Kind.ofSymbolEqual?_eq_none {c : Char} (other : 128 ≤ c.toNat) :
    Kind.ofSymbolEqual? c = none := by
  unfold Kind.ofSymbolEqual?
  split
  case h_5 => rfl
  all_goals exact absurd other (by decide)

/-! ## Tests -/

/-- A test of characters, on a byte. -/
def onByte {β : Type} (f : Char → β) (b : UInt8) : β := f (Char.ofUInt8 b)

/-- **A test that tells only characters below 128 apart.** -/
def AsciiTest {β : Type} (f : Char → β) : Prop :=
  ∀ c c' : Char, 128 ≤ c.toNat → 128 ≤ c'.toNat → f c = f c'

namespace AsciiTest

variable {β : Type} {f : Char → β} {p q : Char → Bool}

/-- Tests that say the same of all other characters. -/
theorem of_eq {d : β} (h : ∀ c : Char, 128 ≤ c.toNat → f c = d) : AsciiTest f :=
  fun c c' other other' => (h c other).trans (h c' other').symm

/-- The opposite of such a test is one. -/
theorem not (h : AsciiTest p) : AsciiTest fun c => !p c :=
  fun c c' other other' => congrArg Bool.not (h c c' other other')

/-- Looking for one character. -/
theorem beq {d : Char} (ascii : d.toNat < 128) : AsciiTest (· == d) := by
  refine of_eq fun c other => beq_eq_false_iff_ne.2 ?_
  rintro rfl
  exact Nat.not_lt_of_le other ascii

theorem bne {d : Char} (ascii : d.toNat < 128) : AsciiTest (· != d) := (beq ascii).not

/-- Ranges that end below 128. -/
theorem not_le {c d : Char} (other : 128 ≤ c.toNat) (ascii : d.toNat < 128) : ¬c.val ≤ d.val :=
  fun le => Nat.not_lt_of_le (Nat.le_trans other (UInt32.le_iff_toNat_le.1 le)) ascii

theorem isDigit : AsciiTest Char.isDigit := by
  refine of_eq (d := false) fun c other => ?_
  unfold Char.isDigit
  rw [decide_eq_false (not_le other (by decide)), Bool.and_false]

theorem isAlpha : AsciiTest Char.isAlpha := by
  refine of_eq (d := false) fun c other => ?_
  unfold Char.isAlpha Char.isUpper Char.isLower
  rw [decide_eq_false fun h => not_le other (by decide) h.2,
    decide_eq_false (not_le (d := 'z') other (by decide)), Bool.and_false]
  rfl

/-- Passing one of two such tests is one. -/
theorem or (h : AsciiTest p) (h' : AsciiTest q) : AsciiTest fun c => p c || q c :=
  fun c c' other other' => congrArg₂ Bool.or (h c c' other other') (h' c c' other other')

theorem isWordStart : AsciiTest Segment.isWordStart := isAlpha.or (beq (by decide))

theorem isWordRest : AsciiTest Segment.isWordRest := (isAlpha.or isDigit).or (beq (by decide))

/-- Blanks are ASCII characters. -/
theorem isBlank : AsciiTest Segment.isBlank :=
  (((beq (by decide)).or (beq (by decide))).or (beq (by decide))).or (beq (by decide))

/-- **Such a test gives the same result on a character and on each of its bytes.** -/
theorem onByte_eq (h : AsciiTest f) {c : Char} {b : UInt8} (mem : b ∈ String.utf8EncodeChar c) :
    onByte f b = f c := by
  by_cases ascii : c.toNat < 128
  · obtain ⟨b', bytes, same⟩ := exists_byte ascii
    rw [bytes] at mem
    rw [List.mem_singleton.1 mem, onByte, same]
  · have other := Nat.le_of_not_lt ascii
    exact h _ _ (le_toNat_of_mem other mem) other

/-- What passes a test that the other characters fail is below 128. -/
theorem lt_of_eq_true (h : AsciiTest p) (fails : p 'é' = false) {c : Char}
    (passes : p c = true) : c.toNat < 128 := by
  refine Nat.lt_of_not_le fun other => ?_
  rw [h c 'é' other (by decide), fails] at passes
  exact Bool.false_ne_true passes

end AsciiTest

/-- **A stretch of characters is a stretch of bytes.** -/
theorem takeWhile_encode {p : Char → Bool} (h : AsciiTest p) (cs : List Char) :
    (encode cs).takeWhile (onByte p) = encode (cs.takeWhile p) := by
  induction cs with
  | nil => rfl
  | cons c cs ih =>
    rw [encode_cons]
    by_cases passes : p c = true
    · rw [List.takeWhile_append_of_pos fun b mem => (h.onByte_eq mem).trans passes, ih,
        List.takeWhile_cons_of_pos passes, encode_cons]
    · obtain ⟨b, bytes, eq⟩ := List.exists_cons_of_length_pos (length_encode_pos c)
      have fails : ¬onByte p b = true := by
        rw [h.onByte_eq (c := c) (by rw [eq]; exact List.mem_cons_self)]
        exact passes
      rw [eq, List.cons_append, List.takeWhile_cons_of_neg fails, List.takeWhile_cons_of_neg passes,
        encode_nil]

/-- The first byte passes a test if the first character does. -/
theorem head?_encode {p : Char → Bool} (h : AsciiTest p) (cs : List Char) :
    (encode cs).head?.any (onByte p) = cs.head?.any p := by
  cases cs with
  | nil => rfl
  | cons c cs =>
    obtain ⟨b, bytes, eq⟩ := List.exists_cons_of_length_pos (length_encode_pos c)
    rw [encode_cons, eq]
    exact h.onByte_eq (c := c) (by rw [eq]; exact List.mem_cons_self)

/-- How many lines bytes end. -/
def lineEnds (bytes : List UInt8) : Nat := bytes.countP (onByte (· == '\n'))

/-- **Line ends can be counted among the bytes**, since no longer encoding has one in it. -/
theorem lineEnds_encode (cs : List Char) : lineEnds (encode cs) = newlines cs := by
  induction cs with
  | nil => rfl
  | cons c cs ih =>
    unfold lineEnds newlines at *
    rw [encode_cons, List.countP_append, ih, List.count_cons, Nat.add_comm]
    congr 1
    by_cases same : c = '\n'
    · rw [same]
      rfl
    · rw [if_neg (by simpa using same), List.countP_eq_zero]
      intro b mem
      rw [AsciiTest.onByte_eq (.beq (by decide)) mem]
      simpa using same

/-- Characters that pass a test which a line end does not pass. -/
theorem newlines_eq_zero {cs : List Char} {p : Char → Bool} (fails : p '\n' = false)
    (h : ∀ c ∈ cs, p c = true) : newlines cs = 0 := by
  refine List.count_eq_zero.2 fun mem => ?_
  rw [h _ mem] at fails
  exact nomatch fails

/-- A character that is no line end ends no line. -/
theorem newlines_singleton {c : Char} (notEnd : c ≠ '\n') : newlines [c] = 0 :=
  newlines_eq_zero (p := (· != '\n')) rfl
    (List.forall_mem_singleton.2 (bne_iff_ne.2 notEnd))

/-! ## The end of a comment -/

/-- Where the first `*/` is in bytes. -/
def findClose : List UInt8 → Option Nat
  | [] => none
  | b :: rest =>
    if onByte (· == '*') b && rest.head?.any (onByte (· == '/')) then some 0
    else (findClose rest).map (· + 1)

/-- Bytes other than `*` are passed over. -/
theorem findClose_append {bytes : List UInt8} (h : ∀ b ∈ bytes, onByte (· == '*') b = false)
    (rest : List UInt8) :
    findClose (bytes ++ rest) = (findClose rest).map (· + bytes.length) := by
  induction bytes with
  | nil => exact Option.map_id'.symm
  | cons b bytes ih =>
    obtain ⟨here, later⟩ := List.forall_mem_cons.1 h
    rw [List.cons_append, findClose, here, Bool.false_and, if_neg Bool.false_ne_true, ih later,
      Option.map_map]
    rfl

/-- **The first `*/` is where it is in the text.** -/
theorem findClose_encode (cs : List Char) :
    findClose (encode cs) = (Segment.splitClose cs).map fun r => (encode r.1).length := by
  fun_induction Segment.splitClose cs with
  | case1 => rfl
  | case2 after => rfl
  | case3 c rest other ih =>
    have passed : findClose (encode (c :: rest))
        = (findClose (encode rest)).map (· + (String.utf8EncodeChar c).length) := by
      by_cases star : c = '*'
      · subst star
        have apart : rest.head?.any (· == '/') = false := by
          cases rest with
          | nil => rfl
          | cons d rest =>
            exact beq_eq_false_iff_ne.2 fun same => other rest rfl (by rw [same])
        have bytes : String.utf8EncodeChar '*' = [42] := rfl
        rw [encode_cons, bytes, List.singleton_append, findClose,
          head?_encode (.beq (by decide)), apart, Bool.and_false, if_neg Bool.false_ne_true]
        rfl
      · rw [encode_cons]
        refine findClose_append (fun b mem => ?_) _
        rw [AsciiTest.onByte_eq (.beq (by decide)) mem]
        exact beq_eq_false_iff_ne.2 star
    rw [passed, ih, Option.map_map, Option.map_map]
    congr 1
    funext r
    show (encode r.1).length + (String.utf8EncodeChar c).length = (encode (c :: r.1)).length
    rw [encode_cons, List.length_append, Nat.add_comm]

/-! ## Parts of a text -/

/-- **The part of a text between two offsets**, if they are places between two characters of
the text and in order. -/
def slice? (source : String) (i j : Nat) : Option String :=
  if h : String.Pos.Raw.IsValid source ⟨i⟩ ∧ String.Pos.Raw.IsValid source ⟨j⟩ ∧ i ≤ j then
    some (source.extract ⟨⟨i⟩, h.1⟩ ⟨⟨j⟩, h.2.1⟩)
  else none

/-- The place behind a part of a text is one between two characters. -/
theorem isValid_of_append {source : String} {before after : List Char}
    (h : source.toList = before ++ after) :
    String.Pos.Raw.IsValid source ⟨(encode before).length⟩ := by
  refine String.Pos.Raw.isValid_iff_exists_append.2 ⟨.ofList before, .ofList after, ?_, ?_⟩
  · rw [← String.ofList_append, ← h, String.ofList_toList]
  · refine String.Pos.Raw.ext ?_
    rw [String.byteIdx_rawEndPos, utf8ByteSize_eq, String.toList_ofList]

/-- A slice between two encodings is the text between them. -/
theorem slice?_of_append {source : String} {before mid after : List Char}
    (h : source.toList = before ++ (mid ++ after)) :
    slice? source (encode before).length ((encode before).length + (encode mid).length)
      = some (.ofList mid) := by
  have first := isValid_of_append h
  have last : String.Pos.Raw.IsValid source
      ⟨(encode before).length + (encode mid).length⟩ := by
    rw [← List.append_assoc] at h
    rw [← List.length_append, ← encode_append]
    exact isValid_of_append h
  unfold slice?
  rw [dif_pos ⟨first, last, Nat.le_add_right _ _⟩]
  congr 1
  refine String.toByteArray_inj.1 (ByteArray.ext (Array.toList_inj.1 ?_))
  have bytes : source.toByteArray.data.toList = encode before ++ (encode mid ++ encode after) := by
    rw [← encode_append, ← encode_append, ← h]
    exact toList_data_toUTF8 source
  have part : (String.ofList mid).toByteArray.data.toList = encode mid := by
    rw [← String.toUTF8_eq_toByteArray, toList_data_toUTF8, String.toList_ofList]
  show (source.toByteArray.extract _ _).data.toList = _
  rw [part, ByteArray.data_extract, Array.toList_extract, bytes, List.extract_eq_take_drop,
    List.drop_left, Nat.add_sub_cancel_left, List.take_left]

end Kix
