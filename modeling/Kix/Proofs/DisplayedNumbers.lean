import Kix.Evaluation
import Kix.Proofs.DecimalTexts
import Kix.Proofs.FittingSegments

/-!
# Displayed numbers read back as themselves

A program prints a number as a numeral, behind a `-` if its sign is set, and a source may have a
numeral wherever it has an expression. What is printed is one token, or two with the sign
(`Number.scan_signed`), whatever the size of the number: the least ones have hundreds of zeros
behind the point, and the largest ones hundreds of digits and no point at all. The token denotes
the number that was printed, to the last bit (`Number.displayed_numbers_read_back`).
-/

namespace Kix

/-! ## Scanning a numeral -/

/-- A text that is a token has no other segments. -/
theorem segments_of_spells {kind : Kind} {text : List Char} {literal : Option Literal}
    (spells : Spells kind text literal) (noComment : text.head? ≠ some '/') :
    segments text = [.token kind text literal] := by
  have found := (LongestMatch.of_spells spells noComment).first?_eq
  rw [List.append_nil] at found
  cases text with
  | nil => cases found
  | cons c cs =>
    have cut : Segment.cut c cs = (.token kind (c :: cs) literal, []) := Option.some.inj found
    rw [segments, cut, segments]

namespace Number

variable {text : List Char} {q : ℚ}

/-- A written number has digits in it, and a point. -/
theorem Writes.mem_cases (writes : Writes text q) : ∀ c ∈ text, c.isDigit = true ∨ c = '.' := by
  cases writes with
  | whole digits => exact fun c mem => .inl (digits.2 c mem)
  | point digits digits' =>
    intro c mem
    rcases List.mem_append.1 mem with mem | mem
    · exact .inl (digits.2 c mem)
    · rcases List.mem_cons.1 mem with rfl | mem
      · exact .inr rfl
      · exact .inl (digits'.2 c mem)

theorem Writes.newlines_eq_zero (writes : Writes text q) : newlines text = 0 := by
  refine List.count_eq_zero.2 fun mem => ?_
  rcases writes.mem_cases _ mem with digit | point
  · cases digit
  · cases point

theorem Writes.head?_ne_slash (writes : Writes text q) : text.head? ≠ some '/' := by
  intro slash
  rcases writes.mem_cases _ (List.mem_of_mem_head? slash) with digit | point
  · cases digit
  · cases point

/-- The token of a sign in front of a number. -/
def signTokens (negative : Bool) : List Item :=
  if negative then [.token (.onLine 1 .minus "-")] else []

/-- **The value of a numeral behind a sign**: a `-` is applied as an operator. -/
def applySign (negative : Bool) (x : Float) : Except Problem Value :=
  if negative then Operator.unary .minus (.number x) else .ok (.number x)

/-- **A numeral with or without a sign** is scanned as one token behind the token of the sign. -/
theorem scan_signed (writes : Writes text q) {literal : Option Literal}
    (spells : Spells .number text literal) (negative : Bool) :
    scan (.ofList (signed negative text))
      = signTokens negative
        ++ [.token { kind := .number, lexeme := .ofList text, literal, line := 1 },
          .token (.endOfInput 1)] := by
  have alone : itemsFrom 1 (segments text)
      = [.token { kind := .number, lexeme := .ofList text, literal, line := 1 },
        .token (.endOfInput 1)] := by
    rw [segments_of_spells spells writes.head?_ne_slash]
    show [Item.token _, Item.token (.endOfInput (1 + newlines text))] = _
    rw [show (Segment.token .number text literal).text = text from rfl, writes.newlines_eq_zero]
  unfold scan
  rw [String.toList_ofList]
  cases negative with
  | false => exact alone
  | true =>
    have cut : Segment.cut '-' text = (.token .minus ['-'] none, text) := rfl
    show itemsFrom 1 (segments ('-' :: text)) = _
    rw [segments, cut]
    exact congrArg (Item.token _ :: ·) alone

/-- **Displayed numbers read back as themselves.** For every pattern of a finite double, what is
displayed is scanned without a report into one number and the end of the input, behind one `-`
exactly if the sign is set; and the number of that token, with the sign applied to it, has that
pattern. -/
theorem displayed_numbers_read_back {bits : UInt64} {negative : Bool} {m : Magnitude}
    (finite : Double.ofBits bits.toNat = .finite negative m) :
    ∃ (lexeme : String) (x : Float),
      scan (Value.number (.ofBits bits)).display
        = signTokens negative
          ++ [.token { kind := .number, lexeme, literal := some (.number x), line := 1 },
            .token (.endOfInput 1)]
      ∧ ∃ y : Float, applySign negative x = .ok (.number y) ∧ y.toBits = bits := by
  obtain ⟨-, small⟩ := Double.ofBits_eq_finite finite
  obtain ⟨q, writes, nearest⟩ := Magnitude.exists_writes small
  refine ⟨.ofList (displayMagnitude m), m.toFloat, ?_, ?_⟩
  · have displayed : (Value.number (.ofBits bits)).display
        = .ofList (signed negative (displayMagnitude m)) := by
      show display (.ofBits bits) = _
      rw [display, Double.ofFloat_ofBits finite]
    rw [displayed]
    exact scan_signed writes (writes.spells nearest small) negative
  · cases negative with
    | false => exact ⟨m.toFloat, rfl, Double.toBits_toFloat finite⟩
    | true => exact ⟨-m.toFloat, rfl, Double.toBits_neg finite⟩

/-- The least double below zero, which has more than three hundred zeros behind the point. -/
theorem displayed_numbers_read_back_least_negative :
    Double.ofBits (0x8000000000000001 : UInt64).toNat = .finite true 1
    ∧ ∃ (lexeme : String) (x : Float),
      scan (Value.number (.ofBits 0x8000000000000001)).display
        = [.token (.onLine 1 .minus "-"),
          .token { kind := .number, lexeme, literal := some (.number x), line := 1 },
          .token (.endOfInput 1)]
      ∧ (-x).toBits = 0x8000000000000001 := by
  have finite : Double.ofBits (0x8000000000000001 : UInt64).toNat = .finite true 1 := by
    decide +kernel
  obtain ⟨lexeme, x, scanned, y, applied, bits⟩ := displayed_numbers_read_back finite
  cases applied
  exact ⟨finite, lexeme, x, scanned, bits⟩

end Number

end Kix
