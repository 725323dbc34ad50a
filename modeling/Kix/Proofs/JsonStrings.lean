import Kix.Text.Json
import Mathlib.Data.List.Basic

/-!
# Strings in JSON are read back

JSON writes a string between quotes and has two sorts of escapes: a letter behind a backslash,
and `u` with the four hexadecimal digits of a code. A reader knows more of them than a writer
needs (`Json.readString?`): digits in upper case, an escaped `/`, and codes for characters that
can stand for themselves. It takes no control character as it is.

What is written is read back (`Json.read?_quote`), whatever the string and whatever stands behind
it, and stays on one line (`Json.le_toNat_of_mem_quote`).
-/

namespace Kix.Json

/-! ## Reading -/

/-- The value of a hexadecimal digit, in lower or in upper case. -/
def hexValue? (c : Char) : Option Nat := "0123456789abcdef".toList.idxOf? c.toLower

/-- The character with a code of the given digits, if there is one. -/
def codeEscape? (digits : List Char) : Option Char :=
  match digits.mapM hexValue? with
  | some values =>
    let code := values.foldl (fun n value => 16 * n + value) 0
    if code.isValidChar then some (.ofNat code) else none
  | none => none

/-- The character that a letter behind a backslash stands for. -/
def letterEscape? : Char → Option Char
  | '"' => some '"'
  | '\\' => some '\\'
  | '/' => some '/'
  | 'b' => some '\x08'
  | 'f' => some '\x0c'
  | 'n' => some '\n'
  | 'r' => some '\r'
  | 't' => some '\t'
  | _ => none

/-- **Reading a string** from behind its opening quote: its characters, and what stands behind
its closing quote. -/
def readString? : List Char → Option (List Char × List Char)
  | [] => none
  | first :: rest =>
    if first = '"' then some ([], rest)
    else if first = '\\' then
      match rest with
      | 'u' :: a :: b :: c :: d :: rest =>
        (codeEscape? [a, b, c, d]).bind fun char =>
          (readString? rest).map (Prod.map (char :: ·) id)
      | letter :: rest =>
        (letterEscape? letter).bind fun char => (readString? rest).map (Prod.map (char :: ·) id)
      | [] => none
    else if first.toNat < 0x20 then none
    else (readString? rest).map (Prod.map (first :: ·) id)

/-- **Reading a string and its quotes.** -/
def read? : List Char → Option (String × List Char)
  | '"' :: rest => (readString? rest).map (Prod.map .ofList id)
  | _ => none

/-! ## What is written is read -/

/-- **How a character is written**: by a letter, by its code, or as it is. -/
theorem escape_cases (c : Char) :
    (∃ letter, escape c = ['\\', letter] ∧ letterEscape? letter = some c)
    ∨ c.toNat < 0x20
      ∧ escape c = ['\\', 'u', '0', '0', hexDigit (c.toNat / 16), hexDigit (c.toNat % 16)]
    ∨ (c ≠ '"' ∧ c ≠ '\\' ∧ 0x20 ≤ c.toNat) ∧ escape c = [c] := by
  unfold escape
  split
  · next eq => exact .inl ⟨'"', rfl, congrArg some eq.symm⟩
  next notQuote =>
  split
  · next eq => exact .inl ⟨'\\', rfl, congrArg some eq.symm⟩
  next notBackslash =>
  split
  · next eq => exact .inl ⟨'b', rfl, congrArg some eq.symm⟩
  split
  · next eq => exact .inl ⟨'t', rfl, congrArg some eq.symm⟩
  split
  · next eq => exact .inl ⟨'n', rfl, congrArg some eq.symm⟩
  split
  · next eq => exact .inl ⟨'f', rfl, congrArg some eq.symm⟩
  split
  · next eq => exact .inl ⟨'r', rfl, congrArg some eq.symm⟩
  split
  · next control => exact .inr (.inl ⟨control, rfl⟩)
  · next printable =>
    exact .inr (.inr ⟨⟨notQuote, notBackslash, Nat.le_of_not_lt printable⟩, rfl⟩)

theorem readString?_letter {letter c : Char} (escapes : letterEscape? letter = some c)
    (rest : List Char) :
    readString? ('\\' :: letter :: rest) = (readString? rest).map (Prod.map (c :: ·) id) := by
  unfold letterEscape? at escapes
  split at escapes <;> cases escapes <;> rfl

/-- The code of a control character. -/
theorem codeEscape?_of_lt {c : Char} (control : c.toNat < 0x20) :
    codeEscape? ['0', '0', hexDigit (c.toNat / 16), hexDigit (c.toNat % 16)] = some c := by
  have all : ∀ n < 0x20,
      codeEscape? ['0', '0', hexDigit (n / 16), hexDigit (n % 16)] = some (.ofNat n) := by
    decide
  rw [all _ control, Char.ofNat_toNat]

/-- A character is read from what is written for it. -/
theorem readString?_escape (c : Char) (rest : List Char) :
    readString? (escape c ++ rest) = (readString? rest).map (Prod.map (c :: ·) id) := by
  rcases escape_cases c with ⟨letter, eq, escapes⟩ | ⟨control, eq⟩ | ⟨⟨notQuote, notBackslash,
    printable⟩, eq⟩
  · rw [eq]
    exact readString?_letter escapes rest
  · rw [eq]
    show (codeEscape? ['0', '0', hexDigit (c.toNat / 16), hexDigit (c.toNat % 16)]).bind _ = _
    rw [codeEscape?_of_lt control]
    rfl
  · rw [eq]
    show readString? (c :: rest) = _
    rw [readString?.eq_def]
    dsimp only
    rw [if_neg notQuote, if_neg notBackslash, if_neg (Nat.not_lt_of_le printable)]

/-- The characters of a string are read from what is written for them. -/
theorem readString?_flatMap_escape (cs rest : List Char) :
    readString? (cs.flatMap escape ++ '"' :: rest) = some (cs, rest) := by
  induction cs with
  | nil =>
    rw [List.flatMap_nil, List.nil_append, readString?.eq_def]
    exact if_pos rfl
  | cons c cs ih =>
    rw [List.flatMap_cons, List.append_assoc, readString?_escape, ih]
    rfl

theorem toList_quote (s : String) :
    (quote s).toList = '"' :: (s.toList.flatMap escape ++ ['"']) := String.toList_ofList

/-- **A string is read back** from what is written for it. -/
theorem read?_quote (s : String) (rest : List Char) :
    read? ((quote s).toList ++ rest) = some (s, rest) := by
  rw [toList_quote, List.cons_append, List.append_assoc]
  show (readString? (s.toList.flatMap escape ++ '"' :: rest)).map _ = _
  rw [readString?_flatMap_escape, Option.map_some]
  show some (String.ofList s.toList, rest) = _
  rw [String.ofList_toList]

/-! ## What is written stays on one line -/

/-- No control character is written for any character. -/
theorem le_toNat_of_mem_escape {c d : Char} (mem : d ∈ escape c) : 0x20 ≤ d.toNat := by
  rcases escape_cases c with ⟨letter, eq, escapes⟩ | ⟨control, eq⟩ | ⟨⟨-, -, printable⟩, eq⟩
  · have letters : 0x20 ≤ letter.toNat := by
      unfold letterEscape? at escapes
      split at escapes <;> cases escapes <;> decide
    rw [eq, List.mem_cons, List.mem_singleton] at mem
    rcases mem with rfl | rfl
    · decide
    · exact letters
  · have all : ∀ n < 0x20, (['\\', 'u', '0', '0', hexDigit (n / 16), hexDigit (n % 16)].all
        fun d => decide (0x20 ≤ d.toNat)) = true := by
      decide
    rw [eq] at mem
    exact of_decide_eq_true (List.all_eq_true.1 (all _ control) d mem)
  · rw [eq, List.mem_singleton] at mem
    exact mem ▸ printable

/-- **No control character is written for any string.** -/
theorem le_toNat_of_mem_quote {s : String} {d : Char} (mem : d ∈ (quote s).toList) :
    0x20 ≤ d.toNat := by
  rw [toList_quote, List.mem_cons, List.mem_append, List.mem_singleton] at mem
  rcases mem with rfl | mem | rfl
  · decide
  · obtain ⟨c, -, mem⟩ := List.mem_flatMap.1 mem
    exact le_toNat_of_mem_escape mem
  · decide

end Kix.Json
