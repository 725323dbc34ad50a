import Mathlib.Data.List.Basic

/-!
# Forms are read back

The text of a syntax tree is made of words, parentheses and single blanks. What it says is a
**form**: a word, or a list of forms between parentheses. A form is read from left to right, by a
reader that holds the word it is in and the lists that are open; what it reads is the form that
was written (`Form.read_texts`), as long as words are not empty and have no parenthesis or blank
in them.
-/

namespace Kix

/-- **A form**: a word, or a list of forms. -/
inductive Form where
  | word (text : String)
  | list (parts : List Form)

namespace Form

mutual

/-- The text of a form. -/
def text : Form → List Char
  | word text => text.toList
  | list parts => '(' :: ([' '].intercalate (texts parts) ++ [')'])

/-- The texts of forms. -/
def texts : List Form → List (List Char)
  | [] => []
  | f :: rest => f.text :: texts rest

end

/-- What ends a word. -/
def isDelimiter (c : Char) : Bool := ['(', ')', ' ', '\n'].contains c

/-- Whether a text can stand as a word. -/
def isWord (text : String) : Bool := text != "" && text.toList.all (!isDelimiter ·)

theorem isWord_iff {text : String} :
    isWord text = true ↔ text ≠ "" ∧ ∀ c ∈ text.toList, isDelimiter c = false := by
  simp only [isWord, Bool.and_eq_true, bne_iff_ne, List.all_eq_true, Bool.not_eq_true']

mutual

/-- All words of a form can stand as words. -/
def Clear : Form → Prop
  | word text => isWord text = true
  | list parts => AllClear parts

/-- All words of some forms can stand as words. -/
def AllClear : List Form → Prop
  | [] => True
  | f :: rest => f.Clear ∧ AllClear rest

end

/-! ## Reading -/

/-- **Where a reader is**: in a word, unless that is empty, which belongs to the innermost list
that is open. All of them have what came last in front. -/
structure Reader where
  word : List Char := []
  inner : List Form := []
  outer : List (List Form) := []

namespace Reader

/-- The word ends here, if there is one. -/
def endWord (r : Reader) : Reader :=
  if r.word = [] then r
  else { r with word := [], inner := .word (.ofList r.word.reverse) :: r.inner }

/-- A list is opened. -/
def openList (r : Reader) : Reader := { inner := [], outer := r.inner :: r.outer }

/-- The innermost list is closed, if there is one. -/
def closeList (r : Reader) : Reader :=
  match r.outer with
  | [] => r
  | around :: outer => { inner := .list r.inner.reverse :: around, outer }

/-- **Reading a character.** -/
def step (r : Reader) (c : Char) : Reader :=
  if c = '(' then r.endWord.openList
  else if c = ')' then r.endWord.closeList
  else if isDelimiter c then r.endWord
  else { r with word := c :: r.word }

end Reader

/-- **Reading forms**, with blanks between them. -/
def read (cs : List Char) : List Form := (cs.foldl Reader.step {}).endWord.inner.reverse

/-! ## What is written is read -/

namespace Reader

theorem endWord_of_nil (before : List Form) (around : List (List Form)) :
    endWord ⟨[], before, around⟩ = ⟨[], before, around⟩ := if_pos rfl

/-- A word is read character by character. -/
theorem foldl_word {text : List Char} (clear : ∀ c ∈ text, isDelimiter c = false) (r : Reader) :
    text.foldl step r = { r with word := text.reverse ++ r.word } := by
  induction text generalizing r with
  | nil => rfl
  | cons c text ih =>
    obtain ⟨other, clear⟩ := List.forall_mem_cons.1 clear
    have opens : c ≠ '(' := by
      rintro rfl
      cases other
    have closes : c ≠ ')' := by
      rintro rfl
      cases other
    have moved : r.step c = { r with word := c :: r.word } := by
      rw [step, if_neg opens, if_neg closes, other]
      rfl
    rw [List.foldl_cons, moved, ih clear, List.reverse_cons, List.append_assoc]
    rfl

end Reader

open Reader

mutual

/-- A form is read as the last part of the list that is open. -/
theorem endWord_foldl_text : (f : Form) → f.Clear → ∀ before around,
    (f.text.foldl step ⟨[], before, around⟩).endWord = ⟨[], f :: before, around⟩
  | word text, clear, before, around => by
    -- a word is still open when its text ends
    rw [Clear, isWord_iff] at clear
    have filled : text.toList.reverse ≠ [] := fun empty =>
      clear.1 (String.toList_eq_nil_iff.1 (List.reverse_eq_nil_iff.1 empty))
    rw [Form.text, foldl_word clear.2, List.append_nil, endWord, if_neg filled,
      List.reverse_reverse, String.ofList_toList]
  | list parts, clear, before, around => by
    rw [Clear] at clear
    have opened : step ⟨[], before, around⟩ '(' = ⟨[], [], before :: around⟩ := rfl
    have closed (r : Reader) : r.step ')' = r.endWord.closeList := rfl
    have read := endWord_foldl_texts ' ' (fun _ => rfl) parts clear [] (before :: around)
    rw [List.append_nil] at read
    rw [Form.text, List.foldl_cons, opened, List.foldl_append, List.foldl_cons, List.foldl_nil,
      closed, read, closeList]
    dsimp only
    rw [List.reverse_reverse, endWord_of_nil]

/-- Forms with blanks between them are read one after the other. -/
theorem endWord_foldl_texts (blank : Char) (ends : ∀ r, step r blank = r.endWord) :
    (fs : List Form) → AllClear fs → ∀ before around,
    (([blank].intercalate (texts fs)).foldl step ⟨[], before, around⟩).endWord
      = ⟨[], fs.reverse ++ before, around⟩
  | [], _, before, around => endWord_of_nil before around
  | [f], clear, before, around => by
    rw [AllClear] at clear
    rw [texts, texts, List.intercalate_singleton]
    exact endWord_foldl_text f clear.1 before around
  | f :: g :: rest, clear, before, around => by
    rw [AllClear] at clear
    have later := endWord_foldl_texts blank ends (g :: rest) clear.2 (f :: before) around
    rw [texts] at later
    rw [texts, texts, List.intercalate_cons_cons, List.foldl_append, List.foldl_append,
      List.foldl_cons, List.foldl_nil, ends, endWord_foldl_text f clear.1, later,
      List.reverse_cons (a := f), List.append_assoc]
    rfl

end

/-- **Forms are read back** from their texts with line ends between them. -/
theorem read_texts {fs : List Form} (clear : AllClear fs) :
    read (['\n'].intercalate (texts fs)) = fs := by
  have ended := endWord_foldl_texts '\n' (fun _ => rfl) fs clear [] []
  unfold read
  rw [ended]
  dsimp only
  rw [List.append_nil, List.reverse_reverse]

end Form

end Kix
