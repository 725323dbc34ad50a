import Kix.Proofs.FittingSegments

/-!
# Layout

Between two tokens a text may have blanks and comments, as many as one likes. If there is a
blank behind every token, none of them is changed by what follows it: the text has the tokens
that are written in it, and nothing is reported (`same_tokens_in_any_layout`).
-/

namespace Kix

/-- **Text without tokens**: blanks, closed comments, and comments up to the end of a line. -/
inductive Layout : List Char → Prop where
  | nil : Layout []
  | blank {c : Char} {cs : List Char} (mem : c ∈ [' ', '\r', '\t', '\n']) (more : Layout cs) :
    Layout (c :: cs)
  | block {body cs : List Char} (first : ¬['*', '/'] <:+: body ++ ['*']) (more : Layout cs) :
    Layout ('/' :: '*' :: (body ++ ['*', '/']) ++ cs)
  | line {body cs : List Char} (within : '\n' ∉ body) (more : Layout cs) :
    Layout ('/' :: '/' :: body ++ '\n' :: cs)

/-- What may stand between two tokens: a blank, and more layout. -/
def Separator (gap : List Char) : Prop :=
  ∃ c cs, gap = c :: cs ∧ c ∈ [' ', '\r', '\t', '\n'] ∧ Layout cs

/-- Lexemes that are written with a separator in front of each. -/
inductive Spaced : List (List Char) → List Char → Prop where
  | nil : Spaced [] []
  | gap {gap : List Char} (separator : Separator gap) : Spaced [] gap
  | word {gap word text : List Char} {words : List (List Char)} (separator : Separator gap)
    (more : Spaced words text) : Spaced (word :: words) (gap ++ (word ++ text))

/-- **Lexemes written in order**, with separators between them. There may also be one in front
of the first, and one behind the last. -/
inductive LaidOut : List (List Char) → List Char → Prop where
  | spaced {words : List (List Char)} {text : List Char} (h : Spaced words text) :
    LaidOut words text
  | word {word text : List Char} {words : List (List Char)} (more : Spaced words text) :
    LaidOut (word :: words) (word ++ text)

/-- A kind, a lexeme and a literal. -/
abbrev Token.Content := Kind × String × Option Literal

/-- **A token without its line.** -/
def Token.content (t : Token) : Token.Content := (t.kind, t.lexeme, t.literal)

/-- The content of an item that is a token. -/
def Item.content? (item : Item) : Option Token.Content := item.token?.map Token.content

/-! ## Reading a text that is laid out -/

/-- The tokens of a text in which nothing is reported. -/
def Carries (text : List Char) (contents : List Token.Content) : Prop :=
  ∀ line, (itemsIn line (segments text)).map Item.content? = contents.map some

namespace Carries

variable {rest : List Char} {contents : List Token.Content}

theorem nil : Carries [] [] := by
  intro line
  rw [segments]
  rfl

/-- A segment that fits adds its item. -/
theorem segment {s : Segment} (h : Carries rest contents) (fits : s.Fits rest)
    (new : List Token.Content)
    (item : ∀ line, (s.item? line).toList.map Item.content? = new.map some) :
    Carries (s.text ++ rest) (new ++ contents) := by
  intro line
  rw [segments_of_fits fits, itemsIn, List.map_append, item, h, List.map_append]

/-- A segment that is no item may stand in front. -/
theorem skip {s : Segment} (h : Carries rest contents) (shape : s.Shape rest)
    (silent : ∀ line, s.item? line = none) : Carries (s.text ++ rest) contents := by
  have fits : s.Fits rest := by
    refine ⟨shape, ?_⟩
    rintro kind lexeme literal rfl
    cases silent 1
  exact h.segment fits [] fun line => by
    rw [silent]
    rfl

/-- **Layout may stand in front**: blanks and comments. -/
theorem layout {gap : List Char} (h : Carries rest contents) (layout : Layout gap) :
    Carries (gap ++ rest) contents := by
  induction layout with
  | nil => exact h
  | blank mem more ih => exact ih.skip (s := .blank _) (.blank mem) fun _ => rfl
  | block first more ih =>
    rw [List.append_assoc]
    exact ih.skip (s := .comment _) (.blockComment first) fun _ => rfl
  | line within more ih =>
    -- the end of the line is not part of the comment
    rw [List.append_assoc]
    have newline := ih.skip (s := .blank '\n') (.blank (by decide)) fun _ => rfl
    exact newline.skip (s := .comment _) (.lineComment within (.inr rfl)) fun _ => rfl

/-- A separator is layout. -/
theorem separator {gap : List Char} (h : Carries rest contents) (separator : Separator gap) :
    Carries (gap ++ rest) contents := by
  obtain ⟨c, cs, rfl, mem, more⟩ := separator
  exact h.layout (.blank mem more)

/-- A token is read where a blank follows it, or nothing. -/
theorem token {t : Token} (h : Carries rest contents)
    (spells : Spells t.kind t.lexeme.toList t.literal)
    (blank : ∀ c after, rest = c :: after → c ∈ [' ', '\r', '\t', '\n']) :
    Carries (t.lexeme.toList ++ rest) (t.content :: contents) := by
  have fits : (Segment.token t.kind t.lexeme.toList t.literal).Fits rest := by
    refine ⟨.token spells.kind_ne_eof, ?_⟩
    rintro _ _ _ ⟨⟩
    exact spells.longestMatch_of_blank blank
  refine h.segment fits [t.content] fun line => ?_
  show [some (t.kind, String.ofList t.lexeme.toList, t.literal)] = _
  rw [String.ofList_toList]
  rfl

end Carries

/-- What is spaced out begins with a blank, if with anything. -/
theorem Spaced.blank {words : List (List Char)} {text : List Char} (h : Spaced words text) :
    ∀ c after, text = c :: after → c ∈ [' ', '\r', '\t', '\n'] := by
  rintro c after same
  cases h with
  | nil => cases same
  | gap separator =>
    obtain ⟨_, cs, rfl, mem, -⟩ := separator
    cases same
    exact mem
  | word separator more =>
    obtain ⟨_, cs, rfl, mem, -⟩ := separator
    cases same
    exact mem

section Tokens

variable {ts : List Token} {text : List Char}

/-- **Tokens are read again** where a separator stands in front of each. -/
theorem Spaced.carries (h : Spaced (ts.map (·.lexeme.toList)) text)
    (spells : ∀ t ∈ ts, Spells t.kind t.lexeme.toList t.literal) :
    Carries text (ts.map Token.content) := by
  induction ts generalizing text with
  | nil =>
    cases h with
    | nil => exact .nil
    | gap separator =>
      have alone := Carries.nil.separator separator
      rwa [List.append_nil] at alone
  | cons t ts ih =>
    obtain ⟨here, later⟩ := List.forall_mem_cons.1 spells
    cases h with
    | word separator more => exact ((ih more later).token here more.blank).separator separator

/-- **A text that is laid out carries the tokens** that it was made of. -/
theorem LaidOut.carries (h : LaidOut (ts.map (·.lexeme.toList)) text)
    (spells : ∀ t ∈ ts, Spells t.kind t.lexeme.toList t.literal) :
    Carries text (ts.map Token.content) := by
  cases ts with
  | nil =>
    cases h with
    | spaced h => exact h.carries spells
  | cons t ts =>
    obtain ⟨here, later⟩ := List.forall_mem_cons.1 spells
    cases h with
    | spaced h => exact h.carries spells
    | word more => exact (more.carries later).token here more.blank

end Tokens

/-! ## The tokens of a text, laid out again -/

/-- A token of a source is spelled as its kind says. -/
theorem spells_of_mem_words {source : String} {t : Token} (h : t ∈ words source) :
    Spells t.kind t.lexeme.toList t.literal := by
  obtain ⟨item, mem, isToken⟩ := List.mem_filterMap.1 h
  obtain ⟨s, found, l, same, -⟩ := exists_segment_of_mem_itemsIn mem
  cases item with
  | fault r => cases isToken
  | token t' =>
    cases isToken
    have spelled := Segment.of_mem_segments Segment.spelled_cut found
    rw [Segment.eq_of_item?_token same] at spelled
    exact spelled

namespace Carries

variable {text : String} {contents : List Token.Content}

/-- A text that carries tokens has no lexical error. -/
theorem lexicalReports_eq_nil (h : Carries text.toList contents) : lexicalReports text = [] := by
  rw [lexicalReports_eq, List.filterMap_eq_nil_iff]
  intro item mem
  have known := List.mem_map_of_mem (f := Item.content?) mem
  rw [h 1] at known
  obtain ⟨content, -, same⟩ := List.mem_map.1 known
  cases item with
  | token t => rfl
  | fault r => cases same

theorem map_words (h : Carries text.toList contents) :
    (words text).map Token.content = contents := by
  calc (words text).map Token.content
      = (itemsIn 1 (segments text.toList)).filterMap Item.content? := List.map_filterMap
    _ = ((itemsIn 1 (segments text.toList)).map Item.content?).filterMap id := by
        rw [List.filterMap_map, Function.id_comp]
    _ = (contents.map some).filterMap id := by rw [h 1]
    _ = contents := by rw [List.filterMap_map, Function.id_comp, List.filterMap_some]

end Carries

/-- **Layout does not matter.** The tokens of a text, written again with other separators, are
the tokens of what is written, up to their lines, and nothing is reported there. -/
theorem same_tokens_in_any_layout (source text : String)
    (laid : LaidOut ((words source).map (·.lexeme.toList)) text.toList) :
    lexicalReports text = []
      ∧ (tokens text).map Token.content = (tokens source).map Token.content := by
  have carries := laid.carries fun _ => spells_of_mem_words
  refine ⟨carries.lexicalReports_eq_nil, ?_⟩
  rw [tokens_eq, tokens_eq, List.map_append, List.map_append, carries.map_words]
  rfl

/-- Tokens side by side. -/
def packed : String := "\"/*\n\"/1.x//y"

/-- The same tokens, with layout that has the same characters in it. -/
def spread : String := "\"/*\n\" /*\"*/\t/ //*\n1\n. /**/x"

theorem same_tokens_in_any_layout_spread :
    LaidOut ((words packed).map (·.lexeme.toList)) spread.toList
      ∧ lexicalReports spread = []
      ∧ (tokens spread).map Token.content = (tokens packed).map Token.content := by
  have lexemes : (words packed).map (·.lexeme.toList)
      = [['"', '/', '*', '\n', '"'], ['/'], ['1'], ['.'], ['x']] := by
    decide +kernel
  have closed : Layout (['/', '*'] ++ ([] ++ ['*', '/']) ++ []) := .block (by decide) .nil
  have quote : Layout (['/', '*'] ++ (['"'] ++ ['*', '/']) ++ ['\t']) :=
    .block (by decide) (.blank (by decide) .nil)
  have line : Layout (['/', '/'] ++ ['*'] ++ ['\n']) := .line (by decide) .nil
  have laid : LaidOut ((words packed).map (·.lexeme.toList)) spread.toList := by
    rw [lexemes]
    exact .word (.word ⟨' ', _, rfl, by decide, quote⟩
      (.word ⟨' ', _, rfl, by decide, line⟩
        (.word ⟨'\n', _, rfl, by decide, .nil⟩
          (.word ⟨' ', _, rfl, by decide, closed⟩ .nil))))
  exact ⟨laid, same_tokens_in_any_layout _ _ laid⟩

end Kix
