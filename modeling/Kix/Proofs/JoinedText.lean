import Kix.Proofs.Relabeling
import Kix.Proofs.Scanning

/-!
# Two texts with a line end between them

No token goes on behind the end of a line, except a string, and a comment that is not
closed on its line. So a text in which every string and every comment is closed is cut
as before when a line end and another text follow it (`segments_append`), and the tokens
of the whole are those of the first text and, on later lines, those of the second
(`words_joined`).
-/

namespace Kix

namespace Segment

/-- Whether a segment ran into the end of the text. -/
def isOpen : Segment → Bool
  | openString _ | openComment _ => true
  | token _ _ _ | blank _ | comment _ | stray _ => false

/-! ## The first segment -/

section Cut

variable (more : List Char)

/-- A stretch of characters that stops, at the latest before the line end, does not
depend on what comes later. -/
theorem span_append (p : Char → Bool) (cs : List Char)
    (stops : cs.dropWhile p ≠ [] ∨ p '\n' = false) :
    (cs ++ '\n' :: more).takeWhile p = cs.takeWhile p
      ∧ (cs ++ '\n' :: more).dropWhile p = cs.dropWhile p ++ '\n' :: more := by
  induction cs with
  | nil =>
    have stop : p '\n' = false := stops.resolve_left fun h => h rfl
    simp [stop]
  | cons c cs ih =>
    by_cases h : p c = true
    · rw [List.dropWhile_cons_of_pos h] at stops
      simp [h, ih stops]
    · simp [h]

/-- What a text does not begin with, it does not begin with in front of a line end. -/
theorem append_ne_cons {c : Char} (other : c ≠ '\n') {rest : List Char}
    (h : ∀ after, rest ≠ c :: after) (after : List Char) :
    rest ++ '\n' :: more ≠ c :: after := by
  intro same
  cases rest with
  | nil => exact other (List.cons.inj same).1.symm
  | cons d rest => exact h rest (congrArg (· :: rest) (List.cons.inj same).1)

/-- A closed string ends where it ended. -/
theorem cutString_append {rest : List Char} (closed : (cutString rest).1.isOpen = false) :
    cutString (rest ++ '\n' :: more)
      = ((cutString rest).1, (cutString rest).2 ++ '\n' :: more) := by
  unfold cutString at closed ⊢
  dsimp only at closed ⊢
  cases quoted : rest.dropWhile (· != '"') with
  | nil =>
    rw [quoted] at closed
    exact nomatch closed
  | cons quote after =>
    have stops : rest.dropWhile (· != '"') ≠ [] := by
      rw [quoted]
      exact List.cons_ne_nil _ _
    obtain ⟨body, behind⟩ := span_append more _ rest (.inl stops)
    rw [body, behind, quoted]
    rfl

/-- The end of a block comment is where it was, whatever follows. -/
theorem splitClose_append {cs body after : List Char} (h : splitClose cs = some (body, after)) :
    splitClose (cs ++ more) = some (body, after ++ more) := by
  fun_induction splitClose cs generalizing body after with
  | case1 => cases h
  | case2 after' =>
    obtain ⟨rfl, rfl⟩ := Prod.mk.inj (Option.some.inj h)
    rfl
  | case3 c rest other ih =>
    obtain ⟨⟨body', after'⟩, found, same⟩ := Option.map_eq_some_iff.1 h
    obtain ⟨rfl, rfl⟩ := Prod.mk.inj same
    have later := ih found
    obtain ⟨d, rest, rfl⟩ : ∃ d rest', rest = d :: rest' :=
      List.exists_cons_of_ne_nil fun empty => by
        rw [empty] at found
        cases found
    rw [List.cons_append, List.cons_append] at *
    rw [splitClose, later]
    · rfl
    · rintro after'' rfl same
      obtain ⟨rfl, -⟩ := List.cons.inj same
      exact other _ rfl rfl

/-- A slash or a comment. A line comment ends in front of the line end that was added. -/
theorem cutSlash_append {rest : List Char} (closed : (cutSlash rest).1.isOpen = false) :
    cutSlash (rest ++ '\n' :: more)
      = ((cutSlash rest).1, (cutSlash rest).2 ++ '\n' :: more) := by
  fun_cases cutSlash rest with
  | case1 rest =>
    obtain ⟨body, behind⟩ := span_append more (· != '\n') rest (.inr rfl)
    rw [List.cons_append, cutSlash, body, behind]
  | case2 rest body after found =>
    rw [List.cons_append, cutSlash, splitClose_append _ found]
  | case3 rest found =>
    rw [cutSlash, found] at closed
    exact nomatch closed
  | case4 rest noLine noBlock =>
    rw [cutSlash]
    · exact append_ne_cons more (by decide) noLine
    · exact append_ne_cons more (by decide) noBlock

/-- Nothing but digits behind a number and its point make a fraction of it. -/
theorem cutNumber_of_whole {first : Char} {rest : List Char}
    (whole : ∀ digit others, rest.dropWhile Char.isDigit = '.' :: digit :: others →
      digit.isDigit = false) :
    cutNumber first rest
      = (.token .number (first :: rest.takeWhile Char.isDigit)
          (some (.number (Number.ofNumeral (first :: rest.takeWhile Char.isDigit) []))),
        rest.dropWhile Char.isDigit) := by
  unfold cutNumber
  dsimp only
  split
  · next digit others after =>
    rw [if_neg (by rw [whole digit others after]; exact Bool.false_ne_true), after]
  · rfl

/-- A number with a fraction. -/
theorem cutNumber_of_fraction {first digit : Char} {rest others : List Char}
    (after : rest.dropWhile Char.isDigit = '.' :: digit :: others)
    (isDigit : digit.isDigit = true) :
    cutNumber first rest
      = (.token .number (first :: (rest.takeWhile Char.isDigit
            ++ '.' :: digit :: others.takeWhile Char.isDigit))
          (some (.number (Number.ofNumeral (first :: rest.takeWhile Char.isDigit)
            (digit :: others.takeWhile Char.isDigit)))),
        others.dropWhile Char.isDigit) := by
  unfold cutNumber
  dsimp only
  rw [after]
  exact if_pos isDigit

/-- A number ends in front of the line end, also if there is a point behind it. -/
theorem cutNumber_append (first : Char) (rest : List Char) :
    cutNumber first (rest ++ '\n' :: more)
      = ((cutNumber first rest).1, (cutNumber first rest).2 ++ '\n' :: more) := by
  obtain ⟨taken, left⟩ := span_append more Char.isDigit rest (.inr rfl)
  by_cases fraction : ∃ digit others,
      rest.dropWhile Char.isDigit = '.' :: digit :: others ∧ digit.isDigit = true
  · obtain ⟨digit, others, after, isDigit⟩ := fraction
    obtain ⟨taken', left'⟩ := span_append more Char.isDigit others (.inr rfl)
    have after' : (rest ++ '\n' :: more).dropWhile Char.isDigit
        = '.' :: digit :: (others ++ '\n' :: more) := by
      rw [left, after]
      rfl
    rw [cutNumber_of_fraction after isDigit, cutNumber_of_fraction after' isDigit, taken, taken',
      left']
  · have whole : ∀ digit others, rest.dropWhile Char.isDigit = '.' :: digit :: others →
        digit.isDigit = false := fun digit others after =>
      eq_false_of_ne_true fun isDigit => fraction ⟨digit, others, after, isDigit⟩
    have whole' : ∀ digit others, (rest ++ '\n' :: more).dropWhile Char.isDigit
        = '.' :: digit :: others → digit.isDigit = false := by
      intro digit others after
      rw [left] at after
      generalize rest.dropWhile Char.isDigit = behind at whole after
      match behind with
      | [] => exact nomatch (List.cons.inj after).1
      | [_] =>
        obtain ⟨-, rest⟩ := List.cons.inj after
        rw [← (List.cons.inj rest).1]
        rfl
      | c :: d :: behind =>
        obtain ⟨rfl, rest⟩ := List.cons.inj after
        rw [← (List.cons.inj rest).1]
        exact whole d behind rfl
    rw [cutNumber_of_whole whole, cutNumber_of_whole whole', taken, left]

/-- A word ends in front of the line end. -/
theorem cutWord_append (first : Char) (rest : List Char) :
    cutWord first (rest ++ '\n' :: more)
      = ((cutWord first rest).1, (cutWord first rest).2 ++ '\n' :: more) := by
  unfold cutWord
  obtain ⟨word, after⟩ := span_append more isWordRest rest (.inr rfl)
  rw [word, after]

/-- An operator of one character, behind which stands no equals sign. -/
theorem cutSymbol_of_ne {first : Char} {rest : List Char} (single : ∀ after, rest ≠ '=' :: after) :
    cutSymbol first rest
      = ((Kind.ofSymbol? first).elim (.stray first) (.token · [first] none), rest) := by
  unfold cutSymbol
  split
  · next after _ => exact absurd rfl (single after)
  · cases Kind.ofSymbol? first <;> rfl

/-- An operator ends in front of the line end, which is no equals sign. -/
theorem cutSymbol_append (first : Char) (rest : List Char) :
    cutSymbol first (rest ++ '\n' :: more)
      = ((cutSymbol first rest).1, (cutSymbol first rest).2 ++ '\n' :: more) := by
  by_cases pair : ∃ after, rest = '=' :: after
  · obtain ⟨after, rfl⟩ := pair
    unfold cutSymbol
    cases Kind.ofSymbolEqual? first with
    | some kind => rfl
    | none => cases Kind.ofSymbol? first <;> rfl
  · have single : ∀ after, rest ≠ '=' :: after := fun after same => pair ⟨after, same⟩
    rw [cutSymbol_of_ne single, cutSymbol_of_ne (append_ne_cons more (by decide) single)]

/-- **The first segment does not depend on what comes behind a line end**, if it is
closed. -/
theorem cut_append {first : Char} {rest : List Char}
    (closed : (cut first rest).1.isOpen = false) :
    cut first (rest ++ '\n' :: more)
      = ((cut first rest).1, (cut first rest).2 ++ '\n' :: more) := by
  unfold cut at closed ⊢
  by_cases blank : isBlank first = true
  · rw [if_pos blank, if_pos blank]
  rw [if_neg blank] at closed ⊢
  rw [if_neg blank]
  by_cases quote : first = '"'
  · rw [if_pos quote] at closed ⊢
    rw [if_pos quote]
    exact cutString_append more closed
  rw [if_neg quote] at closed ⊢
  rw [if_neg quote]
  by_cases slash : first = '/'
  · rw [if_pos slash] at closed ⊢
    rw [if_pos slash]
    exact cutSlash_append more closed
  rw [if_neg slash, if_neg slash]
  split
  · exact cutNumber_append more first rest
  split
  · exact cutWord_append more first rest
  · exact cutSymbol_append more first rest

end Cut

end Segment

/-! ## All segments -/

/-- **The line end stands between the segments of both texts**, if the first text leaves
nothing open. -/
theorem segments_append {cs : List Char} (closed : ∀ s ∈ segments cs, s.isOpen = false)
    (more : List Char) :
    segments (cs ++ '\n' :: more) = segments cs ++ .blank '\n' :: segments more := by
  fun_induction segments cs with
  | case1 =>
    rw [List.nil_append, segments]
    rfl
  | case2 first rest ih =>
    have cut := Segment.cut_append more (closed _ List.mem_cons_self)
    rw [List.cons_append, segments, cut, ih fun s mem => closed s (List.mem_cons_of_mem _ mem)]
    rfl

/-! ## Lines -/

/-- The line ends in texts that are joined. -/
theorem newlines_append (cs cs' : List Char) :
    newlines (cs ++ cs') = newlines cs + newlines cs' := List.count_append

/-- The items of segments that follow text ending on the given line, without the end of
the input. -/
def itemsIn (line : Nat) : List Segment → List Item
  | [] => []
  | s :: rest =>
    (s.item? (line + newlines s.text)).toList ++ itemsIn (line + newlines s.text) rest

/-- The items of segments, and the end of the input on the last line. -/
theorem itemsFrom_eq (line : Nat) (segs : List Segment) :
    itemsFrom line segs
      = itemsIn line segs
        ++ [.token (.endOfInput (line + newlines (segs.flatMap Segment.text)))] := by
  induction segs generalizing line with
  | nil => rfl
  | cons s rest ih =>
    rw [itemsFrom, itemsIn, List.flatMap_cons, newlines_append, ← Nat.add_assoc, List.append_assoc,
      ← ih]
    cases s.item? (line + newlines s.text) <;> rfl

/-- The later segments begin on the line on which the earlier ones end. -/
theorem itemsIn_append (line : Nat) (segs segs' : List Segment) :
    itemsIn line (segs ++ segs')
      = itemsIn line segs ++ itemsIn (line + newlines (segs.flatMap Segment.text)) segs' := by
  induction segs generalizing line with
  | nil => rfl
  | cons s rest ih =>
    rw [List.cons_append, itemsIn, ih, itemsIn, List.flatMap_cons, newlines_append,
      ← Nat.add_assoc, List.append_assoc]

/-- The item with its line changed. -/
def Item.relabel (ρ : Relabeling) : Item → Item
  | token t => .token (t.relabel ρ)
  | fault r => .fault (r.relabel ρ)

/-- Later lines. -/
def Relabeling.later (k : Nat) : Relabeling := { line := (· + k) }

/-- On later lines the items are the same, on later lines. -/
theorem itemsIn_later (k line : Nat) (segs : List Segment) :
    itemsIn (line + k) segs = (itemsIn line segs).map (Item.relabel (.later k)) := by
  have item (s : Segment) (line : Nat) :
      s.item? (line + k) = (s.item? line).map (Item.relabel (.later k)) := by
    cases s <;> rfl
  induction segs generalizing line with
  | nil => rfl
  | cons s rest ih =>
    rw [itemsIn, itemsIn, Nat.add_right_comm, ih, item, List.map_append, Option.toList_map]

/-- An item comes from a segment and stands on a line of the text. -/
theorem exists_segment_of_mem_itemsIn {line : Nat} {segs : List Segment} {item : Item}
    (h : item ∈ itemsIn line segs) :
    ∃ s ∈ segs, ∃ l, s.item? l = some item ∧ line ≤ l
      ∧ l ≤ line + newlines (segs.flatMap Segment.text) := by
  induction segs generalizing line with
  | nil => exact absurd h List.not_mem_nil
  | cons s rest ih =>
    rw [List.flatMap_cons, newlines_append, ← Nat.add_assoc]
    rcases List.mem_append.1 h with here | later
    · exact ⟨s, List.mem_cons_self, _, Option.mem_toList.1 here, Nat.le_add_right _ _,
        Nat.le_add_right _ _⟩
    · obtain ⟨s', mem, l, same, low, high⟩ := ih later
      exact ⟨s', List.mem_cons_of_mem _ mem, l, same, Nat.le_trans (Nat.le_add_right _ _) low, high⟩

/-- Every segment is on some line, and gives its item there. -/
theorem exists_line_of_mem {segs : List Segment} {s : Segment} (h : s ∈ segs) (line : Nat) :
    ∃ l, ∀ item ∈ s.item? l, item ∈ itemsIn line segs := by
  induction segs generalizing line with
  | nil => exact absurd h List.not_mem_nil
  | cons s' rest ih =>
    rcases List.mem_cons.1 h with rfl | h
    · exact ⟨_, fun item found => List.mem_append_left _ (Option.mem_toList.2 found)⟩
    · obtain ⟨l, gives⟩ := ih h (line + newlines s'.text)
      exact ⟨l, fun item found => List.mem_append_right _ (gives item found)⟩

/-! ## Texts -/

/-- **The last line of a text.** -/
def lastLine (source : String) : Nat := 1 + newlines source.toList

/-- **The tokens of a text** without the end of the input. -/
def words (source : String) : List Token :=
  (itemsIn 1 (segments source.toList)).filterMap Item.token?

section Texts

variable (source source' : String)

/-- **All items of a source**, with the end of the input apart. -/
theorem scan_eq :
    scan source
      = itemsIn 1 (segments source.toList) ++ [.token (.endOfInput (lastLine source))] := by
  unfold scan
  rw [itemsFrom_eq, text_segments]
  rfl

/-- **All tokens of a source**, with the end of the input apart. -/
theorem tokens_eq : tokens source = words source ++ [.endOfInput (lastLine source)] := by
  unfold tokens
  rw [scan_eq, List.filterMap_append]
  rfl

theorem lexicalReports_eq :
    lexicalReports source = (itemsIn 1 (segments source.toList)).filterMap Item.fault? := by
  unfold lexicalReports
  rw [scan_eq, List.filterMap_append]
  exact List.append_nil _

variable {source}

/-- The tokens in front of the end stand on the lines of the source. -/
theorem mem_words {t : Token} (h : t ∈ words source) :
    t.kind ≠ .eof ∧ 1 ≤ t.line ∧ t.line ≤ lastLine source := by
  obtain ⟨item, mem, isToken⟩ := List.mem_filterMap.1 h
  obtain ⟨s, hs, l, same, low, high⟩ := exists_segment_of_mem_itemsIn mem
  rw [text_segments] at high
  have sound := Segment.sound_of_mem_segments hs
  cases s with
  | token kind lexeme literal =>
    cases same
    cases isToken
    exact ⟨sound.1, low, high⟩
  | blank c | comment lexeme => cases same
  | stray c | openString lexeme | openComment lexeme =>
    cases same
    cases isToken

/-- A text without lexical reports leaves nothing open. -/
theorem closed_of_lexicalReports (clean : lexicalReports source = []) :
    ∀ s ∈ segments source.toList, s.isOpen = false := by
  rw [lexicalReports_eq, List.filterMap_eq_nil_iff] at clean
  intro s mem
  obtain ⟨l, gives⟩ := exists_line_of_mem mem 1
  cases s with
  | openString lexeme | openComment lexeme => exact nomatch clean _ (gives _ rfl)
  | _ => rfl

theorem toList_joined :
    (source ++ "\n" ++ source').toList = source.toList ++ '\n' :: source'.toList := by
  simp

/-- **The items of two texts with a line end between them.** -/
theorem itemsIn_joined (clean : lexicalReports source = []) :
    itemsIn 1 (segments (source ++ "\n" ++ source').toList)
      = itemsIn 1 (segments source.toList)
        ++ (itemsIn 1 (segments source'.toList)).map (Item.relabel (.later (lastLine source))) := by
  rw [toList_joined, segments_append (closed_of_lexicalReports clean), itemsIn_append,
    text_segments, ← itemsIn_later, Nat.add_comm 1 (lastLine source)]
  rfl

/-- **The tokens of two texts with a line end between them.** -/
theorem words_joined (clean : lexicalReports source = []) :
    words (source ++ "\n" ++ source')
      = words source ++ (words source').map (Token.relabel (.later (lastLine source))) := by
  have commutes : Item.token? ∘ Item.relabel (.later (lastLine source))
      = fun item => (Item.token? item).map (Token.relabel (.later (lastLine source))) := by
    funext item
    cases item <;> rfl
  unfold words
  rw [itemsIn_joined source' clean, List.filterMap_append, List.filterMap_map, commutes,
    List.map_filterMap]

/-- The lines of both sources are counted. -/
theorem lastLine_joined :
    lastLine (source ++ "\n" ++ source') = lastLine source' + lastLine source := by
  unfold lastLine
  rw [toList_joined, newlines_append]
  show 1 + (newlines source.toList + List.count '\n' ('\n' :: source'.toList)) = _
  rw [List.count_cons_self]
  unfold newlines
  omega

/-- **The lexical reports of two texts with a line end between them.** -/
theorem lexicalReports_joined (clean : lexicalReports source = []) :
    lexicalReports (source ++ "\n" ++ source')
      = (lexicalReports source').map (Report.relabel (.later (lastLine source))) := by
  have commutes : Item.fault? ∘ Item.relabel (.later (lastLine source))
      = fun item => (Item.fault? item).map (Report.relabel (.later (lastLine source))) := by
    funext item
    cases item <;> rfl
  have nothing := clean
  rw [lexicalReports_eq] at nothing ⊢
  rw [itemsIn_joined source' clean, List.filterMap_append, nothing, List.filterMap_map, commutes,
    ← List.map_filterMap, lexicalReports_eq]
  rfl

end Texts

end Kix
