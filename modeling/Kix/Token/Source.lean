import Kix.Report
import Kix.Token.Segment

/-!
# Scanning

Scanning a source text gives its **items**: tokens, and reports about the text
that belongs to no token. Blanks and comments give nothing. An item carries the
line on which its text ends, which is one more than the number of newlines up
to there, and a last token marks the end of the input.
-/

namespace Kix

/-- What scanning yields: a token, or a report about text that is none. -/
inductive Item where
  | token (t : Token)
  | fault (r : Report)
  deriving DecidableEq

namespace Item

/-- The token of an item that is one. -/
def token? : Item → Option Token
  | token t => some t
  | fault _ => none

/-- The report of an item that is one. -/
def fault? : Item → Option Report
  | token _ => none
  | fault r => some r

end Item

/-- The item of a segment that ends on the given line. -/
def Segment.item? (line : Nat) : Segment → Option Item
  | token kind lexeme literal =>
    some (.token { kind, lexeme := .ofList lexeme, literal, line })
  | blank _ | comment _ => none
  | stray c => some (.fault (.lexical line (.unexpectedCharacter c)))
  | openString _ => some (.fault (.lexical line .unterminatedString))
  | openComment _ => some (.fault (.lexical line .unterminatedComment))

/-- How many lines a piece of text ends. -/
def newlines (cs : List Char) : Nat := cs.count '\n'

/-- The items of segments that follow text ending on the given line, closed by
the end of the input. -/
def itemsFrom (line : Nat) : List Segment → List Item
  | [] => [.token (.endOfInput line)]
  | s :: rest =>
    let line := line + newlines s.text
    match s.item? line with
    | some item => item :: itemsFrom line rest
    | none => itemsFrom line rest

/-- **Everything that scanning a source text yields**, in order. -/
def scan (source : String) : List Item := itemsFrom 1 (segments source.toList)

/-- The tokens of a source text, the end of the input last. -/
def tokens (source : String) : List Token := (scan source).filterMap Item.token?

/-- The reports of scanning a source text. -/
def lexicalReports (source : String) : List Report := (scan source).filterMap Item.fault?

end Kix
