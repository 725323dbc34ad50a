import Kix.Number.Text
import Kix.Text.Json
import Kix.Token.Basic

/-!
# Token listings

A token listing has one line for each token: a JSON object with the kind, the
text, the literal and the line of the token, in that order.
-/

namespace Kix

/-- A number as JSON, which has no text for one that is not finite. -/
def Number.dumped (x : Float) : String := (dumped? x).getD "null"

/-- A literal as JSON, labelled by its sort. -/
def Literal.dump : Literal → String
  | number x => "\x7b\"Number\":" ++ Number.dumped x ++ "\x7d"
  | string s => "\x7b\"Str\":" ++ Json.quote s ++ "\x7d"
  | bool b => Json.quote (if b then "True" else "False")
  | nil => Json.quote "Nil"

/-- **A token as a line of a listing**, without the line end. -/
def Token.dump (t : Token) : String :=
  "\x7b\"type\":" ++ Json.quote t.kind.name
    ++ ",\"lexeme\":" ++ Json.quote t.lexeme
    ++ ",\"literal\":" ++ (t.literal.map Literal.dump).getD "null"
    ++ ",\"line\":" ++ toString t.line ++ "\x7d"

end Kix
