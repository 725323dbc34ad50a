/-!
# Tokens

A token is a piece of source text with the **kind** that the grammar looks at,
the value it denotes if it denotes one, and the line on which it ends.
-/

namespace Kix

/-- What the grammar sees of a token. -/
inductive Kind where
  | leftParen | rightParen | leftBrace | rightBrace
  | comma | dot | minus | plus | semicolon | slash | star | question | colon
  | bang | bangEqual | equal | equalEqual | greater | greaterEqual | less | lessEqual
  | identifier | string | number
  | andWord | classWord | elseWord | falseWord | funWord | forWord | ifWord | nilWord
  | orWord | printWord | returnWord | superWord | thisWord | trueWord | varWord | whileWord
  | eof
  deriving DecidableEq, Repr, Inhabited

namespace Kind

/-- The name of a kind in a token listing. -/
def name : Kind → String
  | leftParen => "LEFT_PAREN" | rightParen => "RIGHT_PAREN"
  | leftBrace => "LEFT_BRACE" | rightBrace => "RIGHT_BRACE"
  | comma => "COMMA" | dot => "DOT" | minus => "MINUS" | plus => "PLUS"
  | semicolon => "SEMICOLON" | slash => "SLASH" | star => "STAR"
  | question => "QUESTION" | colon => "COLON"
  | bang => "BANG" | bangEqual => "BANG_EQUAL"
  | equal => "EQUAL" | equalEqual => "EQUAL_EQUAL"
  | greater => "GREATER" | greaterEqual => "GREATER_EQUAL"
  | less => "LESS" | lessEqual => "LESS_EQUAL"
  | identifier => "IDENTIFIER" | string => "STRING" | number => "NUMBER"
  | andWord => "AND" | classWord => "CLASS" | elseWord => "ELSE" | falseWord => "FALSE"
  | funWord => "FUN" | forWord => "FOR" | ifWord => "IF" | nilWord => "NIL"
  | orWord => "OR" | printWord => "PRINT" | returnWord => "RETURN" | superWord => "SUPER"
  | thisWord => "THIS" | trueWord => "TRUE" | varWord => "VAR" | whileWord => "WHILE"
  | eof => "EOF"

/-- All kinds, in the order of their declaration. -/
def all : List Kind :=
  [leftParen, rightParen, leftBrace, rightBrace, comma, dot, minus, plus, semicolon, slash,
    star, question, colon, bang, bangEqual, equal, equalEqual, greater, greaterEqual, less,
    lessEqual, identifier, string, number, andWord, classWord, elseWord, falseWord, funWord,
    forWord, ifWord, nilWord, orWord, printWord, returnWord, superWord, thisWord, trueWord,
    varWord, whileWord, eof]

/-- The kind with a given name. -/
def ofName? (text : String) : Option Kind := all.find? (·.name == text)

/-- **The reserved words.** Every other word is an identifier. -/
def reserved : List (String × Kind) :=
  [("and", andWord), ("class", classWord), ("else", elseWord), ("false", falseWord),
    ("fun", funWord), ("for", forWord), ("if", ifWord), ("nil", nilWord), ("or", orWord),
    ("print", printWord), ("return", returnWord), ("super", superWord), ("this", thisWord),
    ("true", trueWord), ("var", varWord), ("while", whileWord)]

/-- The kind of a word. -/
def ofWord (word : String) : Kind := (reserved.lookup word).getD identifier

/-- The operators and separators of one character. -/
def ofSymbol? : Char → Option Kind
  | '(' => some leftParen | ')' => some rightParen
  | '{' => some leftBrace | '}' => some rightBrace
  | ',' => some comma | '.' => some dot | '-' => some minus | '+' => some plus
  | ';' => some semicolon | '/' => some slash | '*' => some star
  | '?' => some question | ':' => some colon
  | '!' => some bang | '=' => some equal | '>' => some greater | '<' => some less
  | _ => none

/-- The operators that end in `=` behind another character. -/
def ofSymbolEqual? : Char → Option Kind
  | '!' => some bangEqual | '=' => some equalEqual
  | '>' => some greaterEqual | '<' => some lessEqual
  | _ => none

end Kind

/-- A value written down in the source. -/
inductive Literal where
  | number (value : Float)
  | string (value : String)
  | bool (value : Bool)
  | nil
  deriving DecidableEq, Inhabited

/-- A token: its kind, its text, the value it denotes, and the line on which
its text ends. -/
structure Token where
  kind : Kind
  lexeme : String
  literal : Option Literal := none
  line : Nat
  deriving DecidableEq, Inhabited

/-- A token without a literal. -/
def Token.onLine (line : Nat) (kind : Kind) (lexeme : String) : Token := { kind, lexeme, line }

/-- The token that stands behind the last one. -/
def Token.endOfInput (line : Nat) : Token := .onLine line .eof ""

end Kix
