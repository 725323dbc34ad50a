import Kix.Text.Unprintable

/-!
# Quoted paths

How a message quotes the path of a file: between double quotes, with a
backslash in front of double quotes and backslashes, with the usual letters
for a few control characters, and with the code point of every other character
that would not show.
-/

namespace Kix.Text

/-- A code point between braces. -/
def codePoint (c : Char) : List Char :=
  '\\' :: 'u' :: '{' :: (Nat.toDigits 16 c.toNat ++ ['}'])

/-- How a character of a path is written. -/
def escapeInPath (c : Char) : List Char :=
  if c = '\x00' then ['\\', '0']
  else if c = '\t' then ['\\', 't']
  else if c = '\r' then ['\\', 'r']
  else if c = '\n' then ['\\', 'n']
  else if c = '\\' || c = '"' then ['\\', c]
  else if isUnprintable c then codePoint c
  else [c]

/-- **A path in a message.** -/
def quotePath (path : String) : String :=
  .ofList ('"' :: (path.toList.flatMap escapeInPath ++ ['"']))

end Kix.Text
