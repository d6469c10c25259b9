import SystemsLang.Text.Unprintable
import SystemsLang.Token

/-!
# Listings of tokens

A listing shows a token with its kind, its text and its position. The text stands between double
quotes on a single line: line breaks, tabs, carriage returns, null characters, backslashes and
double quotes are shown by a letter or mark behind a backslash, other unprintable characters by
their code point, and everything else as it is.
-/

namespace SystemsLang

namespace Text

/-- The code point of a character, in hexadecimal digits between braces. -/
def shownCodePoint (character : Char) : List Char :=
  ['\\', 'u', '{'] ++ Nat.toDigits 16 character.toNat ++ ['}']

/-- A character as a listing shows it. -/
def shownChar (character : Char) : List Char :=
  match character with
  | '\x00' => ['\\', '0']
  | '\n' => ['\\', 'n']
  | '\t' => ['\\', 't']
  | '\r' => ['\\', 'r']
  | '\\' => ['\\', '\\']
  | '"' => ['\\', '"']
  | other => if isUnprintable other then shownCodePoint other else [other]

/-- A text as a listing shows it. -/
def shown (text : String) : String :=
  String.ofList ('"' :: text.toList.flatMap shownChar ++ ['"'])

end Text

/-- The listing of a position. -/
def Position.listing (position : Position) : String :=
  "Position(" ++ position.text ++ ")"

/-- The listing of a token. -/
def Token.listing (token : Token) : String :=
  "Token(" ++ token.kind.name ++ ", " ++ Text.shown token.text ++ ", " ++ token.position.text ++ ")"

end SystemsLang
