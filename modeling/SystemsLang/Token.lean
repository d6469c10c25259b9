import SystemsLang.Position
import SystemsLang.Token.Kind

/-!
# Tokens

A token is a kind, a text and the position of its first character. The text of a string token is
the value between its quotes; the text of every other token is what the source holds. A token of a
failing kind is the record of a lexical failure, and `Failure.of?` reads the failure back from it.
-/

namespace SystemsLang

/-- A kind, a text and the position of the first character. -/
structure Token where
  kind : Token.Kind
  text : String
  position : Position
deriving DecidableEq, Inhabited

namespace Token

/-- What can be wrong with a stretch of text that begins no lexeme. -/
inductive Failure
  | unterminatedString
  | unexpectedChar (character : Char)
deriving DecidableEq

namespace Failure

/-- The name of a failure in reports. -/
def name : Failure → String
  | unterminatedString => "UnterminatedString"
  | unexpectedChar _ => "UnexpectedChar"

/-- The message that reports a failure. -/
def message : Failure → String
  | unterminatedString => "Unterminated string"
  | unexpectedChar character => "Unexpected character '" ++ character.toString ++ "'"

/-- The failure that a token records. A stray character is the first of the token's text, or the
null character when the text is empty. -/
def of? (token : Token) : Option Failure :=
  match token.kind with
  | .unterminatedString => some unterminatedString
  | .unexpectedChar => some (unexpectedChar (token.text.toList.headD '\x00'))
  | _ => none

/-- A token records a failure exactly if its kind is a failing one. -/
theorem of?_isSome (token : Token) : (of? token).isSome = token.kind.isFailure := by
  unfold of? Kind.isFailure
  cases token.kind <;> rfl

end Failure

/-- Whether the token marks the end of the input. -/
def isEnding (token : Token) : Bool :=
  token.kind == .ending

/-- The token that stands for everything behind the last one: an end marker with no text, at the
position of the last token or at the start of the text if there is none. -/
def endingOf (tokens : List Token) : Token :=
  ⟨.ending, "", (tokens.getLast?.map Token.position).getD Position.start⟩

end Token

end SystemsLang
