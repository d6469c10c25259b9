import SystemsLang.Token

/-!
# Parse errors

Parsing stops at the first error. An error is a cause and the token it is found at. A token that
records a lexical failure reports that failure whatever the parser was looking for, which is the
rule of `ParseError.foundAt`.
-/

namespace SystemsLang.Syntax

open Token (Kind Failure)

/-- How deep expressions, blocks, chains of `else if` and types may nest. -/
def maxDepth : Nat := 128

/-- Why a token list is not a program. -/
inductive ParseError.Cause
  | invalidAssignmentTarget
  | invalidArrayLength (text : String)
  | unexpectedInExpr
  | expected (kind : Kind)
  | expectedAny (kinds : List Kind)
  | expectedDeclaration
  | expectedType
  | nestingTooDeep
  | lexical (failure : Failure)
deriving DecidableEq

/-- A cause and the token at which parsing stopped. -/
structure ParseError where
  cause : ParseError.Cause
  token : Token
deriving DecidableEq

namespace ParseError

/-- The error found at a token. A lexical failure of the token comes before any other cause. -/
def foundAt (token : Token) (cause : Cause) : ParseError :=
  match Failure.of? token with
  | some failure => ⟨.lexical failure, token⟩
  | none => ⟨cause, token⟩

/-- The name of a cause in reports. -/
def Cause.name : Cause → String
  | invalidAssignmentTarget => "InvalidAssignmentTarget"
  | invalidArrayLength _ => "InvalidArrayLength"
  | unexpectedInExpr => "UnexpectedTokenInExpr"
  | expected _ => "Unexpected"
  | expectedAny _ => "UnexpectedAny"
  | expectedDeclaration => "ExpectedDeclaration"
  | expectedType => "ExpectedType"
  | nestingTooDeep => "NestingTooDeep"
  | lexical _ => "Lexer"

/-- The position of the token at which parsing stopped. -/
def position (error : ParseError) : Position :=
  error.token.position

/-- The message that reports an error. -/
def message (error : ParseError) : String :=
  let actual := error.token.kind.display
  match error.cause with
  | .invalidAssignmentTarget => "invalid assignment target"
  | .invalidArrayLength text => "invalid array length '" ++ text ++ "'"
  | .unexpectedInExpr => "unexpected token " ++ actual ++ " in expression"
  | .expected kind => "expected " ++ kind.display ++ ", but got " ++ actual
  | .expectedAny kinds =>
    "expected one of " ++ ", ".intercalate (kinds.map Kind.display) ++ ", but got " ++ actual
  | .expectedDeclaration => "expected a declaration, but got " ++ actual
  | .expectedType => "expected a type, but got " ++ actual
  | .nestingTooDeep =>
    "nesting is too deep, the limit is " ++ toString maxDepth ++ " levels"
  | .lexical failure => failure.message

/-- The message behind the position that it belongs to. -/
def located (error : ParseError) : String :=
  error.position.text ++ ": " ++ error.message

end ParseError

end SystemsLang.Syntax
