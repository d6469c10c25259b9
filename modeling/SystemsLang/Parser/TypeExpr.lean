import SystemsLang.Parser.Basic
import SystemsLang.Syntax.Ident
import SystemsLang.Syntax.TypeExpr
import SystemsLang.Text.Decimal

/-!
# Parsing type expressions

A type is a name or a mark before another type. `Parser.typeExpr` is told how many more levels of
nesting there is room for and uses up one of them before it looks at a token.
-/

namespace SystemsLang.Parser

open Syntax (TypeExpr Ident)

/-- A name, with the position where it stands. -/
def ident : Parser Ident := do
  let token ← expect .identifier
  return ⟨token.text, token.position⟩

/-- The length of an array, a decimal number of at most 64 bits. -/
def arrayLength : Parser UInt64 := do
  let token ← expect .number
  match Text.readWord? token.text.toList with
  | some length => return length
  | none => failAt token (.invalidArrayLength token.text)

/-- A type expression, with room for the given number of levels of nesting. -/
def typeExpr : (room : Nat) → Parser TypeExpr
  | 0 => fail .nestingTooDeep
  | room + 1 => do
    let token ← advance
    match token.kind with
    | .primitiveType => return .primitive token.position token.text
    | .identifier => return .named token.position token.text
    | .star =>
      let isConst ← take .constWord
      return .pointer token.position isConst (← typeExpr room)
    | .leftBracket =>
      if ← take .rightBracket then
        let isConst ← take .constWord
        return .slice token.position isConst (← typeExpr room)
      else
        let length ← arrayLength
        discard (expect .rightBracket)
        return .array token.position length (← typeExpr room)
    | .question => return .optional token.position (← typeExpr room)
    | .bang => return .errorUnion token.position (← typeExpr room)
    | _ => failAt token .expectedType

end SystemsLang.Parser
