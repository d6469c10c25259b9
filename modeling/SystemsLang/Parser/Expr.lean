import SystemsLang.Parser.TypeExpr
import SystemsLang.Syntax.Expr

/-!
# Parsing expressions

An expression is an operand followed by operators that extend it. `Parser.expr` is told the least
binding power an operator must have on its left to belong to the expression, so an operand is
extended as far to the right as its context allows. Both the expression and every operator that
extends it use up one level of nesting, because each makes the tree one level higher.
-/

namespace SystemsLang

namespace Syntax

open Token (Kind)

/-- The operator that a token stands for between two operands. -/
def BinaryOp.ofKind? : Kind → Option BinaryOp
  | .plus => some .add
  | .minus => some .sub
  | .star => some .mul
  | .slash => some .div
  | .percent => some .rem
  | .equalEqual => some .equal
  | .bangEqual => some .notEqual
  | .less => some .less
  | .greater => some .greater
  | .lessEqual => some .lessEqual
  | .greaterEqual => some .greaterEqual
  | .ampAmp => some .and
  | .pipePipe => some .or
  | _ => none

/-- The operator that a token stands for before an operand. -/
def UnaryOp.ofKind? : Kind → Option UnaryOp
  | .minus => some .negate
  | .bang => some .not
  | .amp => some .addressOf
  | .tryWord => some .attempt
  | _ => none

/-- The ways in which an operand is extended to its right. -/
inductive Extension
  | binary (operator : BinaryOp)
  | assign (operator : Option BinaryOp)
  | dot
  | call
  | index
deriving DecidableEq

namespace Extension

/-- The extension that a token begins. -/
def ofKind? : Kind → Option Extension
  | .assign => some (assign none)
  | .plusAssign => some (assign (some .add))
  | .minusAssign => some (assign (some .sub))
  | .starAssign => some (assign (some .mul))
  | .slashAssign => some (assign (some .div))
  | .percentAssign => some (assign (some .rem))
  | .dot => some dot
  | .leftParen => some call
  | .leftBracket => some index
  | kind => (BinaryOp.ofKind? kind).map binary

/-- How tightly an extension holds the operand on its left. -/
def leftPower : Extension → Nat
  | binary operator => operator.power.left
  | assign _ => assignPower.left
  | dot | call | index => postfixPower

end Extension

end Syntax

namespace Parser

open Syntax

/-- Whether the tokens behind a name make it the name of a struct literal: an opening brace and
then a dot or the closing brace. -/
def opensStructLit : Parser Bool := do
  let brace ← peek
  let inner ← peekAt 1
  return brace.kind == .leftBrace && (inner.kind == .dot || inner.kind == .rightBrace)

/-- The value of one field in a struct literal. The argument parses the value. -/
def fieldInit (value : Parser Expr) : Parser (Ident × Expr) := do
  discard (expect .dot)
  let name ← ident
  discard (expect .assign)
  return (name, ← value)

/-- The braces of a struct literal with the given name. -/
def structLit (value : Parser Expr) (name : Ident) : Parser Expr := do
  discard (expect .leftBrace)
  let fields ← commaList .rightBrace (fieldInit value)
  discard (expect .rightBrace)
  return .structLit name.position name fields

/-- The length in an array literal, where a single underscore leaves it open. -/
def openLength : Parser (Option UInt64) := do
  let token ← peek
  if token.kind = .identifier ∧ token.text = "_" then
    discard advance
    return none
  else
    return some (← arrayLength)

/-- An array literal behind its opening bracket, which stands at the given position. -/
def arrayLit (value : Parser Expr) (type : Parser TypeExpr) (position : Position) :
    Parser Expr := do
  let length ← openLength
  discard (expect .rightBracket)
  let elementType ← type
  discard (expect .leftBrace)
  let elements ← commaList .rightBrace value
  discard (expect .rightBrace)
  return .arrayLit position length elementType elements

/-- An operand. The arguments parse an expression that binds at least as tightly as a given power,
and a type. Parentheses leave their position to the expression they enclose. -/
def operand (sub : Nat → Parser Expr) (type : Parser TypeExpr) : Parser Expr := do
  let token ← advance
  match token.kind with
  | .identifier =>
    if ← opensStructLit then structLit (sub 0) ⟨token.text, token.position⟩
    else return .ident token.position token.text
  | .number => return .number token.position token.text
  | .string => return .string token.position token.text
  | .trueWord => return .bool token.position true
  | .falseWord => return .bool token.position false
  | .nullWord => return .null token.position
  | .undefinedWord => return .undefined token.position
  | .leftParen =>
    let inner ← sub 0
    discard (expect .rightParen)
    return inner.moveTo token.position
  | .leftBracket => arrayLit (sub 0) type token.position
  | kind =>
    match UnaryOp.ofKind? kind with
    | some operator => return .unary token.position operator (← sub UnaryOp.power)
    | none => failAt token .unexpectedInExpr

/-- What follows a dot: the name of a field, or the mark of a dereference or an unwrapping. -/
def afterDot (left : Expr) : Parser Expr := do
  let token ← advance
  match token.kind with
  | .identifier => return .member left.position left ⟨token.text, token.position⟩
  | .star => return .deref left.position left
  | .question => return .unwrap left.position left
  | _ => failAt token (.expected .identifier)

/-- Extends an operand by the extension that the next token begins. -/
def extend (sub : Nat → Parser Expr) (form : Extension) (left : Expr) : Parser Expr := do
  let token ← advance
  match form with
  | .binary operator =>
    return .binary left.position operator left (← sub operator.power.right)
  | .assign operator =>
    if left.isPlace then
      return .assign left.position operator left (← sub assignPower.right)
    else failAt token .invalidAssignmentTarget
  | .dot => afterDot left
  | .call =>
    let arguments ← commaList .rightParen (sub 0)
    discard (expect .rightParen)
    return .call left.position left arguments
  | .index =>
    let subscript ← sub 0
    discard (expect .rightBracket)
    return .index left.position left subscript

/-- The extension that the next token begins, if it binds at least as tightly as the given
power. -/
def extensionAbove (least : Nat) : Parser (Option Extension) := do
  return (Extension.ofKind? (← peek).kind).filter fun form => least ≤ form.leftPower

mutual

/-- An expression all of whose own operators bind at least as tightly as the given power, with room
for the given number of levels of nesting. -/
def expr : (room : Nat) → (least : Nat) → Parser Expr
  | 0, _ => fail .nestingTooDeep
  | room + 1, least => do
    let first ← operand (expr room) (typeExpr room)
    extensions room least first

/-- Extends an operand as far as the given power allows. -/
def extensions : (room : Nat) → (least : Nat) → (left : Expr) → Parser Expr
  | 0, least, left => do
    match ← extensionAbove least with
    | some _ => fail .nestingTooDeep
    | none => return left
  | room + 1, least, left => do
    match ← extensionAbove least with
    | some form =>
      let extended ← extend (expr room) form left
      extensions room least extended
    | none => return left

end

end Parser

end SystemsLang
