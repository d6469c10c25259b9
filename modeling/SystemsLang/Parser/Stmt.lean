import SystemsLang.Parser.Expr
import SystemsLang.Syntax.Stmt

/-!
# Parsing statements

A block uses up one level of nesting, and so does every `if`, those behind an `else` included. The
statements of a block all have the room that the block leaves.
-/

namespace SystemsLang.Parser

open Syntax

/-- The declaration of a variable or a constant, from the word that says which of the two. -/
def varDecl (room : Nat) (isPub : Bool) (position : Position) : Parser VarDecl := do
  let first ← expectAny [.constWord, .varWord]
  let name ← ident
  let type ← optionalAfter .colon (typeExpr room)
  let init ← optionalAfter .assign (expr room 0)
  discard (expect .semicolon)
  return ⟨isPub, first.kind == .constWord, name, type, init, position⟩

/-- An expression, unless the next token is of the given kind. -/
def exprUnless (room : Nat) (closing : Token.Kind) : Parser (Option Expr) := do
  if ← nextIs closing then return none else return some (← expr room 0)

/-- A condition between parentheses. -/
def condition (room : Nat) : Parser Expr := do
  discard (expect .leftParen)
  let value ← expr room 0
  discard (expect .rightParen)
  return value

/-- An expression with the semicolon that makes it a statement. -/
def exprStmt (room : Nat) (position : Position) : Parser Stmt := do
  let value ← expr room 0
  discard (expect .semicolon)
  return .expr position value

/-- What stands before the first semicolon in the header of a `for`, semicolon included. -/
def forInit (room : Nat) : Parser (Option Stmt) := do
  let first ← peek
  match first.kind with
  | .semicolon =>
    discard advance
    return none
  | .constWord | .varWord =>
    return some (.declare first.position (← varDecl room false first.position))
  | _ => return some (← exprStmt room first.position)

/-- A `for`, from the word on. The last argument parses its body. -/
def forStmt (room : Nat) (block : Parser Block) : Parser Stmt := do
  let first ← expect .forWord
  discard (expect .leftParen)
  let init ← forInit room
  let test ← exprUnless room .semicolon
  discard (expect .semicolon)
  let step ← exprUnless room .rightParen
  discard (expect .rightParen)
  return .forLoop first.position init test step (← block)

/-- A statement. The arguments parse a block and an `if`, at the level of the statement. -/
def stmtWith (room : Nat) (block : Parser Block) (branch : Parser Stmt) : Parser Stmt := do
  let first ← peek
  match first.kind with
  | .leftBrace => return .block first.position (← block)
  | .returnWord =>
    discard advance
    let value ← exprUnless room .semicolon
    discard (expect .semicolon)
    return .returns first.position value
  | .ifWord => branch
  | .whileWord =>
    discard advance
    let test ← condition room
    return .whileLoop first.position test (← block)
  | .forWord => forStmt room block
  | .breakWord =>
    discard advance
    discard (expect .semicolon)
    return .breakLoop first.position
  | .continueWord =>
    discard advance
    discard (expect .semicolon)
    return .continueLoop first.position
  | .comptimeWord =>
    discard advance
    return .comptime first.position (← block)
  | .constWord | .varWord =>
    return .declare first.position (← varDecl room false first.position)
  | _ => exprStmt room first.position

/-- What stands behind an `else`. The arguments parse a block and an `if`. -/
def afterElse (block : Parser Block) (branch : Parser Stmt) : Parser Stmt := do
  if ← nextIs .ifWord then branch
  else
    let opening ← peek
    return .block opening.position (← block)

mutual

/-- The statements between two braces, with room for the given number of levels of nesting. -/
def block : (room : Nat) → Parser Block
  | 0 => fail .nestingTooDeep
  | room + 1 => do
    discard (expect .leftBrace)
    let body ← manyUntil [.rightBrace] (stmtWith room (block room) (branch room))
    discard (expect .rightBrace)
    return body

/-- An `if` with all that is chained to it. -/
def branch : (room : Nat) → Parser Stmt
  | 0 => fail .nestingTooDeep
  | room + 1 => do
    let first ← expect .ifWord
    let test ← condition room
    let body ← block room
    let last ← optionalAfter .elseWord (afterElse (block room) (branch room))
    return .branch first.position test body last

end

/-- A statement, with room for the given number of levels of nesting. -/
def stmt (room : Nat) : Parser Stmt :=
  stmtWith room (block room) (branch room)

end SystemsLang.Parser
