import SystemsLang.Parser.Stmt
import SystemsLang.Syntax.Program
import SystemsLang.Token.Scan

/-!
# Parsing programs

Declarations follow one another up to the end of the input, each with all the room for nesting that
there is. `Program.ofTokens` reads a program from tokens, which need not end in an end marker, and
`Program.ofSource` and `Expr.ofSource` read a program or an expression from a text. Parsing stops at
the first error and gives no tree then.
-/

namespace SystemsLang

namespace Parser

open Syntax

/-- A parameter of a function. -/
def param (room : Nat) : Parser Param := do
  let first ← peek
  let isComptime ← take .comptimeWord
  let name ← ident
  discard (expect .colon)
  return ⟨isComptime, name, ← typeExpr room, first.position⟩

/-- The word that may stand before `fn`, at most one. -/
def fnModifier : Parser (Option FnModifier) := do
  let first ← peek
  match first.kind with
  | .inlineWord =>
    discard advance
    return some .inlined
  | .comptimeWord =>
    discard advance
    return some .comptime
  | _ => return none

/-- A function, from its modifier on. -/
def fnDecl (room : Nat) (isPub : Bool) (position : Position) : Parser FnDecl := do
  let modifier ← fnModifier
  discard (expect .fnWord)
  let name ← ident
  discard (expect .leftParen)
  let params ← commaList .rightParen (param room)
  discard (expect .rightParen)
  let returnType ← typeExpr room
  let body ← block room
  return ⟨isPub, modifier, name, params, returnType, body, position⟩

/-- A field of a struct. -/
def field (room : Nat) : Parser Field := do
  let first ← peek
  let name ← ident
  discard (expect .colon)
  return ⟨name, ← typeExpr room, first.position⟩

/-- A struct, from the word `const` on. -/
def structDecl (room : Nat) (isPub : Bool) (position : Position) : Parser StructDecl := do
  discard (expect .constWord)
  let name ← ident
  discard (expect .assign)
  discard (expect .structWord)
  discard (expect .leftBrace)
  let fields ← commaList .rightBrace (field room)
  discard (expect .rightBrace)
  discard (expect .semicolon)
  return ⟨isPub, name, fields, position⟩

/-- Whether a constant that begins at the next token declares a struct. -/
def opensStruct : Parser Bool := do
  let name ← peekAt 1
  let equals ← peekAt 2
  let word ← peekAt 3
  return name.kind == .identifier && equals.kind == .assign && word.kind == .structWord

/-- A top-level declaration. -/
def decl (room : Nat) : Parser Decl := do
  let first ← peek
  let isPub ← take .pubWord
  match (← peek).kind with
  | .fnWord | .inlineWord | .comptimeWord => return .fn (← fnDecl room isPub first.position)
  | .constWord =>
    if ← opensStruct then return .struct (← structDecl room isPub first.position)
    else return .var (← varDecl room isPub first.position)
  | .varWord => return .var (← varDecl room isPub first.position)
  | _ => fail .expectedDeclaration

/-- All declarations up to the end of the input. -/
def program (room : Nat) : Parser Program :=
  manyUntil [] (decl room)

/-- An expression that the input holds nothing behind. -/
def wholeExpr : Parser Expr := do
  let value ← expr maxDepth 0
  discard (expect .ending)
  return value

/-- The result of a parser on a list of tokens, with the end marker that belongs to the list. -/
def parse {α : Type} (parser : Parser α) (tokens : List Token) : Except ParseError α :=
  (parser.run (Token.endingOf tokens) tokens).map Prod.fst

end Parser

namespace Syntax

/-- The program that a list of tokens spells. -/
def Program.ofTokens (tokens : List Token) : Except ParseError Program :=
  (Parser.program maxDepth).parse tokens

/-- The program that a text spells. -/
def Program.ofSource (source : String) : Except ParseError Program :=
  Program.ofTokens (Token.scan source)

/-- The expression that a text spells. -/
def Expr.ofSource (source : String) : Except ParseError Expr :=
  Parser.wholeExpr.parse (Token.scan source)

end Syntax

end SystemsLang
