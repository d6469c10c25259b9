import SystemsLang.Parser.Program

/-!
# Walking along the tokens

A parser is told how much room there is for nesting and takes tokens from the front of a list. Here
the same grammar is parsed by a machine that walks along the list and keeps what changes on the way:
its place, and the number of levels around it. A construct that nests enters a level, and behind it
the number is set back to what it was; each operator that extends an operand enters a level as well,
and all of these are given back at once behind the last. After an error nothing is given back.

Nothing bounds such a machine by itself. So the calls inside of one another are counted, and the
rounds of every loop: a machine that calls itself too deep, or goes round a loop more often than
there are tokens, is cut off. That is an outcome of its own, neither a value nor an error.

The machine takes the same single tokens as the parsers and asks the same questions about those
ahead (`Walk.read`); what it does by itself is to nest, to repeat, and to choose between constructs.
-/

namespace SystemsLang

open Token (Kind)
open Syntax

namespace Walk

/-- Where a machine stands: how many tokens are behind it, how many levels are around it, and how
many levels have been around it at most. -/
structure Standing where
  place : Nat
  depth : Nat
  deepest : Nat
  reached : depth ≤ deepest

namespace Standing

/-- A machine that starts at a place, with some levels around it. -/
def starting (place depth : Nat) : Standing :=
  ⟨place, depth, depth, Nat.le_refl depth⟩

/-- Going to a place changes no level. -/
def atPlace (place : Nat) (standing : Standing) : Standing :=
  { standing with place }

/-- The number of levels is never changed without a record of the most there have been. -/
def atDepth (depth : Nat) (standing : Standing) : Standing :=
  ⟨standing.place, depth, max standing.deepest depth, Nat.le_max_right standing.deepest depth⟩

end Standing

/-- How a walk ends: with a value, with an error, or cut off. -/
inductive Outcome (α : Type) where
  | returned (value : α) (standing : Standing)
  | failed (error : ParseError) (standing : Standing)
  | cut

namespace Outcome

variable {α : Type}

/-- Where a walk ended that was not cut off. -/
def standing? : Outcome α → Option Standing
  | returned _ standing | failed _ standing => some standing
  | cut => none

/-- What a walk that was not cut off made of the tokens, with those that it left. -/
def parsed? (tokens : List Token) : Outcome α → Option (Except ParseError (α × List Token))
  | returned value standing => some (.ok (value, tokens.drop standing.place))
  | failed error _ => some (.error error)
  | cut => none

end Outcome

end Walk

/-- A computation that walks along a list of tokens. -/
def Walk (α : Type) : Type :=
  List Token → Walk.Standing → Walk.Outcome α

namespace Walk

variable {α β : Type}

/-- How a walk along the given tokens ends that starts from where a machine stands. -/
def run (walk : Walk α) (tokens : List Token) (standing : Standing) : Outcome α :=
  walk tokens standing

instance : Monad Walk where
  pure value := fun _ standing => .returned value standing
  bind first second := fun tokens standing =>
    match first.run tokens standing with
    | .returned value after => (second value).run tokens after
    | .failed error last => .failed error last
    | .cut => .cut

/-- Of two walks in sequence, the second starts from where the first ends. -/
theorem run_bind (first : Walk α) (second : α → Walk β) (tokens : List Token)
    (standing : Standing) :
    (first >>= second).run tokens standing =
      match first.run tokens standing with
      | .returned value after => (second value).run tokens after
      | .failed error last => .failed error last
      | .cut => .cut := rfl

/-- A walk that has been going on for too long. -/
def cut : Walk α :=
  fun _ _ => .cut

/-- Does what a parser does with the tokens ahead. -/
def read (parser : Parser α) : Walk α := fun tokens standing =>
  match parser.run (Token.endingOf tokens) (tokens.drop standing.place) with
  | .ok (value, rest) => .returned value (standing.atPlace (tokens.length - rest.length))
  | .error error => .failed error standing

/-- The number of all tokens. -/
def tokenCount : Walk Nat :=
  fun tokens standing => .returned tokens.length standing

/-- The number of levels around. -/
def depth : Walk Nat :=
  fun _ standing => .returned standing.depth standing

/-- Sets the number of levels around. -/
def setDepth (depth : Nat) : Walk Unit :=
  fun _ standing => .returned () (standing.atDepth depth)

/-- Enters a level if there is room for it, and tells how many there were before. -/
def enter : Walk Nat := do
  let outer ← depth
  if outer < maxDepth then
    setDepth (outer + 1)
    return outer
  else read (.fail .nestingTooDeep)

/-- A construct that nests, and gives its level back. -/
def inLevel (body : Walk α) : Walk α := do
  let outer ← enter
  let value ← body
  setDepth outer
  return value

/-- Repeats an item in fewer rounds than the given number. -/
def manyWithin (closing : List Kind) (item : Walk α) : (rounds : Nat) → Walk (List α)
  | 0 => cut
  | rounds + 1 => do
    let seen ← read .peek
    if seen.kind = .ending ∨ seen.kind ∈ closing then return []
    else
      let first ← item
      return first :: (← manyWithin closing item rounds)

/-- Repeats an item while the next token neither ends the input nor is of one of the given kinds. -/
def manyUntil (closing : List Kind) (item : Walk α) : Walk (List α) := do
  manyWithin closing item ((← tokenCount) + 1)

/-- Items with commas between them, up to a token of the given kind. -/
def commaList (closing : Kind) (item : Walk α) : Walk (List α) :=
  manyUntil [closing] do
    let value ← item
    read (.separator closing)
    return value

/-- What a token of the given kind announces, if that is the next token. -/
def optionalAfter (kind : Kind) (item : Walk α) : Walk (Option α) := do
  if ← read (.take kind) then return some (← item) else return none

/-- A type expression. -/
def typeExpr : (calls : Nat) → Walk TypeExpr
  | 0 => cut
  | calls + 1 => inLevel do
    let token ← read .advance
    match token.kind with
    | .primitiveType => return .primitive token.position token.text
    | .identifier => return .named token.position token.text
    | .star =>
      let isConst ← read (.take .constWord)
      return .pointer token.position isConst (← typeExpr calls)
    | .leftBracket =>
      if ← read (.take .rightBracket) then
        let isConst ← read (.take .constWord)
        return .slice token.position isConst (← typeExpr calls)
      else
        let length ← read Parser.arrayLength
        read (discard (.expect .rightBracket))
        return .array token.position length (← typeExpr calls)
    | .question => return .optional token.position (← typeExpr calls)
    | .bang => return .errorUnion token.position (← typeExpr calls)
    | _ => read (.failAt token .expectedType)

/-- The value of one field in a struct literal. -/
def fieldInit (value : Walk Expr) : Walk (Ident × Expr) := do
  read (discard (.expect .dot))
  let name ← read Parser.ident
  read (discard (.expect .assign))
  return (name, ← value)

/-- The braces of a struct literal with the given name. -/
def structLit (value : Walk Expr) (name : Ident) : Walk Expr := do
  read (discard (.expect .leftBrace))
  let fields ← commaList .rightBrace (fieldInit value)
  read (discard (.expect .rightBrace))
  return .structLit name.position name fields

/-- An array literal behind its opening bracket. -/
def arrayLit (value : Walk Expr) (type : Walk TypeExpr) (position : Position) : Walk Expr := do
  let length ← read Parser.openLength
  read (discard (.expect .rightBracket))
  let elementType ← type
  read (discard (.expect .leftBrace))
  let elements ← commaList .rightBrace value
  read (discard (.expect .rightBrace))
  return .arrayLit position length elementType elements

/-- An operand. -/
def operand (sub : Nat → Walk Expr) (type : Walk TypeExpr) : Walk Expr := do
  let token ← read .advance
  match token.kind with
  | .identifier =>
    if ← read Parser.opensStructLit then structLit (sub 0) ⟨token.text, token.position⟩
    else return .ident token.position token.text
  | .number => return .number token.position token.text
  | .string => return .string token.position token.text
  | .trueWord => return .bool token.position true
  | .falseWord => return .bool token.position false
  | .nullWord => return .null token.position
  | .undefinedWord => return .undefined token.position
  | .leftParen =>
    let inner ← sub 0
    read (discard (.expect .rightParen))
    return inner.moveTo token.position
  | .leftBracket => arrayLit (sub 0) type token.position
  | kind =>
    match UnaryOp.ofKind? kind with
    | some operator => return .unary token.position operator (← sub UnaryOp.power)
    | none => read (.failAt token .unexpectedInExpr)

/-- Extends an operand by the extension that the next token begins. -/
def extend (sub : Nat → Walk Expr) (form : Extension) (left : Expr) : Walk Expr := do
  let token ← read .advance
  match form with
  | .binary operator =>
    return .binary left.position operator left (← sub operator.power.right)
  | .assign operator =>
    if left.isPlace then
      return .assign left.position operator left (← sub assignPower.right)
    else read (.failAt token .invalidAssignmentTarget)
  | .dot => read (Parser.afterDot left)
  | .call =>
    let arguments ← commaList .rightParen (sub 0)
    read (discard (.expect .rightParen))
    return .call left.position left arguments
  | .index =>
    let subscript ← sub 0
    read (discard (.expect .rightBracket))
    return .index left.position left subscript

/-- Extends an operand in fewer rounds than the given number. Behind the last extension all levels
are given back that have been entered since there were the given number. -/
def extendWithin (sub : Nat → Walk Expr) (least outer : Nat) :
    (rounds : Nat) → (left : Expr) → Walk Expr
  | 0, _ => cut
  | rounds + 1, left => do
    match ← read (Parser.extensionAbove least) with
    | some form =>
      let _ ← enter
      let extended ← extend sub form left
      extendWithin sub least outer rounds extended
    | none =>
      setDepth outer
      return left

/-- Extends an operand as far as the given power allows. -/
def extensions (sub : Nat → Walk Expr) (least outer : Nat) (left : Expr) : Walk Expr := do
  extendWithin sub least outer ((← tokenCount) + 1) left

/-- An expression all of whose own operators bind at least as tightly as the given power. -/
def expr : (calls : Nat) → (least : Nat) → Walk Expr
  | 0, _ => cut
  | calls + 1, least => do
    let outer ← enter
    let first ← operand (expr calls) (typeExpr calls)
    extensions (expr calls) least outer first

/-- The declaration of a variable or a constant. -/
def varDecl (calls : Nat) (isPub : Bool) (position : Position) : Walk VarDecl := do
  let first ← read (.expectAny [.constWord, .varWord])
  let name ← read Parser.ident
  let type ← optionalAfter .colon (typeExpr calls)
  let init ← optionalAfter .assign (expr calls 0)
  read (discard (.expect .semicolon))
  return ⟨isPub, first.kind == .constWord, name, type, init, position⟩

/-- An expression, unless the next token is of the given kind. -/
def exprUnless (calls : Nat) (closing : Kind) : Walk (Option Expr) := do
  if ← read (.nextIs closing) then return none else return some (← expr calls 0)

/-- A condition between parentheses. -/
def condition (calls : Nat) : Walk Expr := do
  read (discard (.expect .leftParen))
  let value ← expr calls 0
  read (discard (.expect .rightParen))
  return value

/-- An expression with the semicolon that makes it a statement. -/
def exprStmt (calls : Nat) (position : Position) : Walk Stmt := do
  let value ← expr calls 0
  read (discard (.expect .semicolon))
  return .expr position value

/-- What stands before the first semicolon in the header of a `for`, semicolon included. -/
def forInit (calls : Nat) : Walk (Option Stmt) := do
  let first ← read .peek
  match first.kind with
  | .semicolon =>
    read (discard .advance)
    return none
  | .constWord | .varWord =>
    return some (.declare first.position (← varDecl calls false first.position))
  | _ => return some (← exprStmt calls first.position)

/-- A `for`, from the word on. -/
def forStmt (calls : Nat) (block : Walk Block) : Walk Stmt := do
  let first ← read (.expect .forWord)
  read (discard (.expect .leftParen))
  let init ← forInit calls
  let test ← exprUnless calls .semicolon
  read (discard (.expect .semicolon))
  let step ← exprUnless calls .rightParen
  read (discard (.expect .rightParen))
  return .forLoop first.position init test step (← block)

/-- A statement. -/
def stmtWith (calls : Nat) (block : Walk Block) (branch : Walk Stmt) : Walk Stmt := do
  let first ← read .peek
  match first.kind with
  | .leftBrace => return .block first.position (← block)
  | .returnWord =>
    read (discard .advance)
    let value ← exprUnless calls .semicolon
    read (discard (.expect .semicolon))
    return .returns first.position value
  | .ifWord => branch
  | .whileWord =>
    read (discard .advance)
    let test ← condition calls
    return .whileLoop first.position test (← block)
  | .forWord => forStmt calls block
  | .breakWord =>
    read (discard .advance)
    read (discard (.expect .semicolon))
    return .breakLoop first.position
  | .continueWord =>
    read (discard .advance)
    read (discard (.expect .semicolon))
    return .continueLoop first.position
  | .comptimeWord =>
    read (discard .advance)
    return .comptime first.position (← block)
  | .constWord | .varWord =>
    return .declare first.position (← varDecl calls false first.position)
  | _ => exprStmt calls first.position

/-- What stands behind an `else`. -/
def afterElse (block : Walk Block) (branch : Walk Stmt) : Walk Stmt := do
  if ← read (.nextIs .ifWord) then branch
  else
    let opening ← read .peek
    return .block opening.position (← block)

mutual

/-- The statements between two braces. -/
def block : (calls : Nat) → Walk Block
  | 0 => cut
  | calls + 1 => inLevel do
    read (discard (.expect .leftBrace))
    let body ← manyUntil [.rightBrace] (stmtWith calls (block calls) (branch calls))
    read (discard (.expect .rightBrace))
    return body

/-- An `if` with all that is chained to it. -/
def branch : (calls : Nat) → Walk Stmt
  | 0 => cut
  | calls + 1 => inLevel do
    let first ← read (.expect .ifWord)
    let test ← condition calls
    let body ← block calls
    let last ← optionalAfter .elseWord (afterElse (block calls) (branch calls))
    return .branch first.position test body last

end

/-- A statement with what it contains. -/
def stmt (calls : Nat) : Walk Stmt :=
  stmtWith calls (block calls) (branch calls)

/-- A parameter of a function. -/
def param (calls : Nat) : Walk Param := do
  let first ← read .peek
  let isComptime ← read (.take .comptimeWord)
  let name ← read Parser.ident
  read (discard (.expect .colon))
  return ⟨isComptime, name, ← typeExpr calls, first.position⟩

/-- A function, from its modifier on. -/
def fnDecl (calls : Nat) (isPub : Bool) (position : Position) : Walk FnDecl := do
  let modifier ← read Parser.fnModifier
  read (discard (.expect .fnWord))
  let name ← read Parser.ident
  read (discard (.expect .leftParen))
  let params ← commaList .rightParen (param calls)
  read (discard (.expect .rightParen))
  let returnType ← typeExpr calls
  let body ← block calls
  return ⟨isPub, modifier, name, params, returnType, body, position⟩

/-- A field of a struct. -/
def field (calls : Nat) : Walk Field := do
  let first ← read .peek
  let name ← read Parser.ident
  read (discard (.expect .colon))
  return ⟨name, ← typeExpr calls, first.position⟩

/-- A struct, from the word `const` on. -/
def structDecl (calls : Nat) (isPub : Bool) (position : Position) : Walk StructDecl := do
  read (discard (.expect .constWord))
  let name ← read Parser.ident
  read (discard (.expect .assign))
  read (discard (.expect .structWord))
  read (discard (.expect .leftBrace))
  let fields ← commaList .rightBrace (field calls)
  read (discard (.expect .rightBrace))
  read (discard (.expect .semicolon))
  return ⟨isPub, name, fields, position⟩

/-- A top-level declaration. -/
def decl (calls : Nat) : Walk Decl := do
  let first ← read .peek
  let isPub ← read (.take .pubWord)
  match (← read .peek).kind with
  | .fnWord | .inlineWord | .comptimeWord => return .fn (← fnDecl calls isPub first.position)
  | .constWord =>
    if ← read Parser.opensStruct then return .struct (← structDecl calls isPub first.position)
    else return .var (← varDecl calls isPub first.position)
  | .varWord => return .var (← varDecl calls isPub first.position)
  | _ => read (.fail .expectedDeclaration)

end Walk

end SystemsLang
