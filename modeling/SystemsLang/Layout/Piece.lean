import SystemsLang.Syntax.Program
import SystemsLang.Text.Quoted
import SystemsLang.Token.Kind

/-!
# Pieces of laid-out source

Laid-out source is a sequence of pieces. A piece is one token, a blank between two tokens, or, where
a tree holds a name or a number that no token can spell, that text as it is. What is written for a
type, an expression or the head of a declaration is a list of pieces; its text is the texts of the
pieces in order. So the tokens of a layout can be read off before a single character is scanned.

An expression is put into parentheses where its outermost operator binds less tightly than its place
requires, and only there.
-/

namespace SystemsLang

open Token (Kind)

/-- One token of laid-out source, or a blank. -/
inductive Piece
  | mark (kind : Kind)
  | name (text : String)
  | number (text : String)
  | string (value : String)
  | blank
deriving DecidableEq, Inhabited

namespace Piece

/-- The written form of a piece. A string literal stands between double quotes. -/
def text : Piece → String
  | mark kind => kind.describe
  | name text => text
  | number text => text
  | string value => "\"" ++ Text.escapeString value ++ "\""
  | blank => " "

/-- The written form of pieces in order. -/
def textOf (pieces : List Piece) : String :=
  String.join (pieces.map text)

/-- Pieces with a comma and a blank between each two groups. -/
def commas (groups : List (List Piece)) : List Piece :=
  [mark .comma, blank].intercalate groups

/-- Pieces in parentheses if the power they bind with is less than the one required. -/
def grouped (power required : Nat) (pieces : List Piece) : List Piece :=
  if power < required then mark .leftParen :: pieces ++ [mark .rightParen] else pieces

/-- Groups between braces with blanks at either end, or bare braces if there are none. -/
def braced (groups : List (List Piece)) : List Piece :=
  if groups.isEmpty then [mark .leftBrace, mark .rightBrace]
  else [mark .leftBrace, blank] ++ commas groups ++ [blank, mark .rightBrace]

end Piece

namespace Syntax

open Piece (mark blank textOf commas grouped braced)

namespace TypeExpr

/-- The word that marks a pointer or a slice as read-only. -/
def constMark (isConst : Bool) : List Piece :=
  if isConst then [mark .constWord, blank] else []

/-- The brackets of an array with its length. -/
def lengthMark (length : String) : List Piece :=
  [mark .leftBracket, .number length, mark .rightBracket]

/-- The pieces of a type. -/
def pieces : TypeExpr → List Piece
  | primitive _ text | named _ text => [.name text]
  | pointer _ isConst pointee => mark .star :: constMark isConst ++ pointee.pieces
  | array _ length element => lengthMark (toString length.toNat) ++ element.pieces
  | slice _ isConst element =>
    [mark .leftBracket, mark .rightBracket] ++ constMark isConst ++ element.pieces
  | optional _ inner => mark .question :: inner.pieces
  | errorUnion _ inner => mark .bang :: inner.pieces

/-- The written form of a type. -/
def text (type : TypeExpr) : String :=
  textOf type.pieces

end TypeExpr

/-- The token that spells a binary operator. -/
def BinaryOp.kind : BinaryOp → Kind
  | add => .plus
  | sub => .minus
  | mul => .star
  | div => .slash
  | rem => .percent
  | equal => .equalEqual
  | notEqual => .bangEqual
  | less => .less
  | greater => .greater
  | lessEqual => .lessEqual
  | greaterEqual => .greaterEqual
  | and => .ampAmp
  | or => .pipePipe

/-- The tokens that spell an assignment. An arithmetic operator makes one token with the equals
sign; any other operator, which the grammar does not put there, is written before it. -/
def assignMark : Option BinaryOp → List Piece
  | none => [mark .assign]
  | some .add => [mark .plusAssign]
  | some .sub => [mark .minusAssign]
  | some .mul => [mark .starAssign]
  | some .div => [mark .slashAssign]
  | some .rem => [mark .percentAssign]
  | some other => [mark other.kind, mark .assign]

/-- What a prefix operator needs behind it so that it does not run into its operand: the word is
set off by a blank, and so is one address mark from another. -/
def UnaryOp.pieces (operator : UnaryOp) (operand : Expr) : List Piece :=
  match operator, operand with
  | attempt, _ => [mark .tryWord, blank]
  | addressOf, .unary _ addressOf _ => [mark .amp, blank]
  | addressOf, _ => [mark .amp]
  | negate, _ => [mark .minus]
  | not, _ => [mark .bang]

namespace Expr

/-- How tightly the outermost operator of an expression binds. Expressions without an operator
before or between operands bind like those behind an operand. -/
def power : Expr → Nat
  | binary _ operator _ _ => operator.power.left
  | unary .. => UnaryOp.power
  | assign .. => assignPower.left
  | _ => postfixPower

mutual

/-- The pieces of an expression, without parentheses around the whole. -/
def pieces : Expr → List Piece
  | number _ text => [.number text]
  | string _ value => [.string value]
  | bool _ value => [mark (if value then .trueWord else .falseWord)]
  | null _ => [mark .nullWord]
  | undefined _ => [mark .undefinedWord]
  | ident _ text => [.name text]
  | binary _ operator left right =>
    grouped left.power operator.power.left left.pieces ++
      [blank, mark operator.kind, blank] ++
      grouped right.power operator.power.right right.pieces
  | unary _ operator operand =>
    operator.pieces operand ++ grouped operand.power UnaryOp.power operand.pieces
  | call _ callee arguments =>
    grouped callee.power postfixPower callee.pieces ++ [mark .leftParen] ++
      commas (piecesOfAll arguments) ++ [mark .rightParen]
  | member _ object field =>
    grouped object.power postfixPower object.pieces ++ [mark .dot, .name field.name]
  | index _ object subscript =>
    grouped object.power postfixPower object.pieces ++ [mark .leftBracket] ++
      subscript.pieces ++ [mark .rightBracket]
  | deref _ object =>
    grouped object.power postfixPower object.pieces ++ [mark .dot, mark .star]
  | unwrap _ object =>
    grouped object.power postfixPower object.pieces ++ [mark .dot, mark .question]
  | assign _ operator target value =>
    grouped target.power assignPower.left target.pieces ++ [blank] ++ assignMark operator ++
      [blank] ++ grouped value.power assignPower.right value.pieces
  | structLit _ name fields => .name name.name :: braced (piecesOfFields fields)
  | arrayLit _ length elementType elements =>
    (match length with
      | some length => TypeExpr.lengthMark (toString length.toNat)
      | none => [mark .leftBracket, .name "_", mark .rightBracket]) ++
      elementType.pieces ++ braced (piecesOfAll elements)

/-- The pieces of each of several expressions. -/
def piecesOfAll : List Expr → List (List Piece)
  | [] => []
  | first :: rest => first.pieces :: piecesOfAll rest

/-- The pieces of each of several fields with their values. -/
def piecesOfFields : List (Ident × Expr) → List (List Piece)
  | [] => []
  | (name, value) :: rest =>
    ([mark .dot, .name name.name, blank, mark .assign, blank] ++ value.pieces) ::
      piecesOfFields rest

end

end Expr

/-- The word that makes a declaration visible elsewhere. -/
def pubMark (isPub : Bool) : List Piece :=
  if isPub then [mark .pubWord, blank] else []

namespace VarDecl

/-- A variable up to its type. -/
def headPieces (declared : VarDecl) : List Piece :=
  pubMark declared.isPub ++
    [mark (if declared.isConst then .constWord else .varWord), blank, .name declared.name.name] ++
    (match declared.type with
      | some type => [mark .colon, blank] ++ type.pieces
      | none => [])

/-- A variable up to its semicolon, which is left out. -/
def pieces (declared : VarDecl) : List Piece :=
  declared.headPieces ++
    match declared.init with
    | some init => [blank, mark .assign, blank] ++ init.pieces
    | none => []

end VarDecl

namespace FnModifier

/-- The word of a modifier. -/
def pieces : FnModifier → List Piece
  | inlined => [mark .inlineWord, blank]
  | comptime => [mark .comptimeWord, blank]

end FnModifier

/-- A name with its type. -/
def typedName (name : Ident) (type : TypeExpr) : List Piece :=
  [.name name.name, mark .colon, blank] ++ type.pieces

/-- A parameter. -/
def Param.pieces (param : Param) : List Piece :=
  (if param.isComptime then [mark .comptimeWord, blank] else []) ++
    typedName param.name param.type

/-- A function up to its body. -/
def FnDecl.headPieces (declared : FnDecl) : List Piece :=
  pubMark declared.isPub ++ (declared.modifier.map FnModifier.pieces).getD [] ++
    [mark .fnWord, blank, .name declared.name.name, mark .leftParen] ++
    commas (declared.params.map Param.pieces) ++ [mark .rightParen, blank] ++
    declared.returnType.pieces

end Syntax

end SystemsLang
