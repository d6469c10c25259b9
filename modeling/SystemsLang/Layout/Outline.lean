import SystemsLang.Layout.Piece
import SystemsLang.Text.Line

/-!
# Outlines of trees

An outline shows a tree as indented lines, one node to a line with its children below it, two spaces
deeper. Most lines end in the position of their node in parentheses. An expression statement and a
variable statement show as the expression or the variable alone.
-/

namespace SystemsLang.Layout

open Syntax

namespace Outline

/-- The line of a node with its position behind it. -/
def node (level : Nat) (text : String) (position : Position) : Text.Line :=
  ⟨level, text ++ " (" ++ position.text ++ ")"⟩

mutual

/-- The outline of an expression. -/
def expr (level : Nat) : Expr → List Text.Line
  | .number position text => [node level ("number " ++ text) position]
  | .string position value =>
    [node level ("string " ++ (Piece.string value).text) position]
  | .bool position value => [node level ("bool " ++ if value then "true" else "false") position]
  | .null position => [node level "null" position]
  | .undefined position => [node level "undefined" position]
  | .ident position name => [node level ("ident " ++ name) position]
  | .binary position operator left right =>
    node level ("binary " ++ operator.name) position ::
      expr (level + 1) left ++ expr (level + 1) right
  | .unary position operator operand =>
    node level ("unary " ++ operator.name) position :: expr (level + 1) operand
  | .call position callee arguments =>
    node level "call" position :: expr (level + 1) callee ++
      if arguments.isEmpty then []
      else ⟨level + 1, "arguments"⟩ :: exprs (level + 2) arguments
  | .member position object field =>
    node level ("member " ++ field.name) position :: expr (level + 1) object
  | .index position object subscript =>
    node level "index" position :: expr (level + 1) object ++ expr (level + 1) subscript
  | .deref position object => node level "deref" position :: expr (level + 1) object
  | .unwrap position object => node level "unwrap" position :: expr (level + 1) object
  | .assign position operator target value =>
    node level ("assign " ++ (operator.map BinaryOp.symbol).getD "" ++ "=") position ::
      expr (level + 1) target ++ expr (level + 1) value
  | .structLit position name values =>
    node level ("struct literal " ++ name.name) position :: fields (level + 1) values
  | .arrayLit position length elementType elements =>
    let shown := match length with
      | some length => toString length.toNat
      | none => "_"
    node level ("array literal [" ++ shown ++ "]" ++ elementType.text) position ::
      exprs (level + 1) elements

/-- The outlines of several expressions. -/
def exprs (level : Nat) : List Expr → List Text.Line
  | [] => []
  | first :: rest => expr level first ++ exprs level rest

/-- The outlines of the fields of a struct literal. -/
def fields (level : Nat) : List (Ident × Expr) → List Text.Line
  | [] => []
  | (name, value) :: rest =>
    ⟨level, "field " ++ name.name⟩ :: expr (level + 1) value ++ fields level rest

end

/-- A label with the outline of an expression below it, if there is one. -/
def labelled (level : Nat) (label : String) : Option Expr → List Text.Line
  | some value => ⟨level, label⟩ :: expr (level + 1) value
  | none => []

/-- The outline of an optional expression. -/
def optional (level : Nat) : Option Expr → List Text.Line
  | some value => expr level value
  | none => []

/-- The outline of a variable. -/
def var (level : Nat) (declared : VarDecl) : List Text.Line :=
  node level (Piece.textOf declared.headPieces) declared.position ::
    optional (level + 1) declared.init

mutual

/-- The outline of a statement. -/
def stmt (level : Nat) : Stmt → List Text.Line
  | .block position body => node level "block" position :: stmts (level + 1) body
  | .returns position value => node level "return" position :: optional (level + 1) value
  | .branch position condition body otherwise =>
    node level "if" position :: expr (level + 1) condition ++ stmts (level + 1) body ++
      labelledStmt level "else" otherwise
  | .whileLoop position condition body =>
    node level "while" position :: expr (level + 1) condition ++ stmts (level + 1) body
  | .forLoop position init condition step body =>
    node level "for" position :: labelledStmt (level + 1) "init" init ++
      labelled (level + 1) "cond" condition ++ labelled (level + 1) "step" step ++
      stmts (level + 1) body
  | .breakLoop position => [node level "break" position]
  | .continueLoop position => [node level "continue" position]
  | .expr _ value => expr level value
  | .comptime position body => node level "comptime" position :: stmts (level + 1) body
  | .declare _ declared => var level declared

/-- A label with the outline of a statement below it, if there is one. -/
def labelledStmt (level : Nat) (label : String) : Option Stmt → List Text.Line
  | some inner => ⟨level, label⟩ :: stmt (level + 1) inner
  | none => []

/-- The outlines of several statements. -/
def stmts (level : Nat) : List Stmt → List Text.Line
  | [] => []
  | first :: rest => stmt level first ++ stmts level rest

end

/-- The outline of a top-level declaration. -/
def decl : Decl → List Text.Line
  | .fn declared =>
    node 0 (Piece.textOf declared.headPieces) declared.position :: stmts 1 declared.body
  | .var declared => var 0 declared
  | .struct declared =>
    node 0 (Piece.textOf (pubMark declared.isPub) ++ "struct " ++ declared.name.name)
        declared.position ::
      declared.fields.map fun field =>
        ⟨1, "field " ++ Piece.textOf (typedName field.name field.type)⟩

/-- The unit by which outlines are indented. -/
def unit : String := "  "

end Outline

end SystemsLang.Layout

namespace SystemsLang.Syntax

open Layout

/-- The text of an expression's outline, indented to the given level. -/
def Expr.outline (expression : Expr) (level : Nat) : String :=
  Text.Line.renderAll Outline.unit (Outline.expr level expression)

/-- The text of a program's outline. -/
def Program.outline (program : Program) : String :=
  Text.Line.renderAll Outline.unit (program.flatMap Outline.decl)

end SystemsLang.Syntax
