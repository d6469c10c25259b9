import SystemsLang.Proofs.Layout.Unplaced
import SystemsLang.Proofs.Parsing.Extensions

/-!
# How deep a layout nests

The parser gives the levels that the operators of an expression took back at a closing parenthesis,
so how deep a text nests depends on its parentheses. A layout has only the parentheses that the
tree needs. The measures here say of a tree how many levels its layout takes; they follow the rules
of the grammar, with a level more for each operand that is put into parentheses.
-/

namespace SystemsLang.Syntax

open Grammar

/-- The levels that the layout of a type takes. -/
def TypeExpr.levels : TypeExpr → Nat
  | primitive .. | named .. => 1
  | pointer _ _ inner | array _ _ inner | slice _ _ inner | optional _ inner
  | errorUnion _ inner => inner.levels + 1

namespace Expr

/-- The row of the table of precedence that an expression stands in without parentheses. -/
def row : Expr → Nat
  | binary _ operator _ _ => operatorRow operator
  | unary .. => prefixRow
  | assign .. => 0
  | _ => postfixRow

/-- The power of an expression is that of its row. -/
theorem power_eq (value : Expr) : value.power = Parser.rowPower value.row := by
  cases value with
  | binary _ operator _ _ => cases operator <;> rfl
  | _ => rfl

/-- How many operators the layout of an expression has behind its first operand, outside of
brackets. An operand in parentheses has none. -/
def chain : Expr → Nat
  | binary _ operator left _ =>
    (if left.power < operator.power.left then 0 else left.chain) + 1
  | call _ left _ | member _ left _ | index _ left _ | deref _ left | unwrap _ left =>
    (if left.power < postfixPower then 0 else left.chain) + 1
  | assign _ _ target _ => (if target.power < postfixPower then 0 else target.chain) + 1
  | _ => 0

/-- The chain of an operand, which is cut by the parentheses around it. -/
def chainIn (required : Nat) (value : Expr) : Nat :=
  if value.power < required then 0 else value.chain

mutual

/-- The levels that the layout of an expression takes. -/
def levels : Expr → Nat
  | number .. | string .. | bool .. | null _ | undefined _ | ident .. => 1
  | binary _ operator left right =>
    max (if left.power < operator.power.left then left.levels + 1 else left.levels)
      (left.chainIn operator.power.left + 2 +
        (if right.power < operator.power.right then right.levels + 1 else right.levels))
  | unary _ _ operand =>
    (if operand.power < UnaryOp.power then operand.levels + 1 else operand.levels) + 1
  | call _ callee arguments =>
    max (if callee.power < postfixPower then callee.levels + 1 else callee.levels)
      (callee.chainIn postfixPower + 2 + levelsAll arguments)
  | index _ object subscript =>
    max (if object.power < postfixPower then object.levels + 1 else object.levels)
      (object.chainIn postfixPower + 2 + subscript.levels)
  | member _ object _ | deref _ object | unwrap _ object =>
    max (if object.power < postfixPower then object.levels + 1 else object.levels)
      (object.chainIn postfixPower + 2)
  | assign _ _ target value =>
    max (if target.power < postfixPower then target.levels + 1 else target.levels)
      (target.chainIn postfixPower + 2 + value.levels)
  | structLit _ _ fields => levelsFields fields + 1
  | arrayLit _ _ elementType elements => max elementType.levels (levelsAll elements) + 1

/-- The levels that the layout of several expressions takes, which is the most that one takes. -/
def levelsAll : List Expr → Nat
  | [] => 0
  | first :: rest => max first.levels (levelsAll rest)

/-- The levels that the layout of several named expressions takes. -/
def levelsFields : List (Ident × Expr) → Nat
  | [] => 0
  | (_, value) :: rest => max value.levels (levelsFields rest)

end

/-- The levels of an operand, with one more for the parentheses around it. -/
def levelsIn (required : Nat) (value : Expr) : Nat :=
  if value.power < required then value.levels + 1 else value.levels

end Expr

/-- The levels that the layout of a variable takes. -/
def VarDecl.levels (declared : VarDecl) : Nat :=
  max ((declared.type.map TypeExpr.levels).getD 0) ((declared.init.map Expr.levels).getD 0)

/-- The levels that the layout of the first part in the header of a `for` takes. -/
def Stmt.startLevels : Option Stmt → Nat
  | some (.declare _ declared) => declared.levels
  | some (.expr _ value) => value.levels
  | _ => 0

namespace Stmt

mutual

/-- The levels that the layout of a statement takes. -/
def levels : Stmt → Nat
  | block _ body | comptime _ body => levelsAll body + 1
  | returns _ value => (value.map Expr.levels).getD 0
  | branch _ condition body otherwise =>
    max condition.levels (max (levelsAll body + 1) (elseLevels otherwise)) + 1
  | whileLoop _ condition body => max condition.levels (levelsAll body + 1)
  | forLoop _ init condition step body =>
    max (startLevels init) (max ((condition.map Expr.levels).getD 0)
      (max ((step.map Expr.levels).getD 0) (levelsAll body + 1)))
  | breakLoop _ | continueLoop _ => 0
  | expr _ value => value.levels
  | declare _ declared => declared.levels

/-- The levels that the layout of the statements of a block takes. -/
def levelsAll : List Stmt → Nat
  | [] => 0
  | first :: rest => max first.levels (levelsAll rest)

/-- The levels that the layout of what stands behind `else` takes. -/
def elseLevels : Option Stmt → Nat
  | none => 0
  | some statement => statement.levels

end

end Stmt

/-- The levels that the layout of a declaration takes. -/
def Decl.levels : Decl → Nat
  | fn declared =>
    max ((declared.params.map fun param => param.type.levels).foldr max 0)
      (max declared.returnType.levels (Stmt.levelsAll declared.body + 1))
  | var declared => declared.levels
  | struct declared => (declared.fields.map fun field => field.type.levels).foldr max 0

/-- The levels that the layout of a program takes, which is the most that one declaration takes. -/
def Program.levels (program : Program) : Nat :=
  (program.map Decl.levels).foldr max 0

end SystemsLang.Syntax
