import SystemsLang.Syntax.Ident
import SystemsLang.Syntax.Operator
import SystemsLang.Syntax.TypeExpr

/-!
# Expressions

The tree of an expression. Grouping parentheses have no node of their own; they show only in the
shape of the tree and in the position of the node that they enclose. A literal keeps its text as it
was written, except that a string literal is kept decoded.

Equality of trees is equality of everything in them, positions included. It is decided by
`Expr.same`, a structural comparison (`Expr.same_iff`).
-/

namespace SystemsLang.Syntax

/-- An expression. Every node holds the position of its first token, and that of an operator or
postfix node is the position of its left operand. -/
inductive Expr
  | number (position : Position) (text : String)
  | string (position : Position) (text : String)
  | bool (position : Position) (value : Bool)
  | null (position : Position)
  | undefined (position : Position)
  | ident (position : Position) (name : String)
  | binary (position : Position) (operator : BinaryOp) (left right : Expr)
  | unary (position : Position) (operator : UnaryOp) (operand : Expr)
  | call (position : Position) (callee : Expr) (arguments : List Expr)
  | member (position : Position) (object : Expr) (field : Ident)
  | index (position : Position) (object subscript : Expr)
  | deref (position : Position) (object : Expr)
  | unwrap (position : Position) (object : Expr)
  | assign (position : Position) (operator : Option BinaryOp) (target value : Expr)
  | structLit (position : Position) (name : Ident) (fields : List (Ident × Expr))
  | arrayLit (position : Position) (length : Option UInt64) (elementType : TypeExpr)
      (elements : List Expr)
deriving Inhabited

namespace Expr

/-- The position of an expression. -/
def position : Expr → Position
  | number position _ | string position _ | bool position _ | null position | undefined position
  | ident position _ | binary position _ _ _ | unary position _ _ | call position _ _
  | member position _ _ | index position _ _ | deref position _ | unwrap position _
  | assign position _ _ _ | structLit position _ _ | arrayLit position _ _ _ => position

/-- The same expression at another position; what stands below it does not move. -/
def moveTo (position : Position) : Expr → Expr
  | number _ text => number position text
  | string _ text => string position text
  | bool _ value => bool position value
  | null _ => null position
  | undefined _ => undefined position
  | ident _ name => ident position name
  | binary _ operator left right => binary position operator left right
  | unary _ operator operand => unary position operator operand
  | call _ callee arguments => call position callee arguments
  | member _ object field => member position object field
  | index _ object subscript => index position object subscript
  | deref _ object => deref position object
  | unwrap _ object => unwrap position object
  | assign _ operator target value => assign position operator target value
  | structLit _ name fields => structLit position name fields
  | arrayLit _ length elementType elements => arrayLit position length elementType elements

/-- Whether the expression may stand on the left of an assignment. -/
def isPlace : Expr → Bool
  | ident .. | member .. | index .. | deref .. => true
  | _ => false

mutual

/-- Whether two expressions are the same tree. -/
def same : Expr → Expr → Bool
  | number p text, number q text' => p == q && text == text'
  | string p text, string q text' => p == q && text == text'
  | bool p value, bool q value' => p == q && value == value'
  | null p, null q => p == q
  | undefined p, undefined q => p == q
  | ident p name, ident q name' => p == q && name == name'
  | binary p operator left right, binary q operator' left' right' =>
    p == q && operator == operator' && same left left' && same right right'
  | unary p operator operand, unary q operator' operand' =>
    p == q && operator == operator' && same operand operand'
  | call p callee arguments, call q callee' arguments' =>
    p == q && same callee callee' && sameAll arguments arguments'
  | member p object field, member q object' field' =>
    p == q && same object object' && field == field'
  | index p object subscript, index q object' subscript' =>
    p == q && same object object' && same subscript subscript'
  | deref p object, deref q object' => p == q && same object object'
  | unwrap p object, unwrap q object' => p == q && same object object'
  | assign p operator target value, assign q operator' target' value' =>
    p == q && operator == operator' && same target target' && same value value'
  | structLit p name fields, structLit q name' fields' =>
    p == q && name == name' && sameFields fields fields'
  | arrayLit p length elementType elements, arrayLit q length' elementType' elements' =>
    p == q && length == length' && elementType == elementType' && sameAll elements elements'
  | _, _ => false

/-- Whether two lists of expressions are the same, member by member. -/
def sameAll : List Expr → List Expr → Bool
  | [], [] => true
  | first :: rest, first' :: rest' => same first first' && sameAll rest rest'
  | _, _ => false

/-- Whether two lists of named expressions are the same, member by member. -/
def sameFields : List (Ident × Expr) → List (Ident × Expr) → Bool
  | [], [] => true
  | (name, value) :: rest, (name', value') :: rest' =>
    name == name' && same value value' && sameFields rest rest'
  | _, _ => false

end

mutual

/-- The comparison decides equality. -/
theorem same_iff (first second : Expr) : same first second = true ↔ first = second := by
  cases first <;> cases second <;>
    simp [same, same_iff, sameAll_iff, sameFields_iff, and_assoc]

/-- The comparison of lists decides equality. -/
theorem sameAll_iff (first second : List Expr) :
    sameAll first second = true ↔ first = second := by
  cases first <;> cases second <;> simp [sameAll, same_iff, sameAll_iff]

/-- The comparison of lists of named expressions decides equality. -/
theorem sameFields_iff (first second : List (Ident × Expr)) :
    sameFields first second = true ↔ first = second := by
  match first, second with
  | [], [] => simp [sameFields]
  | [], _ :: _ => simp [sameFields]
  | _ :: _, [] => simp [sameFields]
  | (_, _) :: _, (_, _) :: _ => simp [sameFields, same_iff, sameFields_iff]

end

instance : DecidableEq Expr := fun first second =>
  decidable_of_iff _ (same_iff first second)

end Expr

end SystemsLang.Syntax
