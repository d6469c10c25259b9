import SystemsLang.Position

/-!
# Type expressions

A type as it is written in the source: a primitive type, the name of a struct, or a type built from
one other type by a mark that stands before it.
-/

namespace SystemsLang.Syntax

/-- A type as it is written, each node with the position of its first token. -/
inductive TypeExpr
  | primitive (position : Position) (name : String)
  | named (position : Position) (name : String)
  | pointer (position : Position) (isConst : Bool) (pointee : TypeExpr)
  | array (position : Position) (length : UInt64) (element : TypeExpr)
  | slice (position : Position) (isConst : Bool) (element : TypeExpr)
  | optional (position : Position) (inner : TypeExpr)
  | errorUnion (position : Position) (inner : TypeExpr)
deriving DecidableEq, Inhabited

namespace TypeExpr

/-- The position of the first token. -/
def position : TypeExpr → Position
  | primitive position _ | named position _ | pointer position _ _ | array position _ _
  | slice position _ _ | optional position _ | errorUnion position _ => position

end TypeExpr

end SystemsLang.Syntax
