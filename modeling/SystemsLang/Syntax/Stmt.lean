import SystemsLang.Syntax.Expr

/-!
# Statements

The tree of a statement. A block is the list of its statements. The branch behind `else` and the
header of a `for` hold any statement here; the grammar admits only a block or another `if` in the
first place, and only a variable or an expression in the second.

As for expressions, equality includes positions and is decided by a structural comparison
(`Stmt.same_iff`).
-/

namespace SystemsLang.Syntax

/-- The declaration of a variable or constant, at top level or inside a block. -/
structure VarDecl where
  isPub : Bool
  isConst : Bool
  name : Ident
  type : Option TypeExpr
  init : Option Expr
  position : Position
deriving DecidableEq, Inhabited

/-- A statement. Every node holds the position of its first token. -/
inductive Stmt
  | block (position : Position) (body : List Stmt)
  | returns (position : Position) (value : Option Expr)
  | branch (position : Position) (condition : Expr) (body : List Stmt) (otherwise : Option Stmt)
  | whileLoop (position : Position) (condition : Expr) (body : List Stmt)
  | forLoop (position : Position) (init : Option Stmt) (condition step : Option Expr)
      (body : List Stmt)
  | breakLoop (position : Position)
  | continueLoop (position : Position)
  | expr (position : Position) (value : Expr)
  | comptime (position : Position) (body : List Stmt)
  | declare (position : Position) (declared : VarDecl)
deriving Inhabited

/-- The statements between two braces. -/
abbrev Block := List Stmt

namespace Stmt

/-- The position of a statement. -/
def position : Stmt → Position
  | block position _ | returns position _ | branch position _ _ _ | whileLoop position _ _
  | forLoop position _ _ _ _ | breakLoop position | continueLoop position | expr position _
  | comptime position _ | declare position _ => position

mutual

/-- Whether two statements are the same tree. -/
def same : Stmt → Stmt → Bool
  | block p body, block q body' => p == q && sameAll body body'
  | returns p value, returns q value' => p == q && value == value'
  | branch p condition body otherwise, branch q condition' body' otherwise' =>
    p == q && condition == condition' && sameAll body body' && sameOption otherwise otherwise'
  | whileLoop p condition body, whileLoop q condition' body' =>
    p == q && condition == condition' && sameAll body body'
  | forLoop p init condition step body, forLoop q init' condition' step' body' =>
    p == q && sameOption init init' && condition == condition' && step == step' &&
      sameAll body body'
  | breakLoop p, breakLoop q => p == q
  | continueLoop p, continueLoop q => p == q
  | expr p value, expr q value' => p == q && value == value'
  | comptime p body, comptime q body' => p == q && sameAll body body'
  | declare p declared, declare q declared' => p == q && declared == declared'
  | _, _ => false

/-- Whether two blocks are the same, statement by statement. -/
def sameAll : List Stmt → List Stmt → Bool
  | [], [] => true
  | first :: rest, first' :: rest' => same first first' && sameAll rest rest'
  | _, _ => false

/-- Whether two optional statements are the same. -/
def sameOption : Option Stmt → Option Stmt → Bool
  | none, none => true
  | some statement, some statement' => same statement statement'
  | _, _ => false

end

mutual

/-- The comparison decides equality. -/
theorem same_iff (first second : Stmt) : same first second = true ↔ first = second := by
  cases first <;> cases second <;>
    simp [same, sameAll_iff, sameOption_iff, and_assoc]

/-- The comparison of blocks decides equality. -/
theorem sameAll_iff (first second : List Stmt) :
    sameAll first second = true ↔ first = second := by
  cases first <;> cases second <;> simp [sameAll, same_iff, sameAll_iff]

/-- The comparison of optional statements decides equality. -/
theorem sameOption_iff (first second : Option Stmt) :
    sameOption first second = true ↔ first = second := by
  cases first <;> cases second <;> simp [sameOption, same_iff]

end

instance : DecidableEq Stmt := fun first second =>
  decidable_of_iff _ (same_iff first second)

end Stmt

end SystemsLang.Syntax
