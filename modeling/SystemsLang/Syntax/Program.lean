import SystemsLang.Syntax.Stmt

/-!
# Programs

A program is the list of its top-level declarations: functions, variables and structs.
-/

namespace SystemsLang.Syntax

/-- The word that may stand before a function. -/
inductive FnModifier
  | inlined | comptime
deriving DecidableEq, Inhabited

/-- A parameter of a function. -/
structure Param where
  isComptime : Bool
  name : Ident
  type : TypeExpr
  position : Position
deriving DecidableEq, Inhabited

/-- The declaration of a function. -/
structure FnDecl where
  isPub : Bool
  modifier : Option FnModifier
  name : Ident
  params : List Param
  returnType : TypeExpr
  body : Block
  position : Position
deriving DecidableEq, Inhabited

/-- A field of a struct. -/
structure Field where
  name : Ident
  type : TypeExpr
  position : Position
deriving DecidableEq, Inhabited

/-- The declaration of a struct. -/
structure StructDecl where
  isPub : Bool
  name : Ident
  fields : List Field
  position : Position
deriving DecidableEq, Inhabited

/-- A top-level declaration. -/
inductive Decl
  | fn (declared : FnDecl)
  | var (declared : VarDecl)
  | struct (declared : StructDecl)
deriving DecidableEq, Inhabited

namespace Decl

/-- The name that a declaration introduces. -/
def name : Decl → Ident
  | fn declared => declared.name
  | var declared => declared.name
  | struct declared => declared.name

end Decl

/-- A whole program, as its declarations in order. -/
abbrev Program := List Decl

end SystemsLang.Syntax
