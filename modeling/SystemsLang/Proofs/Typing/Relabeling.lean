import SystemsLang.Typing.Program

/-!
# Renaming names and moving positions

A relabeling renames the names of a program and moves its positions. It is applied to everything
that has names or positions in it: the trees of the program, the types that checking computes with,
the scopes, the registry and the diagnostics. Two names have to stay, because the checker gives them
a meaning of their own, and different names have to stay different; positions may be moved in any
way at all, also all to one place.

This module has the relabelings themselves and the questions that the checker asks about types and
names: their answers are the same after a relabeling.
-/

namespace SystemsLang.Typing

open Syntax

/-- A way to rename names and to move positions. Different names stay different, and those that have
a meaning of their own stay what they are: the target of a discard and the length of an array. -/
structure Relabeling where
  name : String → String
  place : Position → Position
  injective : Function.Injective name
  discard : name "_" = "_"
  length : name "len" = "len"

namespace Relabeling

variable (labels : Relabeling)

/-- A name at a position, relabeled. -/
def ident (found : Ident) : Ident :=
  ⟨labels.name found.name, labels.place found.position⟩

/-- A type expression, relabeled. The names of primitive types are words of the language. -/
def typeExpr : TypeExpr → TypeExpr
  | .primitive position name => .primitive (labels.place position) name
  | .named position name => .named (labels.place position) (labels.name name)
  | .pointer position isConst pointee => .pointer (labels.place position) isConst (typeExpr pointee)
  | .array position length element => .array (labels.place position) length (typeExpr element)
  | .slice position isConst element => .slice (labels.place position) isConst (typeExpr element)
  | .optional position inner => .optional (labels.place position) (typeExpr inner)
  | .errorUnion position inner => .errorUnion (labels.place position) (typeExpr inner)

mutual

/-- An expression, relabeled. -/
def expr : Expr → Expr
  | .number position text => .number (labels.place position) text
  | .string position text => .string (labels.place position) text
  | .bool position value => .bool (labels.place position) value
  | .null position => .null (labels.place position)
  | .undefined position => .undefined (labels.place position)
  | .ident position name => .ident (labels.place position) (labels.name name)
  | .binary position operator left right =>
    .binary (labels.place position) operator (expr left) (expr right)
  | .unary position operator operand => .unary (labels.place position) operator (expr operand)
  | .call position callee arguments =>
    .call (labels.place position) (expr callee) (exprs arguments)
  | .member position object field =>
    .member (labels.place position) (expr object) (labels.ident field)
  | .index position object subscript =>
    .index (labels.place position) (expr object) (expr subscript)
  | .deref position object => .deref (labels.place position) (expr object)
  | .unwrap position object => .unwrap (labels.place position) (expr object)
  | .assign position operator target value =>
    .assign (labels.place position) operator (expr target) (expr value)
  | .structLit position name values =>
    .structLit (labels.place position) (labels.ident name) (fieldValues values)
  | .arrayLit position length elementType elements =>
    .arrayLit (labels.place position) length (labels.typeExpr elementType) (exprs elements)

/-- Several expressions, relabeled. -/
def exprs : List Expr → List Expr
  | [] => []
  | first :: rest => expr first :: exprs rest

/-- The values of several fields, relabeled. -/
def fieldValues : List (Ident × Expr) → List (Ident × Expr)
  | [] => []
  | (name, value) :: rest => (labels.ident name, expr value) :: fieldValues rest

end

/-- A variable, relabeled. -/
def varDecl (declared : VarDecl) : VarDecl :=
  ⟨declared.isPub, declared.isConst, labels.ident declared.name,
    declared.type.map labels.typeExpr, declared.init.map labels.expr,
    labels.place declared.position⟩

mutual

/-- A statement, relabeled. -/
def stmt : Stmt → Stmt
  | .block position body => .block (labels.place position) (stmts body)
  | .returns position value => .returns (labels.place position) (value.map labels.expr)
  | .branch position condition body otherwise =>
    .branch (labels.place position) (labels.expr condition) (stmts body) (optionalStmt otherwise)
  | .whileLoop position condition body =>
    .whileLoop (labels.place position) (labels.expr condition) (stmts body)
  | .forLoop position init condition step body =>
    .forLoop (labels.place position) (optionalStmt init) (condition.map labels.expr)
      (step.map labels.expr) (stmts body)
  | .breakLoop position => .breakLoop (labels.place position)
  | .continueLoop position => .continueLoop (labels.place position)
  | .expr position value => .expr (labels.place position) (labels.expr value)
  | .comptime position body => .comptime (labels.place position) (stmts body)
  | .declare position declared => .declare (labels.place position) (labels.varDecl declared)

/-- Several statements, relabeled. -/
def stmts : List Stmt → List Stmt
  | [] => []
  | first :: rest => stmt first :: stmts rest

/-- A statement that may be absent, relabeled. -/
def optionalStmt : Option Stmt → Option Stmt
  | none => none
  | some statement => some (stmt statement)

end

/-- A parameter, relabeled. -/
def param (given : Param) : Param :=
  ⟨given.isComptime, labels.ident given.name, labels.typeExpr given.type,
    labels.place given.position⟩

/-- A field, relabeled. -/
def field (given : Field) : Field :=
  ⟨labels.ident given.name, labels.typeExpr given.type, labels.place given.position⟩

/-- A function, relabeled. -/
def fnDecl (declared : FnDecl) : FnDecl :=
  ⟨declared.isPub, declared.modifier, labels.ident declared.name,
    declared.params.map labels.param, labels.typeExpr declared.returnType,
    labels.stmts declared.body, labels.place declared.position⟩

/-- A struct, relabeled. -/
def structDecl (declared : StructDecl) : StructDecl :=
  ⟨declared.isPub, labels.ident declared.name, declared.fields.map labels.field,
    labels.place declared.position⟩

/-- A declaration, relabeled. -/
def decl : Decl → Decl
  | .fn declared => .fn (labels.fnDecl declared)
  | .var declared => .var (labels.varDecl declared)
  | .struct declared => .struct (labels.structDecl declared)

/-- A program, relabeled. -/
def program (declared : Program) : Program :=
  declared.map labels.decl

mutual

/-- A type, relabeled: the structs in it have other names. -/
def ty : Ty → Ty
  | .void => .void
  | .unknown => .unknown
  | .null => .null
  | .primitive name => .primitive name
  | .struct name => .struct (labels.name name)
  | .function params result => .function (tys params) (ty result)
  | .pointer isConst pointee => .pointer isConst (ty pointee)
  | .array length element => .array length (ty element)
  | .slice isConst element => .slice isConst (ty element)
  | .optional inner => .optional (ty inner)
  | .errorUnion inner => .errorUnion (ty inner)

/-- Several types, relabeled. -/
def tys : List Ty → List Ty
  | [] => []
  | first :: rest => ty first :: tys rest

end

/-- The cause of a diagnostic, relabeled: it names other names and other types. -/
def cause : Diagnostic.Cause → Diagnostic.Cause
  | .undefinedVariable name => .undefinedVariable (labels.name name)
  | .unknownType name => .unknownType (labels.name name)
  | .duplicateDeclaration name => .duplicateDeclaration (labels.name name)
  | .missingTypeOrInit name => .missingTypeOrInit (labels.name name)
  | .typeMismatch expected actual => .typeMismatch (labels.ty expected) (labels.ty actual)
  | .nonNumericOperands symbol left right =>
    .nonNumericOperands symbol (labels.ty left) (labels.ty right)
  | .incomparable left right => .incomparable (labels.ty left) (labels.ty right)
  | .nonBooleanOperands symbol left right =>
    .nonBooleanOperands symbol (labels.ty left) (labels.ty right)
  | .nonNumericNegation operand => .nonNumericNegation (labels.ty operand)
  | .nonBooleanNot operand => .nonBooleanNot (labels.ty operand)
  | .notAFunction name => .notAFunction (labels.name name)
  | .notCallable callee => .notCallable (labels.ty callee)
  | .argumentCount expected actual => .argumentCount expected actual
  | .argumentMismatch place expected actual =>
    .argumentMismatch place (labels.ty expected) (labels.ty actual)
  | .noMembers object => .noMembers (labels.ty object)
  | .unknownField struct field => .unknownField (labels.name struct) (labels.name field)
  | .notIndexable object => .notIndexable (labels.ty object)
  | .nonIntegerIndex subscript => .nonIntegerIndex (labels.ty subscript)
  | .assignToConst name => .assignToConst (labels.name name)
  | .missingReturn function => .missingReturn (labels.name function)
  | .voidReturnValue function => .voidReturnValue (labels.name function)
  | .nonBooleanCondition condition => .nonBooleanCondition (labels.ty condition)
  | .breakOutsideLoop => .breakOutsideLoop
  | .continueOutsideLoop => .continueOutsideLoop
  | .missingField struct field => .missingField (labels.name struct) (labels.name field)
  | .arrayLength expected actual => .arrayLength expected actual
  | .notAPointer object => .notAPointer (labels.ty object)
  | .notAnOptional object => .notAnOptional (labels.ty object)
  | .tryWithoutErrorUnion operand => .tryWithoutErrorUnion (labels.ty operand)
  | .tryOutsideErrorFunction function => .tryOutsideErrorFunction (labels.name function)

/-- A diagnostic, relabeled. -/
def diagnostic (raised : Diagnostic) : Diagnostic :=
  ⟨labels.cause raised.cause, labels.place raised.position⟩

/-- What names stand for, under the new names. -/
def entries {α β : Type} (change : α → β) (given : List (String × α)) : List (String × β) :=
  given.map fun entry => (labels.name entry.1, change entry.2)

/-- A symbol, relabeled. -/
def symbol (given : Symbol) : Symbol :=
  ⟨labels.ty given.type, given.role, given.isConst, given.declared, labels.place given.position⟩

/-- The open scopes, relabeled. -/
def scopes (given : Scopes) : Scopes :=
  ⟨given.opened.map (labels.entries labels.symbol), labels.entries labels.symbol given.global⟩

/-- The fields of a struct, relabeled. -/
def fields (given : Fields) : Fields :=
  labels.entries labels.ty given

/-- A registry, relabeled. -/
def registry (given : Registry) : Registry :=
  ⟨labels.entries labels.fields given.structs⟩

/-- The function around a statement, relabeled. -/
def enclosing (given : Enclosing) : Enclosing :=
  ⟨labels.name given.name, labels.ty given.result⟩

/-- What the type of an expression depends on, relabeled. -/
def context (given : Context) : Context :=
  ⟨labels.registry given.registry, labels.scopes given.scopes,
    given.enclosing.map labels.enclosing⟩

/-- What the statements of a function share, relabeled. -/
def surroundings (given : Surroundings) : Surroundings :=
  ⟨labels.registry given.registry, labels.enclosing given.enclosing⟩

/-- A declaration that was entered, relabeled. -/
def entered : Entered → Entered
  | .fn declared params result =>
    .fn (labels.fnDecl declared) (params.map labels.ty) (labels.ty result)
  | .var declared stated => .var (labels.varDecl declared) (stated.map labels.ty)
  | .struct declared => .struct (labels.structDecl declared)

variable {labels}

/-- Names are the same after a relabeling exactly if they were before. -/
@[simp] theorem name_eq_iff {first second : String} :
    labels.name first = labels.name second ↔ first = second :=
  labels.injective.eq_iff

/-- The same as an equation between answers. -/
@[simp] theorem name_beq (first second : String) :
    (labels.name first == labels.name second) = (first == second) := by
  rw [Bool.eq_iff_iff, beq_iff_eq, beq_iff_eq, name_eq_iff]

/-- A name that is `_` after a relabeling was `_` before. -/
theorem name_eq_discard {name : String} : labels.name name = "_" ↔ name = "_" := by
  constructor
  · intro same
    exact labels.injective (same.trans labels.discard.symm)
  · rintro rfl
    exact labels.discard

/-- A name that is `len` after a relabeling was `len` before. -/
theorem name_beq_length (name : String) : (labels.name name == "len") = (name == "len") := by
  have kept : labels.name name = labels.name "len" ↔ name = "len" := name_eq_iff
  rw [labels.length] at kept
  rw [Bool.eq_iff_iff, beq_iff_eq, beq_iff_eq, kept]

/-- A relabeled name stands for what the name stood for, relabeled. -/
@[simp] theorem lookup_entries {α β : Type} (change : α → β) (given : List (String × α))
    (name : String) :
    (labels.entries change given).lookup (labels.name name) = (given.lookup name).map change := by
  induction given with
  | nil => rfl
  | cons first rest inductionHypothesis =>
    obtain ⟨known, value⟩ := first
    have unfolded : labels.entries change ((known, value) :: rest) =
        (labels.name known, change value) :: labels.entries change rest := rfl
    rw [unfolded, List.lookup_cons, List.lookup_cons, name_beq]
    split
    · rfl
    · exact inductionHypothesis

/-- An expression stands where its position is moved to. -/
@[simp] theorem position_expr (value : Expr) :
    (labels.expr value).position = labels.place value.position := by
  cases value <;> rfl

mutual

/-- Types are the same after a relabeling exactly if they were before. -/
theorem same_ty (first second : Ty) :
    Ty.same (labels.ty first) (labels.ty second) = Ty.same first second := by
  cases first <;> cases second <;> simp [ty, Ty.same, same_ty, sameAll_tys]

/-- So are lists of types. -/
theorem sameAll_tys (first second : List Ty) :
    Ty.sameAll (labels.tys first) (labels.tys second) = Ty.sameAll first second := by
  cases first <;> cases second <;> simp [tys, Ty.sameAll, same_ty, sameAll_tys]

end

/-- Types are the same after a relabeling exactly if they were before. -/
@[simp] theorem ty_eq_iff {first second : Ty} :
    labels.ty first = labels.ty second ↔ first = second := by
  rw [← Ty.same_iff, ← Ty.same_iff, same_ty]

/-- The same for the comparison that the checker makes. -/
@[simp] theorem ty_beq (first second : Ty) :
    (labels.ty first == labels.ty second) = (first == second) := by
  rw [Bool.eq_iff_iff, beq_iff_eq, beq_iff_eq, ty_eq_iff]

/-- Relabeling a list of types is relabeling each of them. -/
@[simp] theorem tys_eq_map (types : List Ty) : labels.tys types = types.map labels.ty := by
  induction types with
  | nil => rfl
  | cons first rest inductionHypothesis => simp [tys, inductionHypothesis]

/-- Only the unknown type is relabeled to it. -/
@[simp] theorem isUnknown_ty (type : Ty) : (labels.ty type).isUnknown = type.isUnknown := by
  cases type <;> rfl

/-- Only `void` is relabeled to it. -/
@[simp] theorem isVoid_ty (type : Ty) : (labels.ty type).isVoid = type.isVoid := by
  cases type <;> rfl

/-- Whether a type may be a number does not depend on names. -/
@[simp] theorem mayBeNumeric_ty (type : Ty) :
    mayBeNumeric (labels.ty type) = mayBeNumeric type := by
  cases type <;> rfl

/-- Whether a type may be `bool` does not depend on names. -/
@[simp] theorem mayBeBool_ty (type : Ty) : mayBeBool (labels.ty type) = mayBeBool type := by
  cases type <;> rfl

/-- Whether a type is an integer type does not depend on names. -/
@[simp] theorem isInteger_ty (type : Ty) : (labels.ty type).isInteger = type.isInteger := by
  cases type <;> rfl

/-- Whether a type has a length does not depend on names. -/
@[simp] theorem hasLength_ty (type : Ty) : hasLength (labels.ty type) = hasLength type := by
  cases type <;> rfl

/-- Whether a function has to give back a value does not depend on names. -/
@[simp] theorem needsValue_ty (type : Ty) : needsValue (labels.ty type) = needsValue type := by
  cases type <;> simp [ty, needsValue]

/-- Members are looked up in the relabeled type. -/
@[simp] theorem memberBase_ty (type : Ty) :
    memberBase (labels.ty type) = labels.ty (memberBase type) := by
  cases type with
  | pointer isConst pointee => cases pointee <;> rfl
  | _ => rfl

/-- Whether a value may stand where a type is expected does not depend on the names of structs. -/
@[simp] theorem coercesTo_ty (actual expected : Ty) :
    (labels.ty actual).coercesTo (labels.ty expected) = actual.coercesTo expected := by
  have whole : (labels.ty actual == labels.ty expected) = (actual == expected) :=
    ty_beq actual expected
  have toNull : (labels.ty actual == .null) = (actual == .null) := ty_beq actual .null
  cases expected with
  | optional inner | errorUnion inner =>
    rw [ty] at whole ⊢
    simp only [Ty.coercesTo, isUnknown_ty, whole, toNull, coercesTo_ty actual inner]
  | pointer isConst | slice isConst =>
    rw [ty] at whole ⊢
    simp only [Ty.coercesTo, isUnknown_ty, whole]
    -- What is left compares the types that are referred to.
    cases isConst <;> cases actual <;> simp only [ty, ty_beq, Ty.isUnknown]
  | void | unknown | null =>
    rw [ty] at whole ⊢
    simp only [Ty.coercesTo, isUnknown_ty, whole]
  | primitive | struct | function | array =>
    rw [ty] at whole ⊢
    simp only [Ty.coercesTo, isUnknown_ty, whole]
    cases actual <;> rfl

/-- Whether types can be compared does not depend on names. -/
@[simp] theorem isComparableWith_ty (first second : Ty) :
    (labels.ty first).isComparableWith (labels.ty second) = first.isComparableWith second := by
  simp [Ty.isComparableWith]

end Relabeling

end SystemsLang.Typing
