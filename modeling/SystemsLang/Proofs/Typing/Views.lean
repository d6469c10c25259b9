import SystemsLang.Proofs.Typing.RuleChecks

/-!
# What expressions see of their context

The type of an expression and its diagnostics are determined by the environment that the context
stands for, and by the function that encloses the expression. How the scopes and the registry keep
what they hold does not matter: where a symbol stands and whether it is declared, or which entries
other ones hide (`exprType_congr`).
-/

namespace SystemsLang.Typing

open Syntax Checked

/-- Two contexts that stand for the same environment inside the same function. -/
structure Context.Alike (first second : Context) : Prop where
  env : first.env = second.env
  enclosing : first.enclosing = second.enclosing

/-- Which structs are defined decides what a type expression is resolved to. -/
theorem resolve_congr {first second : Registry} (same : ∀ name, first.has name = second.has name)
    (type : TypeExpr) : first.resolve type = second.resolve type := by
  induction type with
  | primitive position name => rfl
  | named position name => rw [Registry.resolve, Registry.resolve, same]
  | pointer _ _ _ inductionHypothesis | array _ _ _ inductionHypothesis
  | slice _ _ _ inductionHypothesis | optional _ _ inductionHypothesis
  | errorUnion _ _ inductionHypothesis =>
    rw [Registry.resolve, Registry.resolve, inductionHypothesis]

/-- Registries in which the same is found have the same structs. -/
theorem has_congr {first second : Registry} (same : first.get? = second.get?) (name : String) :
    first.has name = second.has name := by
  rw [Registry.has, Registry.has, same]

namespace Context.Alike

variable {first second : Context} (alike : first.Alike second)
include alike

/-- The same fields are found for every struct. -/
theorem get? : first.registry.get? = second.registry.get? :=
  congrArg Env.structs alike.env

/-- Every name is bound to the same. -/
theorem lookup (name : String) : (first.scopes.lookup? name).map Symbol.binding =
    (second.scopes.lookup? name).map Symbol.binding := by
  rw [← lookup_env, ← lookup_env, alike.env]

/-- The same names may be assigned to. -/
theorem isConst (name : String) : first.isConst name = second.isConst name := by
  rw [isConst_eq, isConst_eq, alike.env]

/-- A name has the same type, or is undefined in both contexts. -/
theorem identType (position : Position) (name : String) :
    identType first position name = identType second position name := by
  have bound := alike.lookup name
  unfold Typing.identType
  cases here : first.scopes.lookup? name with
  | none =>
    rw [here] at bound
    rw [Option.map_eq_none_iff.mp bound.symm]
  | some symbol =>
    rw [here] at bound
    obtain ⟨other, there, same⟩ := Option.map_eq_some_iff.mp bound.symm
    have types : other.type = symbol.type := congrArg Binding.type same
    rw [there]
    exact congrArg pure types.symm

/-- An address has the same type, since the same targets are constant. -/
theorem addressType (operand : Expr) (type : Ty) :
    addressType first operand type = addressType second operand type := by
  unfold Typing.addressType
  split
  · rw [alike.isConst]
  · rfl

/-- A `try` is allowed in both contexts or in none. -/
theorem attemptType (position : Position) (type : Ty) :
    attemptType first position type = attemptType second position type := by
  have allowed : attemptAllowed first position = attemptAllowed second position := by
    rw [attemptAllowed, attemptAllowed, alike.enclosing]
  rw [Typing.attemptType, Typing.attemptType, allowed]

/-- The rules for unary operators find the same. -/
theorem unaryType (position : Position) (operator : UnaryOp) (operand : Expr) (type : Ty) :
    unaryType first position operator operand type =
      unaryType second position operator operand type := by
  cases operator with
  | negate | not => rfl
  | addressOf => exact congrArg pure (alike.addressType operand type)
  | attempt => exact alike.attemptType position type

/-- The rule for members looks up the same struct. -/
theorem memberType (type : Ty) (field : Ident) :
    memberType first type field = memberType second type field := by
  unfold Typing.memberType
  rw [alike.get?]

/-- The rule for assignments finds the same targets constant. -/
theorem assignType (operator : Option BinaryOp) (target : Expr) (targetPart valuePart : Part) :
    assignType first operator target targetPart valuePart =
      assignType second operator target targetPart valuePart := by
  have targets : assignableTarget first target = assignableTarget second target := by
    unfold assignableTarget
    split
    · rw [alike.isConst]
    · rfl
  rw [Typing.assignType, Typing.assignType, targets]

/-- The rule for struct literals looks up the same struct. -/
theorem structLitType (position : Position) (name : Ident) (values : List (Ident × Part)) :
    structLitType first position name values = structLitType second position name values := by
  unfold Typing.structLitType
  rw [alike.get?]

/-- The rule for array literals resolves the same element type. -/
theorem arrayLitType (position : Position) (length : Option UInt64) (elementExpr : TypeExpr)
    (elements : List Part) :
    arrayLitType first position length elementExpr elements =
      arrayLitType second position length elementExpr elements := by
  rw [Typing.arrayLitType, Typing.arrayLitType, resolve_congr (has_congr alike.get?)]

end Context.Alike

variable {first second : Context}

mutual

/-- In contexts that stand for the same an expression has the same type and the same
diagnostics. -/
theorem exprType_congr (alike : first.Alike second) (value : Expr) :
    exprType first value = exprType second value := by
  cases value with
  | number | string | bool | null | undefined => rfl
  | ident position name => exact alike.identType position name
  | binary position operator left right =>
    rw [exprType, exprType, exprType_congr alike left, exprType_congr alike right]
  | unary position operator operand =>
    rw [exprType, exprType, exprType_congr alike operand]
    simp only [alike.unaryType]
  | call position callee arguments =>
    rw [exprType, exprType, exprType_congr alike callee, parts_congr alike arguments]
  | member position object field =>
    rw [exprType, exprType, exprType_congr alike object]
    simp only [alike.memberType]
  | index position object subscript =>
    rw [exprType, exprType, exprType_congr alike object, exprType_congr alike subscript]
  | deref position object | unwrap position object =>
    rw [exprType, exprType, exprType_congr alike object]
  | assign position operator target value =>
    rw [exprType, exprType, exprType_congr alike target, exprType_congr alike value,
      alike.assignType]
  | structLit position name values =>
    rw [exprType, exprType, fieldParts_congr alike values, alike.structLitType]
  | arrayLit position length elementExpr elements =>
    rw [exprType, exprType, parts_congr alike elements, alike.arrayLitType]

/-- Several expressions have the same types and diagnostics. -/
theorem parts_congr (alike : first.Alike second) (values : List Expr) :
    parts first values = parts second values := by
  match values with
  | [] => rfl
  | value :: rest => rw [parts, parts, exprType_congr alike value, parts_congr alike rest]

/-- So have the values of fields. -/
theorem fieldParts_congr (alike : first.Alike second) (values : List (Ident × Expr)) :
    fieldParts first values = fieldParts second values := by
  match values with
  | [] => rfl
  | (name, value) :: rest =>
    rw [fieldParts, fieldParts, exprType_congr alike value, fieldParts_congr alike rest]

end

end SystemsLang.Typing
