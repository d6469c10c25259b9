import SystemsLang.Syntax.Program
import SystemsLang.Typing.Checked
import SystemsLang.Typing.Coercion
import SystemsLang.Typing.Registry
import SystemsLang.Typing.Scopes

/-!
# Typing expressions

Every expression has a type in a context, if need be the unknown one, and raises diagnostics.
Checking an expression changes nothing: `exprType` is a function of the context and the tree. The
rules of the single forms are functions of their own that are given the results for the parts, so
`exprType` itself only says which parts a form has and in which order they are checked.
-/

namespace SystemsLang.Typing

open Syntax Checked

/-- The function whose body is checked: its name and the type of its result. -/
structure Enclosing where
  name : String
  result : Ty
deriving DecidableEq

/-- What the type of an expression depends on. Outside of functions nothing encloses it. -/
structure Context where
  registry : Registry
  scopes : Scopes
  enclosing : Option Enclosing

/-- The type that a type expression denotes. A name has to be that of a struct. -/
def Registry.resolve (registry : Registry) : TypeExpr → Checked Ty
  | .primitive _ name => pure (.ofPrimitive name)
  | .named position name =>
    if registry.has name then pure (.struct name)
    else unknownAfter (.unknownType name) position
  | .pointer _ isConst pointee => return .pointer isConst (← registry.resolve pointee)
  | .array _ length element => return .array length (← registry.resolve element)
  | .slice _ isConst element => return .slice isConst (← registry.resolve element)
  | .optional _ inner => return .optional (← registry.resolve inner)
  | .errorUnion _ inner => return .errorUnion (← registry.resolve inner)

/-- Reports a value that may not stand where a type is expected. -/
def expectCoercible (position : Position) (expected actual : Ty) : Checked Unit :=
  reportIf (!actual.coercesTo expected) (.typeMismatch expected actual) position

/-- Whether a type may be that of a number. -/
def mayBeNumeric (type : Ty) : Bool :=
  type.isUnknown || type.isNumeric

/-- Whether a type may be that of a condition. -/
def mayBeBool (type : Ty) : Bool :=
  type.isUnknown || type.isBool

/-- Whether a name stands for something that must not be assigned to. -/
def Context.isConst (context : Context) (name : String) : Bool :=
  (context.scopes.lookup? name).any Symbol.isConst

/-- The type of a name, the one its symbol has. -/
def identType (context : Context) (position : Position) (name : String) : Checked Ty :=
  match context.scopes.lookup? name with
  | some symbol => pure symbol.type
  | none => unknownAfter (.undefinedVariable name) position

/-- The type of a binary operation on operands of the given types. -/
def binaryType (position : Position) (operator : BinaryOp) (left right : Ty) : Checked Ty :=
  match operator.operatorClass with
  | .arithmetic =>
    if mayBeNumeric left && mayBeNumeric right then pure left
    else unknownAfter (.nonNumericOperands operator.symbol left right) position
  | .comparison => do
    reportIf (!left.isComparableWith right) (.incomparable left right) position
    return .bool
  | .logical => do
    reportIf (!(mayBeBool left && mayBeBool right))
      (.nonBooleanOperands operator.symbol left right) position
    return .bool

/-- The type of an address. It is read-only if it is that of a name not to be assigned to. -/
def addressType (context : Context) (operand : Expr) (type : Ty) : Ty :=
  match operand with
  | .ident _ name => .pointer (context.isConst name) type
  | _ => .pointer false type

/-- Reports a `try` in a function whose result is no error union. -/
def attemptAllowed (context : Context) (position : Position) : Checked Unit :=
  match context.enclosing with
  | some ⟨_, .errorUnion _⟩ => pure ()
  | some ⟨_, .unknown⟩ => pure ()
  | some ⟨name, _⟩ => report (.tryOutsideErrorFunction name) position
  | none => pure ()

/-- The type inside an error union that is taken apart by `try`. -/
def attemptedType (position : Position) : Ty → Checked Ty
  | .errorUnion inner => pure inner
  | .unknown => pure .unknown
  | other => unknownAfter (.tryWithoutErrorUnion other) position

/-- The type of a `try`. It needs an error union, and a function that gives one back. -/
def attemptType (context : Context) (position : Position) (type : Ty) : Checked Ty := do
  attemptAllowed context position
  attemptedType position type

/-- The type of a prefix operation on an operand of the given type. -/
def unaryType (context : Context) (position : Position) (operator : UnaryOp) (operand : Expr)
    (type : Ty) : Checked Ty :=
  match operator with
  | .negate =>
    if mayBeNumeric type then pure type else unknownAfter (.nonNumericNegation type) position
  | .not => do
    reportIf (!mayBeBool type) (.nonBooleanNot type) position
    return .bool
  | .addressOf => pure (addressType context operand type)
  | .attempt => attemptType context position type

/-- An expression that was checked, with its position. -/
structure Part where
  position : Position
  checked : Checked Ty

/-- Parts that are checked for their diagnostics alone. -/
def ignoreAll (parts : List Part) : Checked Unit :=
  sequence (parts.map fun part => ignore part.checked)

/-- Arguments against the types of the parameters, the first argument at the given place. -/
def argumentsFit (place : Nat) : List Part → List Ty → Checked Unit
  | part :: parts, expected :: params => do
    let actual ← part.checked
    reportIf (!actual.coercesTo expected) (.argumentMismatch place expected actual) part.position
    argumentsFit (place + 1) parts params
  | _, _ => pure ()

/-- The arguments of a call against the types of the parameters. If there are too few or too many,
that is reported and none is compared. -/
def callFits (position : Position) (arguments : List Part) (params : List Ty) : Checked Unit :=
  if arguments.length = params.length then argumentsFit 1 arguments params
  else do
    report (.argumentCount params.length arguments.length) position
    ignoreAll arguments

/-- Why something of the given type cannot be called. -/
def calleeCause (callee : Expr) (type : Ty) : Diagnostic.Cause :=
  match callee with
  | .ident _ name => .notAFunction name
  | _ => .notCallable type

/-- The type of a call of something of the given type. -/
def callType (position : Position) (callee : Expr) (type : Ty) (arguments : List Part) :
    Checked Ty :=
  match type with
  | .function params result => do
    callFits position arguments params
    return result
  | .unknown => do
    ignoreAll arguments
    return .unknown
  | other => do
    report (calleeCause callee other) position
    ignoreAll arguments
    return .unknown

/-- What the members of a value are looked up in: for a pointer to a struct, the struct. -/
def memberBase : Ty → Ty
  | .pointer _ (.struct name) => .struct name
  | other => other

/-- Whether values of a type have a length. -/
def hasLength : Ty → Bool
  | .array .. | .slice .. => true
  | _ => false

/-- The type of a member of something of the given type. -/
def memberType (context : Context) (type : Ty) (field : Ident) : Checked Ty :=
  match memberBase type with
  | .struct name =>
    match context.registry.get? name with
    | some fields =>
      match fields.lookup field.name with
      | some found => pure found
      | none => unknownAfter (.unknownField name field.name) field.position
    | none => pure .unknown
  | .unknown => pure .unknown
  | other =>
    if hasLength other && field.name == "len" then pure .size
    else unknownAfter (.noMembers other) field.position

/-- The type of an element of something of the given type, which stands at the given position. -/
def elementType (position : Position) : Ty → Checked Ty
  | .array _ element => pure element
  | .slice _ element => pure element
  | .pointer _ (.array _ element) => pure element
  | .unknown => pure .unknown
  | other => unknownAfter (.notIndexable other) position

/-- Reports a subscript that cannot be an integer. -/
def subscriptFits (position : Position) (type : Ty) : Checked Unit :=
  reportIf (!(type.isUnknown || type.isInteger)) (.nonIntegerIndex type) position

/-- The type that a pointer to the given type refers to. -/
def pointeeType (position : Position) : Ty → Checked Ty
  | .pointer _ pointee => pure pointee
  | .unknown => pure .unknown
  | other => unknownAfter (.notAPointer other) position

/-- The type inside an optional. -/
def unwrappedType (position : Position) : Ty → Checked Ty
  | .optional inner => pure inner
  | .unknown => pure .unknown
  | other => unknownAfter (.notAnOptional other) position

/-- Whether an assignment only discards a value. -/
def isDiscard (operator : Option BinaryOp) (target : Expr) : Bool :=
  match operator, target with
  | none, .ident _ "_" => true
  | _, _ => false

/-- Reports an assignment to a name that must not be assigned to. -/
def assignableTarget (context : Context) (target : Expr) : Checked Unit :=
  match target with
  | .ident position name => reportIf (context.isConst name) (.assignToConst name) position
  | _ => pure ()

/-- The spelling of an operator in an assignment that computes. -/
def compoundSymbol (operator : BinaryOp) : String :=
  match operator.operatorClass with
  | .arithmetic => operator.symbol ++ "="
  | _ => operator.symbol

/-- The type of the value in an assignment against that of the target. An assignment that computes
needs numbers on both sides, and only if it has them is the one compared with the other. -/
def assignmentFits (operator : Option BinaryOp) (targetPosition valuePosition : Position)
    (expected actual : Ty) : Checked Unit :=
  match operator with
  | some operator =>
    if mayBeNumeric expected && mayBeNumeric actual then
      expectCoercible valuePosition expected actual
    else report (.nonNumericOperands (compoundSymbol operator) expected actual) targetPosition
  | none => expectCoercible valuePosition expected actual

/-- The type of an assignment, which is that of its target. A discard has the unknown type. -/
def assignType (context : Context) (operator : Option BinaryOp) (target : Expr)
    (targetPart valuePart : Part) : Checked Ty :=
  if isDiscard operator target then do
    ignore valuePart.checked
    return .unknown
  else do
    assignableTarget context target
    let expected ← targetPart.checked
    let actual ← valuePart.checked
    assignmentFits operator targetPart.position valuePart.position expected actual
    return expected

/-- The value of one field of a struct literal against the type that the field has. -/
def fieldFits (struct : String) (fields : Fields) (name : Ident) (position : Position)
    (actual : Ty) : Checked Unit :=
  match fields.lookup name.name with
  | some expected => expectCoercible position expected actual
  | none => report (.unknownField struct name.name) name.position

/-- The values of a struct literal against the fields of the struct. -/
def fieldsFit (struct : String) (fields : Fields) : List (Ident × Part) → Checked Unit
  | [] => pure ()
  | (name, part) :: rest => do
    let actual ← part.checked
    fieldFits struct fields name part.position actual
    fieldsFit struct fields rest

/-- Reports the fields of a struct that a literal leaves out. -/
def fieldsPresent (position : Position) (struct : String) (fields : Fields)
    (values : List (Ident × Part)) : Checked Unit :=
  sequence (fields.map fun field =>
    reportIf (!values.any fun value => value.1.name == field.1)
      (.missingField struct field.1) position)

/-- The type of a struct literal. -/
def structLitType (context : Context) (position : Position) (name : Ident)
    (values : List (Ident × Part)) : Checked Ty := do
  match context.registry.get? name.name with
  | none =>
    report (.unknownType name.name) name.position
    ignoreAll (values.map Prod.snd)
    return .unknown
  | some fields =>
    fieldsFit name.name fields values
    fieldsPresent position name.name fields values
    return .struct name.name

/-- The elements of an array literal against their common type. -/
def elementsFit (expected : Ty) : List Part → Checked Unit
  | [] => pure ()
  | part :: rest => do
    let actual ← part.checked
    expectCoercible part.position expected actual
    elementsFit expected rest

/-- Reports a length that is not the number of elements. -/
def lengthFits (position : Position) (length : Option UInt64) (count : Nat) : Checked Unit :=
  match length with
  | some length => reportIf (length != UInt64.ofNat count) (.arrayLength length count) position
  | none => pure ()

/-- The type of an array literal, whose length is that of its elements if it is left open. -/
def arrayLitType (context : Context) (position : Position) (length : Option UInt64)
    (elementExpr : TypeExpr) (elements : List Part) : Checked Ty := do
  let element ← context.registry.resolve elementExpr
  elementsFit element elements
  lengthFits position length elements.length
  return .array (length.getD (UInt64.ofNat elements.length)) element

mutual

/-- The type of an expression, with the diagnostics it raises. -/
def exprType (context : Context) : Expr → Checked Ty
  | .number _ text => pure (if text.toList.contains '.' then .comptimeFloat else .comptimeInt)
  | .string .. => pure .string
  | .bool .. => pure .bool
  | .null _ => pure .null
  | .undefined _ => pure .unknown
  | .ident position name => identType context position name
  | .binary position operator left right => do
    let leftType ← exprType context left
    let rightType ← exprType context right
    binaryType position operator leftType rightType
  | .unary position operator operand => do
    let type ← exprType context operand
    unaryType context position operator operand type
  | .call position callee arguments => do
    let type ← exprType context callee
    callType position callee type (parts context arguments)
  | .member _ object field => do
    let type ← exprType context object
    memberType context type field
  | .index _ object subscript => do
    let type ← exprType context object
    let subscriptType ← exprType context subscript
    subscriptFits subscript.position subscriptType
    elementType object.position type
  | .deref position object => do
    let type ← exprType context object
    pointeeType position type
  | .unwrap position object => do
    let type ← exprType context object
    unwrappedType position type
  | .assign _ operator target value =>
    assignType context operator target ⟨target.position, exprType context target⟩
      ⟨value.position, exprType context value⟩
  | .structLit position name values =>
    structLitType context position name (fieldParts context values)
  | .arrayLit position length elementExpr elements =>
    arrayLitType context position length elementExpr (parts context elements)

/-- Several expressions, checked one by one. -/
def parts (context : Context) : List Expr → List Part
  | [] => []
  | first :: rest => ⟨first.position, exprType context first⟩ :: parts context rest

/-- The values of several fields, checked one by one. -/
def fieldParts (context : Context) : List (Ident × Expr) → List (Ident × Part)
  | [] => []
  | (name, value) :: rest =>
    (name, ⟨value.position, exprType context value⟩) :: fieldParts context rest

end

end SystemsLang.Typing
