import SystemsLang.Position
import SystemsLang.Typing.Ty

/-!
# Diagnostics

What checking reports: a cause and the position that it is found at. The wording of every cause is
in `Diagnostic.Cause.message`.
-/

namespace SystemsLang.Typing

/-- Why a program is not well typed. -/
inductive Diagnostic.Cause
  | undefinedVariable (name : String)
  | unknownType (name : String)
  | duplicateDeclaration (name : String)
  | missingTypeOrInit (name : String)
  | typeMismatch (expected actual : Ty)
  | nonNumericOperands (symbol : String) (left right : Ty)
  | incomparable (left right : Ty)
  | nonBooleanOperands (symbol : String) (left right : Ty)
  | nonNumericNegation (operand : Ty)
  | nonBooleanNot (operand : Ty)
  | notAFunction (name : String)
  | notCallable (callee : Ty)
  | argumentCount (expected actual : Nat)
  | argumentMismatch (place : Nat) (expected actual : Ty)
  | noMembers (object : Ty)
  | unknownField (struct field : String)
  | notIndexable (object : Ty)
  | nonIntegerIndex (subscript : Ty)
  | assignToConst (name : String)
  | missingReturn (function : String)
  | voidReturnValue (function : String)
  | nonBooleanCondition (condition : Ty)
  | breakOutsideLoop
  | continueOutsideLoop
  | missingField (struct field : String)
  | arrayLength (expected : UInt64) (actual : Nat)
  | notAPointer (object : Ty)
  | notAnOptional (object : Ty)
  | tryWithoutErrorUnion (operand : Ty)
  | tryOutsideErrorFunction (function : String)
deriving DecidableEq

/-- A cause and the position that it is found at. -/
structure Diagnostic where
  cause : Diagnostic.Cause
  position : Position
deriving DecidableEq

namespace Diagnostic

/-- A word of a message between single quotes. -/
def quote (text : String) : String :=
  "'" ++ text ++ "'"

namespace Cause

/-- The name of a cause in reports. -/
def name : Cause → String
  | undefinedVariable _ => "UndefinedVariable"
  | unknownType _ => "UnknownType"
  | duplicateDeclaration _ => "DuplicateDeclaration"
  | missingTypeOrInit _ => "MissingTypeOrInit"
  | typeMismatch .. => "TypeMismatch"
  | nonNumericOperands .. => "NonNumericOperands"
  | incomparable .. => "Incomparable"
  | nonBooleanOperands .. => "NonBooleanOperands"
  | nonNumericNegation _ => "NonNumericNegation"
  | nonBooleanNot _ => "NonBooleanNot"
  | notAFunction _ => "NotAFunction"
  | notCallable _ => "NotCallable"
  | argumentCount .. => "ArgumentCount"
  | argumentMismatch .. => "ArgumentMismatch"
  | noMembers _ => "NoMembers"
  | unknownField .. => "UnknownField"
  | notIndexable _ => "NotIndexable"
  | nonIntegerIndex _ => "NonIntegerIndex"
  | assignToConst _ => "AssignToConst"
  | missingReturn _ => "MissingReturn"
  | voidReturnValue _ => "VoidReturnValue"
  | nonBooleanCondition _ => "NonBooleanCondition"
  | breakOutsideLoop => "BreakOutsideLoop"
  | continueOutsideLoop => "ContinueOutsideLoop"
  | missingField .. => "MissingField"
  | arrayLength .. => "ArrayLength"
  | notAPointer _ => "NotAPointer"
  | notAnOptional _ => "NotAnOptional"
  | tryWithoutErrorUnion _ => "TryWithoutErrorUnion"
  | tryOutsideErrorFunction _ => "TryOutsideErrorFunction"

/-- What a message says of a type that was expected and one that was found instead. -/
def contrast (expected actual : Ty) : String :=
  "expected " ++ quote expected.text ++ ", got " ++ quote actual.text

/-- What a message says of the types on either side of an operator. -/
def operands (symbol kind : String) (left right : Ty) : String :=
  "Operator " ++ quote symbol ++ " requires " ++ kind ++ " operands, got " ++ quote left.text ++
    " and " ++ quote right.text

/-- The message that reports a cause. -/
def message : Cause → String
  | undefinedVariable name => "Undefined variable " ++ quote name
  | unknownType name => "Unknown type " ++ quote name
  | duplicateDeclaration name => "Duplicate declaration of " ++ quote name
  | missingTypeOrInit name =>
    "Variable " ++ quote name ++ " needs a type annotation or an initializer"
  | typeMismatch expected actual =>
    "Type mismatch: " ++ contrast expected actual
  | nonNumericOperands symbol left right => operands symbol "numeric" left right
  | incomparable left right => "Cannot compare " ++ quote left.text ++ " with " ++ quote right.text
  | nonBooleanOperands symbol left right => operands symbol "boolean" left right
  | nonNumericNegation operand =>
    "Unary '-' requires a numeric operand, got " ++ quote operand.text
  | nonBooleanNot operand => "Unary '!' requires a boolean operand, got " ++ quote operand.text
  | notAFunction name => quote name ++ " is not a function"
  | notCallable callee => "Cannot call value of type " ++ quote callee.text
  | argumentCount expected actual =>
    "Expected " ++ toString expected ++ " arguments, got " ++ toString actual
  | argumentMismatch place expected actual =>
    "Argument " ++ toString place ++ " type mismatch: " ++ contrast expected actual
  | noMembers object => "Type " ++ quote object.text ++ " has no members"
  | unknownField struct field => "Struct " ++ quote struct ++ " has no field " ++ quote field
  | notIndexable object => "Cannot index into type " ++ quote object.text
  | nonIntegerIndex subscript => "Index must be an integer, got " ++ quote subscript.text
  | assignToConst name => "Cannot assign to const " ++ quote name
  | missingReturn function => "Function " ++ quote function ++ " must return a value"
  | voidReturnValue function => "Void function " ++ quote function ++ " cannot return a value"
  | nonBooleanCondition condition =>
    "Condition must be of type 'bool', got " ++ quote condition.text
  | breakOutsideLoop => "'break' outside of a loop"
  | continueOutsideLoop => "'continue' outside of a loop"
  | missingField struct field =>
    "Missing field " ++ quote field ++ " in " ++ quote struct ++ " literal"
  | arrayLength expected actual =>
    "Expected " ++ toString expected.toNat ++ " array elements, got " ++ toString actual
  | notAPointer object => "Cannot dereference non-pointer type " ++ quote object.text
  | notAnOptional object => "Cannot unwrap non-optional type " ++ quote object.text
  | tryWithoutErrorUnion operand =>
    "'try' requires an error union, got " ++ quote operand.text
  | tryOutsideErrorFunction function =>
    "'try' used in function " ++ quote function ++ " that does not return an error union"

end Cause

/-- The message of a diagnostic. -/
def message (diagnostic : Diagnostic) : String :=
  diagnostic.cause.message

/-- The message behind the position that it belongs to. -/
def located (diagnostic : Diagnostic) : String :=
  diagnostic.position.text ++ ": " ++ diagnostic.message

/-- Diagnostics in reading order. Those at one position stay in the order they were reported in. -/
def inOrder (diagnostics : List Diagnostic) : List Diagnostic :=
  diagnostics.mergeSort fun first second => first.position.notAfter second.position

end Diagnostic

end SystemsLang.Typing
