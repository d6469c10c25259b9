import SystemsLang.Typing.Checker
import SystemsLang.Typing.Expr

/-!
# Checking statements

A statement is checked inside a function and either inside a loop or not. Blocks and the header of
a `for` open a scope and close it again; a variable is declared in the innermost scope once its
initializer was checked.
-/

namespace SystemsLang.Typing

open Syntax Checker

/-- What the statements of one function body share. -/
structure Surroundings where
  registry : Registry
  enclosing : Enclosing

/-- The context of the expressions that stand in the given scopes. -/
def Surroundings.context (surroundings : Surroundings) (scopes : Scopes) : Context :=
  ⟨surroundings.registry, scopes, some surroundings.enclosing⟩

/-- Whether a function with a result of the given type has to give back a value. -/
def needsValue : Ty → Bool
  | .void | .unknown => false
  | .errorUnion inner => !inner.isVoid
  | .primitive name => name != "noreturn"
  | _ => true

mutual

/-- Whether a statement surely returns. Of an `if` both branches have to, and a loop never does. -/
def returns : Stmt → Bool
  | .returns .. => true
  | .block _ body => anyReturns body
  | .comptime _ body => anyReturns body
  | .branch _ _ body (some otherwise) => anyReturns body && returns otherwise
  | _ => false

/-- Whether one of several statements surely returns. -/
def anyReturns : List Stmt → Bool
  | [] => false
  | first :: rest => returns first || anyReturns rest

end

/-- The type of a variable, from its annotation if it has one and else from its initializer. -/
def varType (context : Context) (declared : VarDecl) (stated : Option Ty) : Checked Ty := do
  match stated, declared.init with
  | some expected, some init =>
    let actual ← exprType context init
    expectCoercible init.position expected actual
    return expected
  | some expected, none => return expected
  | none, some init => exprType context init
  | none, none =>
    Checked.unknownAfter (.missingTypeOrInit declared.name.name) declared.position

/-- The symbol of a variable that has been declared. -/
def varSymbol (declared : VarDecl) (type : Ty) : Symbol :=
  ⟨type, .var, declared.isConst, true, declared.position⟩

/-- Checks a variable inside a function and declares it. -/
def localVar (surroundings : Surroundings) (declared : VarDecl) : Checker Unit := do
  let stated ← check fun _ => declared.type.mapM surroundings.registry.resolve
  let type ← check fun scopes => varType (surroundings.context scopes) declared stated
  declare declared.name.name declared.name.position (varSymbol declared type)

/-- The type of a condition has to be `bool`. -/
def conditionFits (position : Position) (type : Ty) : Checked Unit :=
  Checked.reportIf (!mayBeBool type) (.nonBooleanCondition type) position

/-- Checks a condition. -/
def condition (surroundings : Surroundings) (value : Expr) : Checker Unit :=
  check fun scopes => do
    let type ← exprType (surroundings.context scopes) value
    conditionFits value.position type

/-- Checks an expression for its diagnostics alone. -/
def effect (surroundings : Surroundings) (value : Expr) : Checker Unit :=
  check fun scopes => Checked.ignore (exprType (surroundings.context scopes) value)

/-- Checks what a function gives back. -/
def returnValue (surroundings : Surroundings) (position : Position) (value : Option Expr) :
    Checker Unit :=
  let enclosing := surroundings.enclosing
  match value with
  | some value => check fun scopes => do
    let actual ← exprType (surroundings.context scopes) value
    if enclosing.result.isVoid then
      Checked.report (.voidReturnValue enclosing.name) position
    else expectCoercible value.position enclosing.result actual
  | none =>
    if needsValue enclosing.result then report (.missingReturn enclosing.name) position
    else pure ()

/-- A step for what is optional. -/
def optionally {α : Type} (step : α → Checker Unit) : Option α → Checker Unit
  | some value => step value
  | none => pure ()

mutual

/-- Checks a statement. -/
def stmt (surroundings : Surroundings) (inLoop : Bool) : Stmt → Checker Unit
  | .block _ body => inScope (stmts surroundings inLoop body)
  | .comptime _ body => inScope (stmts surroundings inLoop body)
  | .returns position value => returnValue surroundings position value
  | .branch _ test body otherwise => do
    condition surroundings test
    inScope (stmts surroundings inLoop body)
    optionalStmt surroundings inLoop otherwise
  | .whileLoop _ test body => do
    condition surroundings test
    inScope (stmts surroundings true body)
  | .forLoop _ init test step body => inScope do
    optionalStmt surroundings inLoop init
    optionally (condition surroundings) test
    optionally (effect surroundings) step
    inScope (stmts surroundings true body)
  | .breakLoop position => if inLoop then pure () else report .breakOutsideLoop position
  | .continueLoop position => if inLoop then pure () else report .continueOutsideLoop position
  | .expr _ value => effect surroundings value
  | .declare _ declared => localVar surroundings declared

/-- Checks several statements one after the other. -/
def stmts (surroundings : Surroundings) (inLoop : Bool) : List Stmt → Checker Unit
  | [] => pure ()
  | first :: rest => do
    stmt surroundings inLoop first
    stmts surroundings inLoop rest

/-- Checks a statement that may be absent. -/
def optionalStmt (surroundings : Surroundings) (inLoop : Bool) : Option Stmt → Checker Unit
  | some inner => stmt surroundings inLoop inner
  | none => pure ()

end

end SystemsLang.Typing
