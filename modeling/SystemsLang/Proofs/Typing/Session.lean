import SystemsLang.Typing.Program

/-!
# Checking in one session

The checker once more, as steps of a machine with a single state that every step may change: the
registry, the open scopes, the diagnostics so far, the function whose body is being checked and how
many loops are open around what is being checked. Nothing is handed down to the parts of a statement
or handed back but through that state, so opening and closing have to be balanced by the steps
themselves.

A run may end in a panic. Besides the two faults these are a pass that finds no signature or no
annotation left for a declaration, and a loop that is left without having been entered.

The rules for single forms of expressions, and the steps on scopes alone, are those of the checker.
That a session has the outcome of the checker is shown in the modules on its expressions and
programs; what a step leaves as it was, in the one on its statements.
-/

namespace SystemsLang.Typing

open Syntax

/-- The state of a session. -/
structure Session where
  registry : Registry
  scopes : Scopes
  reports : List Diagnostic
  enclosing : Option Enclosing
  loopDepth : Nat

namespace Session

/-- What no program may lead to. -/
inductive Panic
  | fault (fault : Fault)
  | signatureMissing
  | annotationMissing
  | loopNotEntered
deriving DecidableEq

/-- A step of a session. -/
abbrev Run (α : Type) : Type :=
  StateT Session (Except Panic) α

variable {α : Type}

/-- The session before anything was checked. -/
def initial : Session :=
  ⟨.empty, .empty, [], none, 0⟩

/-- What the type of an expression depends on at this point of the session. -/
def context (session : Session) : Context :=
  ⟨session.registry, session.scopes, session.enclosing⟩

/-- A session with further diagnostics. -/
def raising (session : Session) (reports : List Diagnostic) : Session :=
  { session with reports := session.reports ++ reports }

/-- Raises the diagnostics of a result. -/
def raise (found : Checked α) : Run α := fun session =>
  .ok (found.value, session.raising found.reports)

/-- Raises the diagnostics of a result that depends on the session. -/
def reading (found : Context → Checked α) : Run α := fun session =>
  raise (found session.context) session

/-- Looks something up in the session. -/
def asking (found : Context → α) : Run α :=
  reading fun context => pure (found context)

/-- A step on the scopes. -/
def onScopes (step : Checker α) : Run α := fun session =>
  match step.run session.scopes with
  | .error fault => .error (.fault fault)
  | .ok outcome =>
    .ok (outcome.value, { session with scopes := outcome.scopes }.raising outcome.reports)

/-- Runs a step in a scope of its own. -/
def inScope (step : Run Unit) : Run Unit := do
  onScopes Checker.push
  step
  onScopes Checker.pop

/-- Leaves a loop. -/
def leaveLoop : Run Unit := fun session =>
  match session.loopDepth with
  | 0 => .error .loopNotEntered
  | depth + 1 => .ok ((), { session with loopDepth := depth })

/-- Runs a step inside one loop more. -/
def inLoop (step : Run Unit) : Run Unit := do
  modify fun session => { session with loopDepth := session.loopDepth + 1 }
  step
  leaveLoop

/-- Runs a step inside a function and outside of all loops. What encloses the function is set aside
meanwhile. -/
def inFunction (enclosing : Enclosing) (step : Run Unit) : Run Unit := do
  let outer ← get
  set { outer with enclosing := some enclosing, loopDepth := 0 }
  step
  modify fun session =>
    { session with enclosing := outer.enclosing, loopDepth := outer.loopDepth }

mutual

/-- The type of an expression. -/
def expr : Expr → Run Ty
  | .number _ text => pure (if text.toList.contains '.' then .comptimeFloat else .comptimeInt)
  | .string .. => pure .string
  | .bool .. => pure .bool
  | .null _ => pure .null
  | .undefined _ => pure .unknown
  | .ident position name => reading fun context => identType context position name
  | .binary position operator left right => do
    let leftType ← expr left
    let rightType ← expr right
    raise (binaryType position operator leftType rightType)
  | .unary position operator operand => do
    let type ← expr operand
    reading fun context => unaryType context position operator operand type
  | .call position callee arguments => do
    match ← expr callee with
    | .function params result =>
      if arguments.length = params.length then exprsAgainst 1 arguments params
      else
        raise (Checked.report (.argumentCount params.length arguments.length) position)
        exprs (fun _ _ => pure ()) arguments
      return result
    | .unknown =>
      exprs (fun _ _ => pure ()) arguments
      return .unknown
    | other =>
      raise (Checked.report (calleeCause callee other) position)
      exprs (fun _ _ => pure ()) arguments
      return .unknown
  | .member _ object field => do
    let type ← expr object
    reading fun context => memberType context type field
  | .index _ object subscript => do
    let type ← expr object
    let subscriptType ← expr subscript
    raise (subscriptFits subscript.position subscriptType)
    raise (elementType object.position type)
  | .deref position object => do
    let type ← expr object
    raise (pointeeType position type)
  | .unwrap position object => do
    let type ← expr object
    raise (unwrappedType position type)
  | .assign _ operator target value =>
    if isDiscard operator target then do
      let _ ← expr value
      return .unknown
    else do
      reading fun context => assignableTarget context target
      let expected ← expr target
      let actual ← expr value
      raise (assignmentFits operator target.position value.position expected actual)
      return expected
  | .structLit position name values => do
    match ← asking fun context => context.registry.get? name.name with
    | none =>
      raise (Checked.report (.unknownType name.name) name.position)
      fieldValues (fun _ _ _ => pure ()) values
      return .unknown
    | some fields =>
      fieldValues (fieldFits name.name fields) values
      fields.forM fun field =>
        raise (Checked.reportIf (!values.any fun value => value.1.name == field.1)
          (.missingField name.name field.1) position)
      return .struct name.name
  | .arrayLit position length elementExpr elements => do
    let element ← reading fun context => context.registry.resolve elementExpr
    exprs (fun position actual => expectCoercible position element actual) elements
    raise (lengthFits position length elements.length)
    return .array (length.getD (UInt64.ofNat elements.length)) element

/-- Several expressions, the type of each against a rule. -/
def exprs (rule : Position → Ty → Checked Unit) : List Expr → Run Unit
  | [] => pure ()
  | first :: rest => do
    let type ← expr first
    raise (rule first.position type)
    exprs rule rest

/-- Arguments against the types of the parameters, the first argument at the given place. -/
def exprsAgainst (place : Nat) : List Expr → List Ty → Run Unit
  | first :: rest, expected :: params => do
    let actual ← expr first
    raise (Checked.reportIf (!actual.coercesTo expected) (.argumentMismatch place expected actual)
      first.position)
    exprsAgainst (place + 1) rest params
  | _, _ => pure ()

/-- The values of several fields, each against a rule for the field. -/
def fieldValues (rule : Ident → Position → Ty → Checked Unit) : List (Ident × Expr) → Run Unit
  | [] => pure ()
  | (name, value) :: rest => do
    let type ← expr value
    raise (rule name value.position type)
    fieldValues rule rest

end

/-- The type of a variable, from its annotation if it has one and else from its initializer. -/
def varType (declared : VarDecl) (stated : Option Ty) : Run Ty := do
  let init ← declared.init.mapM fun init => return (init.position, ← expr init)
  match stated, init with
  | some expected, some (position, actual) =>
    raise (expectCoercible position expected actual)
    return expected
  | some type, none => return type
  | none, some (_, type) => return type
  | none, none =>
    raise (Checked.unknownAfter (.missingTypeOrInit declared.name.name) declared.position)

/-- Checks a variable whose annotation was resolved before, and declares it. -/
def annotatedVar (declared : VarDecl) (stated : Option Ty) : Run Unit := do
  let type ← varType declared stated
  onScopes (Checker.declare declared.name.name declared.name.position (varSymbol declared type))

/-- Checks a variable and declares it. -/
def varDecl (declared : VarDecl) : Run Unit := do
  let stated ← reading fun context => declared.type.mapM context.registry.resolve
  annotatedVar declared stated

/-- Checks a condition. -/
def condition (value : Expr) : Run Unit := do
  let type ← expr value
  raise (conditionFits value.position type)

/-- Checks an expression for its diagnostics alone. -/
def effect (value : Expr) : Run Unit := do
  let _ ← expr value

/-- Checks what the given function gives back. -/
def givenBack (enclosing : Enclosing) (position : Position) : Option Expr → Run Unit
  | some value => do
    let actual ← expr value
    if enclosing.result.isVoid then
      raise (Checked.report (.voidReturnValue enclosing.name) position)
    else raise (expectCoercible value.position enclosing.result actual)
  | none =>
    if needsValue enclosing.result then
      raise (Checked.report (.missingReturn enclosing.name) position)
    else pure ()

/-- Checks what is given back by the function that is being checked, if there is one. -/
def returnValue (position : Position) (value : Option Expr) : Run Unit := do
  match (← get).enclosing with
  | none => pure ()
  | some enclosing => givenBack enclosing position value

/-- A diagnostic of what must stand inside a loop. -/
def jump (cause : Diagnostic.Cause) (position : Position) : Run Unit := do
  if (← get).loopDepth = 0 then raise (Checked.report cause position)

/-- A step for what is optional. -/
def optionally (step : α → Run Unit) : Option α → Run Unit
  | some value => step value
  | none => pure ()

mutual

/-- Checks a statement. -/
def stmt : Stmt → Run Unit
  | .block _ body => inScope (stmts body)
  | .comptime _ body => inScope (stmts body)
  | .returns position value => returnValue position value
  | .branch _ test body otherwise => do
    condition test
    inScope (stmts body)
    optionalStmt otherwise
  | .whileLoop _ test body => do
    condition test
    inLoop (inScope (stmts body))
  | .forLoop _ init test step body => inScope do
    optionalStmt init
    optionally condition test
    optionally effect step
    inLoop (inScope (stmts body))
  | .breakLoop position => jump .breakOutsideLoop position
  | .continueLoop position => jump .continueOutsideLoop position
  | .expr _ value => effect value
  | .declare _ declared => varDecl declared

/-- Checks several statements one after the other. -/
def stmts : List Stmt → Run Unit
  | [] => pure ()
  | first :: rest => do
    stmt first
    stmts rest

/-- Checks a statement that may be absent. -/
def optionalStmt : Option Stmt → Run Unit
  | some inner => stmt inner
  | none => pure ()

end

/-- Checks a block. -/
def block (body : Block) : Run Unit :=
  inScope (stmts body)

/-- The types of the parameters of a function and the type of its result. -/
structure Signature where
  params : List Ty
  result : Ty

/-- Checks a function. Its parameters and the outermost statements of its body share a scope. -/
def fnDecl (declared : FnDecl) (signature : Signature) : Run Unit := do
  onScopes (Checker.reach declared.name.name declared.name.position)
  inScope do
    onScopes (declareParams declared.params signature.params)
    inFunction ⟨declared.name.name, signature.result⟩ (stmts declared.body)
  if needsValue signature.result && !anyReturns declared.body then
    raise (Checked.report (.missingReturn declared.name.name) declared.position)

/-- Enters a global name ahead of its declaration. -/
def enter (name : Ident) (type : Ty) (role : Role) (isConst : Bool) : Run Unit :=
  onScopes (Checker.change fun scopes => scopes.enter name type role isConst)

/-- Defines the structs of a program, and gives the declarations that define them. -/
def defineStructs : Program → Run (List StructDecl)
  | [] => return []
  | .struct declared :: rest => do
    match (← get).registry.define? declared.name.name with
    | some extended =>
      modify fun session => { session with registry := extended }
      enter declared.name (.struct declared.name.name) .struct true
      return declared :: (← defineStructs rest)
    | none => defineStructs rest
  | _ :: rest => defineStructs rest

/-- Gives a struct its fields. -/
def setFields (name : String) (fields : Fields) : Run Unit := fun session =>
  match session.registry.setFields name fields with
  | .error fault => .error (.fault fault)
  | .ok extended => .ok ((), { session with registry := extended })

/-- Gives every struct its fields. -/
def defineFields : List StructDecl → Run Unit
  | [] => pure ()
  | declared :: rest => do
    let fields ← reading fun context => fieldTypes context.registry [] declared.fields
    setFields declared.name.name fields
    defineFields rest

/-- Enters the functions and global variables of a program. Gives the signatures of the functions
and the annotations of the variables, each in order. -/
def enterDecls : Program → Run (List Signature × List (Option Ty))
  | [] => return ([], [])
  | .fn declared :: rest => do
    let params ← reading fun context => paramTypes context.registry declared.params
    let result ← reading fun context => context.registry.resolve declared.returnType
    enter declared.name (.function params result) .function true
    let (signatures, annotations) ← enterDecls rest
    return (⟨params, result⟩ :: signatures, annotations)
  | .var declared :: rest => do
    let stated ← reading fun context => declared.type.mapM context.registry.resolve
    enter declared.name (stated.getD .unknown) .var declared.isConst
    let (signatures, annotations) ← enterDecls rest
    return (signatures, stated :: annotations)
  | .struct _ :: rest => enterDecls rest

/-- Checks the declarations of a program, each with the next signature or annotation. -/
def decls : Program → List Signature → List (Option Ty) → Run Unit
  | [], _, _ => pure ()
  | .fn declared :: rest, signature :: signatures, annotations => do
    fnDecl declared signature
    decls rest signatures annotations
  | .fn _ :: _, [], _ => throw .signatureMissing
  | .var declared :: rest, signatures, stated :: annotations => do
    annotatedVar declared stated
    decls rest signatures annotations
  | .var _ :: _, _, [] => throw .annotationMissing
  | .struct declared :: rest, signatures, annotations => do
    onScopes (Checker.reach declared.name.name declared.name.position)
    decls rest signatures annotations

/-- Both passes over a program. -/
def program (declarations : Program) : Run Unit := do
  let defined ← defineStructs declarations
  defineFields defined
  let (signatures, annotations) ← enterDecls declarations
  decls declarations signatures annotations

/-- The diagnostics of a session over a program, in reading order. -/
def check (declarations : Program) : Except Panic (List Diagnostic) := do
  let (_, session) ← (program declarations).run initial
  return Diagnostic.inOrder session.reports

end Session

end SystemsLang.Typing
