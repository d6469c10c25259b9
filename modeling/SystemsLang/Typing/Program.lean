import SystemsLang.Typing.Stmt

/-!
# Checking programs

A program is checked in two passes. The first enters every struct, function and global variable into
the global scope, so that each may be used before its declaration: the names of all structs first,
then their fields, then the functions and variables, whose types may name any struct. The second
pass reaches the declarations in order and checks the bodies of functions and the initializers of
variables. A global variable without an annotation has the unknown type until its initializer was
checked.

A name that is entered by several declarations belongs to the first; the second pass reports each
further one.
-/

namespace SystemsLang.Typing

open Syntax

/-- A declaration with what the first pass found out about it. -/
inductive Entered
  | fn (declared : FnDecl) (params : List Ty) (result : Ty)
  | var (declared : VarDecl) (stated : Option Ty)
  | struct (declared : StructDecl)

/-- Enters a global name ahead of its declaration. The first entry of a name stays. -/
def Scopes.enter (scopes : Scopes) (name : Ident) (type : Ty) (role : Role) (isConst : Bool) :
    Scopes :=
  if (scopes.lookup? name.name).isSome then scopes
  else scopes.insert name.name ⟨type, role, isConst, false, name.position⟩

/-- The registry and the global scope with the structs of a program, still without fields, and the
declarations that define them. A second struct of one name defines nothing. -/
def defineStructs (registry : Registry) (scopes : Scopes) :
    Program → Registry × Scopes × List StructDecl
  | [] => (registry, scopes, [])
  | .struct declared :: rest =>
    let name := declared.name.name
    match registry.define? name with
    | some extended =>
      let entered := scopes.enter declared.name (.struct name) .struct true
      let (registry, scopes, defined) := defineStructs extended entered rest
      (registry, scopes, declared :: defined)
    | none => defineStructs registry scopes rest
  | _ :: rest => defineStructs registry scopes rest

/-- The fields of a struct with their types. A field with the name of an earlier one is reported and
left out; the first argument holds those that came before. -/
def fieldTypes (registry : Registry) (earlier : Fields) : List Field → Checked Fields
  | [] => pure earlier
  | field :: rest => do
    let type ← registry.resolve field.type
    if (earlier.lookup field.name.name).isSome then
      Checked.report (.duplicateDeclaration field.name.name) field.name.position
      fieldTypes registry earlier rest
    else fieldTypes registry (earlier ++ [(field.name.name, type)]) rest

/-- Gives every struct its fields. -/
def defineFields (registry : Registry) : List StructDecl →
    Except Fault (Registry × List Diagnostic)
  | [] => .ok (registry, [])
  | declared :: rest => do
    let fields := fieldTypes registry [] declared.fields
    let extended ← registry.setFields declared.name.name fields.value
    let (final, reports) ← defineFields extended rest
    return (final, fields.reports ++ reports)

/-- The types of several parameters. -/
def paramTypes (registry : Registry) (params : List Param) : Checked (List Ty) :=
  params.mapM fun param => registry.resolve param.type

/-- Enters the functions and global variables of a program, and resolves what they are declared
with. -/
def enterDecls (registry : Registry) (scopes : Scopes) : Program →
    Checked (Scopes × List Entered)
  | [] => pure (scopes, [])
  | .fn declared :: rest => do
    let params ← paramTypes registry declared.params
    let result ← registry.resolve declared.returnType
    let entered := scopes.enter declared.name (.function params result) .function true
    let (final, later) ← enterDecls registry entered rest
    return (final, .fn declared params result :: later)
  | .var declared :: rest => do
    let stated ← declared.type.mapM registry.resolve
    let entered := scopes.enter declared.name (stated.getD .unknown) .var declared.isConst
    let (final, later) ← enterDecls registry entered rest
    return (final, .var declared stated :: later)
  | .struct declared :: rest => do
    let (final, later) ← enterDecls registry scopes rest
    return (final, .struct declared :: later)

/-- Declares the parameters of a function in the scope of its body. -/
def declareParams : List Param → List Ty → Checker Unit
  | param :: params, type :: types => do
    Checker.declare param.name.name param.name.position
      ⟨type, .parameter, true, true, param.position⟩
    declareParams params types
  | _, _ => pure ()

/-- Checks a function. Its parameters and the outermost statements of its body share a scope. -/
def fnDecl (registry : Registry) (declared : FnDecl) (params : List Ty) (result : Ty) :
    Checker Unit := do
  Checker.reach declared.name.name declared.name.position
  Checker.inScope do
    declareParams declared.params params
    stmts ⟨registry, ⟨declared.name.name, result⟩⟩ false declared.body
  if needsValue result && !anyReturns declared.body then
    Checker.report (.missingReturn declared.name.name) declared.position

/-- Checks a global variable and declares it. -/
def globalVar (registry : Registry) (declared : VarDecl) (stated : Option Ty) :
    Checker Unit := do
  let type ← Checker.check fun scopes => varType ⟨registry, scopes, none⟩ declared stated
  Checker.declare declared.name.name declared.name.position (varSymbol declared type)

/-- Checks the declarations of a program one after the other. -/
def decls (registry : Registry) : List Entered → Checker Unit
  | [] => pure ()
  | .fn declared params result :: rest => do
    fnDecl registry declared params result
    decls registry rest
  | .var declared stated :: rest => do
    globalVar registry declared stated
    decls registry rest
  | .struct declared :: rest => do
    Checker.reach declared.name.name declared.name.position
    decls registry rest

/-- The diagnostics of a program in the order in which they are raised. -/
def raised (program : Program) : Except Fault (List Diagnostic) := do
  let (named, structScopes, defined) := defineStructs Registry.empty Scopes.empty program
  let (registry, fieldReports) ← defineFields named defined
  let entered := enterDecls registry structScopes program
  let outcome ← (decls registry entered.value.2).run entered.value.1
  return fieldReports ++ entered.reports ++ outcome.reports

end SystemsLang.Typing

namespace SystemsLang.Syntax

/-- The diagnostics of a program in reading order. -/
def Program.check (program : Program) : Except Typing.Fault (List Typing.Diagnostic) :=
  (Typing.raised program).map Typing.Diagnostic.inOrder

end SystemsLang.Syntax
