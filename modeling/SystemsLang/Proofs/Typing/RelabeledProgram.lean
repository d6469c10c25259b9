import SystemsLang.Proofs.Typing.RelabeledExpr

/-!
# Checking relabeled programs

Statements and declarations change the scopes, so for them the law is about two runs: the step for
the relabeled tree, begun in the relabeled scopes, ends in the relabeled scopes of the other run,
with its diagnostics relabeled, and it ends in a fault if the other one does. Steps put together
from such steps have the property again. So the diagnostics of a relabeled program are those of the
program, relabeled, one by one and in the order in which they are raised (`raised_program`).
-/

namespace SystemsLang.Typing

open Syntax Checker

namespace Relabeling

variable (labels : Relabeling)

/-- What a step leaves, relabeled. -/
def outcome {α β : Type} (change : α → β) (left : Outcome α) : Outcome β :=
  ⟨change left.value, labels.scopes left.scopes, left.reports.map labels.diagnostic⟩

/-- The second step does on relabeled scopes what the first does, relabeled. -/
def Mirrors {α β : Type} (change : α → β) (step : Checker α) (relabeled : Checker β) : Prop :=
  ∀ scopes, relabeled.run (labels.scopes scopes) = (step.run scopes).map (labels.outcome change)

variable {labels} {α α' β β' : Type}

/-- A value is mirrored by the relabeled value. -/
theorem mirrors_pure (change : α → β) (value : α) :
    labels.Mirrors change (pure value) (pure (change value)) :=
  fun _ => rfl

/-- Two steps in sequence are mirrored one after the other. -/
theorem mirrors_bind {changeFirst : α → α'} {change : β → β'} {first : Checker α}
    {firstRelabeled : Checker α'} {second : α → Checker β} {relabeled : α' → Checker β'}
    (mirrors : labels.Mirrors changeFirst first firstRelabeled)
    (follows : ∀ value, labels.Mirrors change (second value) (relabeled (changeFirst value))) :
    labels.Mirrors change (first >>= second) (firstRelabeled >>= relabeled) := by
  intro scopes
  have begins := mirrors scopes
  unfold Checker.run at begins ⊢
  simp only [bind, begins]
  cases first scopes with
  | error fault => rfl
  | ok before =>
    have ends : relabeled (changeFirst before.value) (labels.scopes before.scopes) =
        (second before.value before.scopes).map (labels.outcome change) :=
      follows before.value before.scopes
    simp only [Except.map, outcome] at ends ⊢
    rw [ends]
    cases second before.value before.scopes with
    | error fault => rfl
    | ok after => simp

/-- A step that looks at the scopes is mirrored by one that looks at the relabeled scopes. -/
theorem mirrors_check {change : α → β} {step : Scopes → Checked α}
    {relabeled : Scopes → Checked β}
    (follows : ∀ scopes, relabeled (labels.scopes scopes) = labels.checked change (step scopes)) :
    labels.Mirrors change (check step) (check relabeled) := by
  intro scopes
  rw [Checker.run, check, follows]
  rfl

/-- A step that changes the scopes is mirrored by one that changes the relabeled scopes so. -/
theorem mirrors_change {step relabeled : Scopes → Scopes}
    (follows : ∀ scopes, relabeled (labels.scopes scopes) = labels.scopes (step scopes)) :
    labels.Mirrors id (change step) (change relabeled) := by
  intro scopes
  rw [Checker.run, change, follows]
  rfl

variable (labels) in
/-- A report is mirrored by the relabeled report. -/
theorem mirrors_report (cause : Diagnostic.Cause) (position : Position) :
    labels.Mirrors id (report cause position)
      (report (labels.cause cause) (labels.place position)) :=
  mirrors_check fun _ => rfl

/-- Closing a scope is mirrored by closing it, and fails where no scope is open in both. -/
theorem mirrors_pop : labels.Mirrors id pop pop := by
  intro scopes
  obtain ⟨opened, global⟩ := scopes
  cases opened <;> rfl

/-- A step in a scope of its own is mirrored there. -/
theorem mirrors_inScope {step relabeled : Checker Unit}
    (mirrors : labels.Mirrors id step relabeled) :
    labels.Mirrors id (inScope step) (inScope relabeled) := by
  have opens : labels.Mirrors id push push := mirrors_change fun _ => rfl
  exact mirrors_bind opens fun _ => mirrors_bind mirrors fun _ => mirrors_pop

/-- One of two steps is mirrored by the step that is taken on the same condition. -/
theorem mirrors_ite {change : α → β} {condition : Bool} {first second : Checker α}
    {firstRelabeled secondRelabeled : Checker β}
    (whenTrue : labels.Mirrors change first firstRelabeled)
    (whenFalse : labels.Mirrors change second secondRelabeled) :
    labels.Mirrors change (if condition then first else second)
      (if condition then firstRelabeled else secondRelabeled) := by
  cases condition with
  | true => exact whenTrue
  | false => exact whenFalse

/-- A step for what is optional is mirrored. -/
theorem mirrors_optionally {change : α → β} {step : α → Checker Unit} {relabeled : β → Checker Unit}
    (mirrors : ∀ value, labels.Mirrors id (step value) (relabeled (change value)))
    (optional : Option α) :
    labels.Mirrors id (optionally step optional) (optionally relabeled (optional.map change)) := by
  cases optional with
  | none => exact mirrors_pure id ()
  | some value => exact mirrors value

/-- The innermost scope holds the relabeled symbol under the relabeled name. -/
@[simp] theorem local?_scopes (scopes : Scopes) (name : String) :
    (labels.scopes scopes).local? (labels.name name) =
      (scopes.local? name).map labels.symbol := by
  obtain ⟨opened, global⟩ := scopes
  cases opened with
  | nil => exact lookup_entries labels.symbol global name
  | cons innermost outer => exact lookup_entries labels.symbol innermost name

/-- A symbol is inserted in the same place. -/
theorem insert_scopes (scopes : Scopes) (name : String) (symbol : Symbol) :
    (labels.scopes scopes).insert (labels.name name) (labels.symbol symbol) =
      labels.scopes (scopes.insert name symbol) := by
  obtain ⟨opened, global⟩ := scopes
  cases opened <;> rfl

/-- The same symbol is marked as declared. -/
theorem markDeclared_scopes (scopes : Scopes) (name : String) :
    (labels.scopes scopes).markDeclared (labels.name name) =
      labels.scopes (scopes.markDeclared name) := by
  rw [Scopes.markDeclared, local?_scopes, Scopes.markDeclared]
  cases scopes.local? name with
  | none => rfl
  | some symbol => exact labels.insert_scopes scopes name { symbol with declared := true }

/-- A name is entered in the same place. -/
theorem enter_scopes (scopes : Scopes) (name : Ident) (type : Ty) (role : Role) (isConst : Bool) :
    (labels.scopes scopes).enter (labels.ident name) (labels.ty type) role isConst =
      labels.scopes (scopes.enter name type role isConst) := by
  have found := labels.lookup_scopes scopes name.name
  unfold Scopes.enter
  rw [ident, found, Option.isSome_map]
  split
  · rfl
  · exact labels.insert_scopes scopes name.name ⟨type, role, isConst, false, name.position⟩

/-- What the innermost scope holds is mirrored. -/
theorem mirrors_local (name : String) :
    labels.Mirrors (Option.map labels.symbol) (check fun scopes => pure (scopes.local? name))
      (check fun scopes => pure (scopes.local? (labels.name name))) := by
  refine mirrors_check fun scopes => ?_
  rw [local?_scopes, checked_pure]

/-- A name is taken after a relabeling exactly if it was before. -/
theorem mirrors_declare (name : String) (position : Position) (symbol : Symbol) :
    labels.Mirrors id (declare name position symbol)
      (declare (labels.name name) (labels.place position) (labels.symbol symbol)) := by
  refine mirrors_bind (labels.mirrors_local name) fun earlier => ?_
  have known : (earlier.map labels.symbol).any Symbol.declared = earlier.any Symbol.declared := by
    cases earlier <;> rfl
  rw [known]
  exact mirrors_ite (labels.mirrors_report (.duplicateDeclaration name) position)
    (mirrors_change fun scopes => labels.insert_scopes scopes name symbol)

/-- A declaration is come to under its relabeled name. -/
theorem mirrors_reach (name : String) (position : Position) :
    labels.Mirrors id (reach name position)
      (reach (labels.name name) (labels.place position)) := by
  refine mirrors_bind (labels.mirrors_local name) fun earlier => ?_
  have awaited : (earlier.map labels.symbol).any (fun symbol => !symbol.declared) =
      earlier.any fun symbol => !symbol.declared := by
    cases earlier <;> rfl
  rw [awaited]
  exact mirrors_ite (mirrors_change fun scopes => labels.markDeclared_scopes scopes name)
    (labels.mirrors_report (.duplicateDeclaration name) position)

/-- The type of a variable, stated or found, is relabeled. -/
theorem varType_checked (context : Context) (declared : VarDecl) (stated : Option Ty) :
    varType (labels.context context) (labels.varDecl declared) (stated.map labels.ty) =
      labels.checked labels.ty (varType context declared stated) := by
  obtain ⟨isPub, isConst, name, type, init, position⟩ := declared
  cases stated with
  | none =>
    cases init with
    | none => rfl
    | some init => exact labels.exprType_checked context init
  | some expected =>
    cases init with
    | none => rfl
    | some init =>
      dsimp only [varType, varDecl, Option.map_some]
      rw [exprType_checked, position_expr]
      refine Relabeling.checked_bind fun actual => ?_
      rw [expectCoercible_checked]
      exact Relabeling.checked_bind fun _ => rfl

/-- A local variable is mirrored by the relabeled one. -/
theorem mirrors_localVar (surroundings : Surroundings) (declared : VarDecl) :
    labels.Mirrors id (localVar surroundings declared)
      (localVar (labels.surroundings surroundings) (labels.varDecl declared)) := by
  have resolved := optionMapM_checked (labels.resolve_checked surroundings.registry)
    declared.type
  refine mirrors_bind (mirrors_check fun _ => resolved) fun stated => ?_
  refine mirrors_bind (mirrors_check fun scopes =>
    labels.varType_checked (surroundings.context scopes) declared stated) fun type => ?_
  exact labels.mirrors_declare declared.name.name declared.name.position (varSymbol declared type)

/-- Whether a type fits a condition does not depend on names. -/
theorem conditionFits_checked (position : Position) (type : Ty) :
    conditionFits (labels.place position) (labels.ty type) =
      labels.checked id (conditionFits position type) := by
  rw [conditionFits, mayBeBool_ty]
  exact labels.reportIf_checked _ (.nonBooleanCondition type) position

/-- A condition is mirrored by the relabeled one. -/
theorem mirrors_condition (surroundings : Surroundings) (value : Expr) :
    labels.Mirrors id (condition surroundings value)
      (condition (labels.surroundings surroundings) (labels.expr value)) := by
  refine mirrors_check fun scopes => ?_
  have typed := labels.exprType_checked (surroundings.context scopes) value
  rw [position_expr]
  exact typed ▸ Relabeling.checked_bind fun type => labels.conditionFits_checked value.position type

/-- An expression that is checked for its effect is mirrored by the relabeled one. -/
theorem mirrors_effect (surroundings : Surroundings) (value : Expr) :
    labels.Mirrors id (effect surroundings value)
      (effect (labels.surroundings surroundings) (labels.expr value)) := by
  refine mirrors_check fun scopes => ?_
  have typed := labels.exprType_checked (surroundings.context scopes) value
  exact typed ▸ rfl

/-- What is given back is mirrored by what is given back after the relabeling. -/
theorem mirrors_returnValue (surroundings : Surroundings) (position : Position)
    (value : Option Expr) :
    labels.Mirrors id (returnValue surroundings position value)
      (returnValue (labels.surroundings surroundings) (labels.place position)
        (value.map labels.expr)) := by
  have toVoid : (labels.surroundings surroundings).enclosing.result.isVoid =
      surroundings.enclosing.result.isVoid := isVoid_ty _
  have needs : needsValue (labels.surroundings surroundings).enclosing.result =
      needsValue surroundings.enclosing.result := needsValue_ty _
  cases value with
  | none =>
    dsimp only [returnValue, Option.map_none]
    rw [needs]
    exact mirrors_ite (labels.mirrors_report (.missingReturn surroundings.enclosing.name) position)
      (mirrors_pure id ())
  | some value =>
    refine mirrors_check fun scopes => ?_
    have typed := labels.exprType_checked (surroundings.context scopes) value
    rw [toVoid, position_expr]
    refine typed ▸ Relabeling.checked_bind fun actual => ?_
    split
    · exact labels.report_checked (.voidReturnValue surroundings.enclosing.name) position
    · exact labels.expectCoercible_checked value.position surroundings.enclosing.result actual

mutual

/-- The check of a relabeled statement mirrors that of the statement. -/
theorem mirrors_stmt (surroundings : Surroundings) (inLoop : Bool) (statement : Stmt) :
    labels.Mirrors id (Typing.stmt surroundings inLoop statement)
      (Typing.stmt (labels.surroundings surroundings) inLoop (labels.stmt statement)) := by
  cases statement with
  | block position body | comptime position body =>
    exact mirrors_inScope (mirrors_stmts surroundings inLoop body)
  | returns position value => exact labels.mirrors_returnValue surroundings position value
  | branch position test body otherwise =>
    rw [Relabeling.stmt, Typing.stmt, Typing.stmt]
    exact mirrors_bind (labels.mirrors_condition surroundings test) fun _ =>
      mirrors_bind (mirrors_inScope (mirrors_stmts surroundings inLoop body)) fun _ =>
        mirrors_optionalStmt surroundings inLoop otherwise
  | whileLoop position test body =>
    rw [Relabeling.stmt, Typing.stmt, Typing.stmt]
    exact mirrors_bind (labels.mirrors_condition surroundings test) fun _ =>
      mirrors_inScope (mirrors_stmts surroundings true body)
  | forLoop position init test step body =>
    rw [Relabeling.stmt, Typing.stmt, Typing.stmt]
    refine mirrors_inScope (mirrors_bind (mirrors_optionalStmt surroundings inLoop init)
      fun _ => ?_)
    refine mirrors_bind (mirrors_optionally (labels.mirrors_condition surroundings) test)
      fun _ => ?_
    exact mirrors_bind (mirrors_optionally (labels.mirrors_effect surroundings) step) fun _ =>
      mirrors_inScope (mirrors_stmts surroundings true body)
  | breakLoop position =>
    exact mirrors_ite (mirrors_pure id ()) (labels.mirrors_report .breakOutsideLoop position)
  | continueLoop position =>
    exact mirrors_ite (mirrors_pure id ()) (labels.mirrors_report .continueOutsideLoop position)
  | expr position value => exact labels.mirrors_effect surroundings value
  | declare position declared => exact labels.mirrors_localVar surroundings declared

/-- So does that of several statements. -/
theorem mirrors_stmts (surroundings : Surroundings) (inLoop : Bool) (statements : List Stmt) :
    labels.Mirrors id (Typing.stmts surroundings inLoop statements)
      (Typing.stmts (labels.surroundings surroundings) inLoop (labels.stmts statements)) := by
  match statements with
  | [] => exact mirrors_pure id ()
  | first :: rest =>
    rw [Relabeling.stmts, Typing.stmts, Typing.stmts]
    exact mirrors_bind (mirrors_stmt surroundings inLoop first) fun _ =>
      mirrors_stmts surroundings inLoop rest

/-- And that of a statement that may be absent. -/
theorem mirrors_optionalStmt (surroundings : Surroundings) (inLoop : Bool)
    (optional : Option Stmt) :
    labels.Mirrors id (Typing.optionalStmt surroundings inLoop optional)
      (Typing.optionalStmt (labels.surroundings surroundings) inLoop
        (labels.optionalStmt optional)) := by
  match optional with
  | none => exact mirrors_pure id ()
  | some statement => exact mirrors_stmt surroundings inLoop statement

end

mutual

/-- A relabeled statement surely returns if the statement does. -/
@[simp] theorem returns_stmt (statement : Stmt) :
    returns (labels.stmt statement) = returns statement := by
  cases statement with
  | block _ body | comptime _ body => exact anyReturns_stmts body
  | branch _ _ body otherwise =>
    cases otherwise with
    | none => rfl
    | some otherwise =>
      simp [Relabeling.stmt, Relabeling.optionalStmt, returns, anyReturns_stmts body,
        returns_stmt otherwise]
  | _ => rfl

/-- So do several statements. -/
@[simp] theorem anyReturns_stmts (statements : List Stmt) :
    anyReturns (labels.stmts statements) = anyReturns statements := by
  match statements with
  | [] => rfl
  | first :: rest =>
    simp [Relabeling.stmts, anyReturns, returns_stmt first, anyReturns_stmts rest]

end

/-- Parameters are declared under their relabeled names, with their relabeled types. -/
theorem mirrors_declareParams (params : List Param) (types : List Ty) :
    labels.Mirrors id (declareParams params types)
      (declareParams (params.map labels.param) (types.map labels.ty)) := by
  induction params generalizing types with
  | nil => cases types <;> exact mirrors_pure id ()
  | cons param params inductionHypothesis =>
    cases types with
    | nil => exact mirrors_pure id ()
    | cons type types =>
      exact mirrors_bind (labels.mirrors_declare param.name.name param.name.position _) fun _ =>
        inductionHypothesis types

/-- Checking a function is mirrored by checking the relabeled function. -/
theorem mirrors_fnDecl (registry : Registry) (declared : FnDecl) (params : List Ty)
    (result : Ty) :
    labels.Mirrors id (Typing.fnDecl registry declared params result)
      (Typing.fnDecl (labels.registry registry) (labels.fnDecl declared) (params.map labels.ty)
        (labels.ty result)) := by
  have missing : (needsValue (labels.ty result) && !anyReturns (labels.fnDecl declared).body) =
      (needsValue result && !anyReturns declared.body) := by
    rw [needsValue_ty, Relabeling.fnDecl, anyReturns_stmts]
  unfold Typing.fnDecl
  rw [missing]
  refine mirrors_bind (labels.mirrors_reach declared.name.name declared.name.position) fun _ => ?_
  refine mirrors_bind (mirrors_inScope ?_) fun _ => ?_
  · exact mirrors_bind (labels.mirrors_declareParams declared.params params) fun _ =>
      labels.mirrors_stmts ⟨registry, ⟨declared.name.name, result⟩⟩ false declared.body
  · exact mirrors_ite (labels.mirrors_report (.missingReturn declared.name.name) declared.position)
      (mirrors_pure id ())

/-- Checking a global variable is mirrored by checking the relabeled one. -/
theorem mirrors_globalVar (registry : Registry) (declared : VarDecl) (stated : Option Ty) :
    labels.Mirrors id (globalVar registry declared stated)
      (globalVar (labels.registry registry) (labels.varDecl declared)
        (stated.map labels.ty)) := by
  refine mirrors_bind (mirrors_check fun scopes =>
    labels.varType_checked ⟨registry, scopes, none⟩ declared stated) fun type => ?_
  exact labels.mirrors_declare declared.name.name declared.name.position (varSymbol declared type)

/-- Checking all declarations is mirrored, one by one. -/
theorem mirrors_decls (registry : Registry) (entered : List Entered) :
    labels.Mirrors id (decls registry entered)
      (decls (labels.registry registry) (entered.map labels.entered)) := by
  induction entered with
  | nil => exact mirrors_pure id ()
  | cons first rest inductionHypothesis =>
    cases first with
    | fn declared params result =>
      exact mirrors_bind (labels.mirrors_fnDecl registry declared params result) fun _ =>
        inductionHypothesis
    | var declared stated =>
      exact mirrors_bind (labels.mirrors_globalVar registry declared stated) fun _ =>
        inductionHypothesis
    | struct declared =>
      exact mirrors_bind (labels.mirrors_reach declared.name.name declared.name.position) fun _ =>
        inductionHypothesis

/-- A struct can be defined under its relabeled name exactly if it could be before. -/
theorem define?_registry (registry : Registry) (name : String) :
    (labels.registry registry).define? (labels.name name) =
      (registry.define? name).map labels.registry := by
  rw [Registry.define?, has_registry, Registry.define?]
  split <;> rfl

/-- The structs of a relabeled program are the relabeled ones of the program. -/
theorem defineStructs_program (registry : Registry) (scopes : Scopes) (program : Program) :
    defineStructs (labels.registry registry) (labels.scopes scopes) (labels.program program) =
      (labels.registry (defineStructs registry scopes program).1,
        labels.scopes (defineStructs registry scopes program).2.1,
        (defineStructs registry scopes program).2.2.map labels.structDecl) := by
  induction program generalizing registry scopes with
  | nil => rfl
  | cons declared rest inductionHypothesis =>
    rw [Relabeling.program, List.map_cons]
    cases declared with
    | fn declared => exact inductionHypothesis registry scopes
    | var declared => exact inductionHypothesis registry scopes
    | struct declared =>
      have defined := labels.define?_registry registry declared.name.name
      have entered := labels.enter_scopes scopes declared.name
        (.struct declared.name.name) .struct true
      dsimp only [decl, defineStructs]
      dsimp only [structDecl, ident] at defined ⊢
      rw [defined]
      cases registry.define? declared.name.name with
      | none => exact inductionHypothesis registry scopes
      | some extended =>
        have later := inductionHypothesis extended
          (scopes.enter declared.name (.struct declared.name.name) .struct true)
        rw [← entered, Relabeling.program] at later
        dsimp only [Option.map_some, ident, ty] at later ⊢
        rw [later]
        rfl

/-- The fields of a struct are relabeled, and repeated names are repeated still. -/
theorem fieldTypes_checked (registry : Registry) (earlier : Fields) (fields : List Field) :
    fieldTypes (labels.registry registry) (labels.fields earlier) (fields.map labels.field) =
      labels.checked labels.fields (fieldTypes registry earlier fields) := by
  induction fields generalizing earlier with
  | nil => rfl
  | cons field rest inductionHypothesis =>
    have resolved := labels.resolve_checked registry field.type
    have known : ((labels.fields earlier).lookup (labels.name field.name.name)).isSome =
        (earlier.lookup field.name.name).isSome := by
      rw [Relabeling.fields, lookup_entries, Option.isSome_map]
    rw [List.map_cons, fieldTypes, fieldTypes]
    change (do
      let type ← (labels.registry registry).resolve (labels.typeExpr field.type)
      if ((labels.fields earlier).lookup (labels.name field.name.name)).isSome then _ else _) = _
    rw [resolved, known]
    refine Relabeling.checked_bind fun type => ?_
    split
    · have reported := labels.report_checked
        (.duplicateDeclaration field.name.name) field.name.position
      exact reported ▸ Relabeling.checked_bind fun _ => inductionHypothesis earlier
    · have longer : labels.fields (earlier ++ [(field.name.name, type)]) =
          labels.fields earlier ++ [((labels.field field).name.name, labels.ty type)] :=
        List.map_append
      rw [← longer]
      exact inductionHypothesis (earlier ++ [(field.name.name, type)])

/-- Fields are set for the relabeled struct. -/
theorem setFields_registry (registry : Registry) (name : String) (fields : Fields) :
    (labels.registry registry).setFields (labels.name name) (labels.fields fields) =
      (registry.setFields name fields).map labels.registry := by
  rw [Registry.setFields, has_registry, Registry.setFields]
  split <;> rfl

/-- The structs of a relabeled program get the relabeled fields, or it ends in the same fault. -/
theorem defineFields_structs (registry : Registry) (defined : List StructDecl) :
    defineFields (labels.registry registry) (defined.map labels.structDecl) =
      (defineFields registry defined).map fun found =>
        (labels.registry found.1, found.2.map labels.diagnostic) := by
  induction defined generalizing registry with
  | nil => rfl
  | cons declared rest inductionHypothesis =>
    have typed := labels.fieldTypes_checked registry [] declared.fields
    have set := labels.setFields_registry registry declared.name.name
      (fieldTypes registry [] declared.fields).value
    have unfolded : (labels.structDecl declared).fields = declared.fields.map labels.field := rfl
    have nothing : labels.fields [] = [] := rfl
    rw [nothing] at typed
    rw [List.map_cons, defineFields, defineFields, unfolded, typed, value_checked]
    dsimp only [structDecl, ident]
    rw [set]
    cases registry.setFields declared.name.name (fieldTypes registry [] declared.fields).value with
    | error fault => rfl
    | ok extended =>
      dsimp only [Except.map, bind, Except.bind]
      rw [inductionHypothesis]
      cases defineFields extended rest with
      | error fault => rfl
      | ok found => simp [Except.map, checked, pure, Except.pure]

/-- What the first pass enters for a relabeled program is relabeled. -/
theorem enterDecls_checked (registry : Registry) (scopes : Scopes) (program : Program) :
    enterDecls (labels.registry registry) (labels.scopes scopes) (labels.program program) =
      labels.checked (fun found => (labels.scopes found.1, found.2.map labels.entered))
        (enterDecls registry scopes program) := by
  induction program generalizing scopes with
  | nil => rfl
  | cons declared rest inductionHypothesis =>
    rw [Relabeling.program, List.map_cons]
    cases declared with
    | fn declared =>
      have params : paramTypes (labels.registry registry) (declared.params.map labels.param) =
          labels.checked (List.map labels.ty) (paramTypes registry declared.params) := by
        unfold paramTypes
        refine mapM_checked (fun param => ?_) declared.params
        exact labels.resolve_checked registry param.type
      rw [decl, enterDecls, enterDecls]
      dsimp only [Relabeling.fnDecl]
      rw [params, resolve_checked]
      refine Relabeling.checked_bind fun params => Relabeling.checked_bind fun result => ?_
      have entered := labels.enter_scopes scopes declared.name
        (.function params result) .function true
      rw [ty, tys_eq_map] at entered
      rw [entered]
      have later := inductionHypothesis (scopes.enter declared.name (.function params result)
        .function true)
      exact later ▸ Relabeling.checked_bind fun _ => rfl
    | var declared =>
      have stated := optionMapM_checked (labels.resolve_checked registry)
        declared.type
      rw [decl, enterDecls, enterDecls]
      dsimp only [Relabeling.varDecl]
      rw [stated]
      refine Relabeling.checked_bind fun stated => ?_
      have type : (stated.map labels.ty).getD .unknown = labels.ty (stated.getD .unknown) := by
        cases stated <;> rfl
      rw [type, enter_scopes]
      have later := inductionHypothesis (scopes.enter declared.name (stated.getD .unknown) .var
        declared.isConst)
      exact later ▸ Relabeling.checked_bind fun _ => rfl
    | struct declared =>
      rw [decl, enterDecls, enterDecls]
      exact inductionHypothesis scopes ▸ Relabeling.checked_bind fun _ => rfl

/-- A relabeled program raises the diagnostics of the program, relabeled, in the same order, and it
ends in a fault if the program does. -/
theorem raised_program (program : Program) :
    raised (labels.program program) = (raised program).map (List.map labels.diagnostic) := by
  have structs : defineStructs Registry.empty Scopes.empty (labels.program program) = _ :=
    labels.defineStructs_program Registry.empty Scopes.empty program
  unfold raised
  rw [structs]
  generalize defineStructs Registry.empty Scopes.empty program = found
  obtain ⟨named, scopes, defined⟩ := found
  dsimp only
  rw [defineFields_structs]
  cases defineFields named defined with
  | error fault => rfl
  | ok found =>
    obtain ⟨registry, fieldReports⟩ := found
    dsimp only [Except.map, bind, Except.bind]
    rw [enterDecls_checked, value_checked, mirrors_decls]
    cases (decls registry (enterDecls registry scopes program).value.2).run
        (enterDecls registry scopes program).value.1 with
    | error fault => rfl
    | ok outcome => simp [Except.map, Relabeling.outcome, checked, pure, Except.pure]

end Relabeling

end SystemsLang.Typing
