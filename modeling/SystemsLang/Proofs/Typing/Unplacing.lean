import SystemsLang.Proofs.Layout.Unplaced
import SystemsLang.Proofs.Typing.Faultless
import SystemsLang.Proofs.Typing.RelabeledProgram

/-!
# Programs that differ in positions

No rule of the checker looks at a position except to put it into a diagnostic. So programs that are
equal up to positions raise diagnostics with the same causes in the same order. What is reported is
sorted by positions, and there the same causes may come in another order.

That positions do not matter is shown by moving them all to one place. This is a relabeling that
renames nothing, and `unplaced` is what it makes of a tree.
-/

namespace SystemsLang.Typing

open Syntax

/-- The relabeling that moves everything to the start of the text and renames nothing. -/
def Relabeling.unplacing : Relabeling where
  name := id
  place := fun _ => Position.start
  injective := Function.injective_id
  discard := rfl
  length := rfl

/-- The relabeling that moves positions as given and renames nothing. -/
def Relabeling.moving (place : Position → Position) : Relabeling :=
  { Relabeling.unplacing with place := place }

namespace Relabeling

/-- Moving a type expression to the start takes out its positions. -/
theorem typeExpr_unplacing (type : TypeExpr) : unplacing.typeExpr type = type.unplaced := by
  induction type with
  | primitive | named => rfl
  | pointer _ _ _ inductionHypothesis | array _ _ _ inductionHypothesis
  | slice _ _ _ inductionHypothesis | optional _ _ inductionHypothesis
  | errorUnion _ _ inductionHypothesis =>
    rw [typeExpr, TypeExpr.unplaced, inductionHypothesis]
    rfl

/-- The same for one that may be absent. -/
theorem map_typeExpr_unplacing (type : Option TypeExpr) :
    type.map unplacing.typeExpr = type.map TypeExpr.unplaced := by
  rw [funext typeExpr_unplacing]

mutual

/-- Moving an expression to the start takes out its positions. -/
theorem expr_unplacing (value : Expr) : unplacing.expr value = value.unplaced := by
  cases value with
  | number | string | bool | null | undefined | ident => rfl
  | binary _ _ left right =>
    rw [expr, Expr.unplaced, expr_unplacing left, expr_unplacing right]
    rfl
  | unary _ _ object | member _ object _ | deref _ object | unwrap _ object =>
    rw [expr, Expr.unplaced, expr_unplacing object]
    rfl
  | index _ first second | assign _ _ first second =>
    rw [expr, Expr.unplaced, expr_unplacing first, expr_unplacing second]
    rfl
  | call _ callee arguments =>
    rw [expr, Expr.unplaced, expr_unplacing callee, exprs_unplacing arguments]
    rfl
  | structLit _ _ values =>
    rw [expr, Expr.unplaced, fieldValues_unplacing values]
    rfl
  | arrayLit _ _ elementType elements =>
    rw [expr, Expr.unplaced, typeExpr_unplacing, exprs_unplacing elements]
    rfl

/-- The same for several expressions. -/
theorem exprs_unplacing (values : List Expr) :
    unplacing.exprs values = Expr.unplacedAll values := by
  match values with
  | [] => rfl
  | first :: rest =>
    rw [exprs, Expr.unplacedAll, expr_unplacing first, exprs_unplacing rest]

/-- The same for the values of fields. -/
theorem fieldValues_unplacing (values : List (Ident × Expr)) :
    unplacing.fieldValues values = Expr.unplacedFields values := by
  match values with
  | [] => rfl
  | (_, value) :: rest =>
    rw [fieldValues, Expr.unplacedFields, expr_unplacing value, fieldValues_unplacing rest]
    rfl

end

/-- The same for an expression that may be absent. -/
theorem map_expr_unplacing (value : Option Expr) :
    value.map unplacing.expr = value.map Expr.unplaced := by
  rw [funext expr_unplacing]

/-- Moving a variable declaration to the start takes out its positions. -/
theorem varDecl_unplacing (declared : VarDecl) :
    unplacing.varDecl declared = declared.unplaced := by
  rw [varDecl, map_typeExpr_unplacing, map_expr_unplacing]
  rfl

mutual

/-- Moving a statement to the start takes out its positions. -/
theorem stmt_unplacing (statement : Stmt) : unplacing.stmt statement = statement.unplaced := by
  cases statement with
  | block _ body | comptime _ body =>
    rw [stmt, Stmt.unplaced, stmts_unplacing body]
    rfl
  | returns _ value =>
    rw [stmt, Stmt.unplaced, map_expr_unplacing]
    rfl
  | branch _ condition body otherwise =>
    rw [stmt, Stmt.unplaced, expr_unplacing, stmts_unplacing body,
      optionalStmt_unplacing otherwise]
    rfl
  | whileLoop _ condition body =>
    rw [stmt, Stmt.unplaced, expr_unplacing, stmts_unplacing body]
    rfl
  | forLoop _ init condition step body =>
    rw [stmt, Stmt.unplaced, optionalStmt_unplacing init, map_expr_unplacing, map_expr_unplacing,
      stmts_unplacing body]
    rfl
  | breakLoop | continueLoop => rfl
  | expr _ value =>
    rw [stmt, Stmt.unplaced, expr_unplacing]
    rfl
  | declare _ declared =>
    rw [stmt, Stmt.unplaced, varDecl_unplacing]
    rfl

/-- The same for several statements. -/
theorem stmts_unplacing (statements : List Stmt) :
    unplacing.stmts statements = Stmt.unplacedAll statements := by
  match statements with
  | [] => rfl
  | first :: rest =>
    rw [stmts, Stmt.unplacedAll, stmt_unplacing first, stmts_unplacing rest]

/-- The same for a statement that may be absent. -/
theorem optionalStmt_unplacing (optional : Option Stmt) :
    unplacing.optionalStmt optional = Stmt.unplacedOption optional := by
  match optional with
  | none => rfl
  | some statement => rw [optionalStmt, Stmt.unplacedOption, stmt_unplacing statement]

end

/-- Moving a declaration to the start takes out its positions. -/
theorem decl_unplacing (declared : Decl) : unplacing.decl declared = declared.unplaced := by
  have param (given : Param) : unplacing.param given = given.unplaced := by
    rw [Relabeling.param, typeExpr_unplacing]
    rfl
  have field (given : Field) : unplacing.field given = given.unplaced := by
    rw [Relabeling.field, typeExpr_unplacing]
    rfl
  cases declared with
  | fn declared =>
    rw [decl, fnDecl, funext param, typeExpr_unplacing, stmts_unplacing]
    rfl
  | var declared =>
    rw [decl, varDecl_unplacing]
    rfl
  | struct declared =>
    rw [decl, structDecl, funext field]
    rfl

/-- Taking the positions out of a program is a relabeling. -/
theorem program_unplacing (declared : Program) :
    unplacing.program declared = declared.unplaced := by
  rw [program, funext decl_unplacing]
  rfl

mutual

/-- Types have no positions, and no name is changed. -/
theorem ty_unplacing (type : Ty) : unplacing.ty type = type := by
  cases type with
  | void | unknown | null | primitive | struct => rfl
  | function params result => rw [ty, tys_unplacing params, ty_unplacing result]
  | pointer _ inner | array _ inner | slice _ inner | optional inner | errorUnion inner =>
    rw [ty, ty_unplacing inner]

/-- The same for several types. -/
theorem tys_unplacing (types : List Ty) : unplacing.tys types = types := by
  match types with
  | [] => rfl
  | first :: rest => rw [tys, ty_unplacing first, tys_unplacing rest]

end

/-- The causes of diagnostics have no positions in them. -/
theorem cause_unplacing (cause : Diagnostic.Cause) : unplacing.cause cause = cause := by
  cases cause <;> simp only [Relabeling.cause, ty_unplacing] <;> rfl

/-- Nor have the types of a registry. -/
theorem registry_unplacing (registry : Registry) : unplacing.registry registry = registry := by
  have type : unplacing.ty = id := funext ty_unplacing
  have fields : unplacing.fields = id := by
    funext fields
    rw [Relabeling.fields, entries, type]
    exact List.map_id fields
  rw [Relabeling.registry, entries, fields]
  exact congrArg Registry.mk (List.map_id registry.structs)

end Relabeling

/-- A type expression is resolved to the same type without its positions. -/
theorem resolve_unplaced (registry : Registry) (type : TypeExpr) :
    registry.resolve type.unplaced =
      ⟨(registry.resolve type).value,
        (registry.resolve type).reports.map Relabeling.unplacing.diagnostic⟩ := by
  have relabeled := Relabeling.unplacing.resolve_checked registry type
  rw [Relabeling.registry_unplacing, Relabeling.typeExpr_unplacing, Relabeling.checked,
    Relabeling.ty_unplacing] at relabeled
  exact relabeled

variable {program other : Program}

/-- Programs that are equal up to positions raise diagnostics with the same causes in the same
order. -/
theorem causes_raised_of_unplaced {reports otherReports : List Diagnostic}
    (same : other.unplaced = program.unplaced) (ran : raised program = .ok reports)
    (otherRan : raised other = .ok otherReports) :
    otherReports.map Diagnostic.cause = reports.map Diagnostic.cause := by
  have causes (diagnostics : List Diagnostic) :
      (diagnostics.map Relabeling.unplacing.diagnostic).map Diagnostic.cause =
        diagnostics.map Diagnostic.cause := by
    rw [List.map_map]
    exact List.map_congr_left fun diagnostic _ => Relabeling.cause_unplacing diagnostic.cause
  have relabeled := Relabeling.unplacing.raised_program program
  have otherRelabeled := Relabeling.unplacing.raised_program other
  rw [Relabeling.program_unplacing, ran] at relabeled
  rw [Relabeling.program_unplacing, otherRan, same, relabeled] at otherRelabeled
  have equal := congrArg (List.map Diagnostic.cause) (Except.ok.inj otherRelabeled)
  rw [causes, causes] at equal
  exact equal.symm

/-- So they are reported with the same causes, in an order that depends on the positions. -/
theorem causes_check_of_unplaced (same : other.unplaced = program.unplaced) :
    ∃ reports otherReports, program.check = .ok reports ∧ other.check = .ok otherReports ∧
      (otherReports.map Diagnostic.cause).Perm (reports.map Diagnostic.cause) := by
  obtain ⟨reports, ran⟩ := raised_ends program
  obtain ⟨otherReports, otherRan⟩ := raised_ends other
  have causes := causes_raised_of_unplaced same ran otherRan
  have sorted (diagnostics : List Diagnostic) :
      ((Diagnostic.inOrder diagnostics).map Diagnostic.cause).Perm
        (diagnostics.map Diagnostic.cause) :=
    (List.mergeSort_perm diagnostics _).map Diagnostic.cause
  refine ⟨Diagnostic.inOrder reports, Diagnostic.inOrder otherReports, ?_, ?_, ?_⟩
  · rw [Program.check, ran]
    rfl
  · rw [Program.check, otherRan]
    rfl
  · have unsorted := sorted otherReports
    rw [causes] at unsorted
    exact unsorted.trans (sorted reports).symm

end SystemsLang.Typing
