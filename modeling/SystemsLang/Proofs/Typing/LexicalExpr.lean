import SystemsLang.Proofs.Typing.RuleChecks
import SystemsLang.Proofs.Typing.Sites

/-!
# Lexical diagnostics of expressions

The lexical diagnostics are those of any kind that the text alone decides: undefined names,
assignments to what must not be assigned to, repeated declarations, and jumps outside of loops.

The rules of the single forms of expressions only look at types, so they raise no lexical
diagnostics, and whatever they find, all parts of the form are checked once. What remains are the
uses of names: the lexical diagnostics of an expression are those of its uses, in order
(`lexical_exprType`).
-/

namespace SystemsLang.Typing

open Syntax Checked

/-- Whether the text alone decides if a diagnostic of the cause is raised. -/
@[simp] def Diagnostic.Cause.isLexical (cause : Diagnostic.Cause) : Bool :=
  cause.lexicalKind?.isSome

/-- The lexical ones of several diagnostics. -/
def lexical (reports : List Diagnostic) : List Diagnostic :=
  reports.filter fun diagnostic => diagnostic.cause.isLexical

variable {context : Context} {position : Position} {type : Ty}

/-- Of nothing that is raised nothing is lexical. -/
@[simp] theorem lexical_nil : lexical [] = [] := rfl

/-- What is lexical in a row of diagnostics is so in its parts. -/
@[simp] theorem lexical_append (first second : List Diagnostic) :
    lexical (first ++ second) = lexical first ++ lexical second :=
  List.filter_append first second

/-- A diagnostic that is reported is lexical if its cause is. -/
@[simp] theorem lexical_report (cause : Diagnostic.Cause) (position : Position) :
    lexical (report cause position).reports =
      if cause.isLexical then [⟨cause, position⟩] else [] := by
  cases decided : cause.isLexical <;>
    simp [lexical, report, decided, -Diagnostic.Cause.isLexical]

/-- A diagnostic behind which the type is unknown is lexical if its cause is. -/
@[simp] theorem lexical_unknownAfter (cause : Diagnostic.Cause) (position : Position) :
    lexical (unknownAfter cause position).reports =
      if cause.isLexical then [⟨cause, position⟩] else [] := by
  rw [unknownAfter, reports_bind, reports_pure, List.append_nil, lexical_report]

/-- A diagnostic that is reported on a condition is lexical if its cause is. -/
@[simp] theorem lexical_reportIf (condition : Bool) (cause : Diagnostic.Cause)
    (position : Position) :
    lexical (reportIf condition cause position).reports =
      if condition && cause.isLexical then [⟨cause, position⟩] else [] := by
  cases condition
  · rfl
  · exact lexical_report cause position

/-- Ignoring a type ignores no diagnostic. -/
@[simp] theorem lexical_ignore {α : Type} (checked : Checked α) :
    lexical (ignore checked).reports = lexical checked.reports := rfl

/-- What several steps raise, if no single one raises anything lexical. -/
theorem lexical_sequence {steps : List (Checked Unit)}
    (none : ∀ step ∈ steps, lexical step.reports = []) :
    lexical (Checked.sequence steps).reports = [] := by
  unfold Checked.sequence
  induction steps with
  | nil => rfl
  | cons first rest inductionHypothesis =>
    obtain ⟨head, tail⟩ := List.forall_mem_cons.mp none
    rw [List.flatMap_cons, lexical_append, head, inductionHypothesis tail, List.append_nil]

/-- Resolving a type expression raises nothing lexical. -/
theorem lexical_resolve (registry : Registry) (type : TypeExpr) :
    lexical (registry.resolve type).reports = [] := by
  induction type with
  | primitive => rfl
  | named position name =>
    rw [Registry.resolve]
    split
    · rfl
    · simp
  | pointer _ _ _ inductionHypothesis | array _ _ _ inductionHypothesis
  | slice _ _ _ inductionHypothesis | optional _ _ inductionHypothesis
  | errorUnion _ _ inductionHypothesis => simp [Registry.resolve, inductionHypothesis]

/-- A mismatch of types is not lexical. -/
theorem lexical_expectCoercible (expected actual : Ty) :
    lexical (expectCoercible position expected actual).reports = [] := by
  simp [expectCoercible]

/-- The rule for binary operators looks at the types of both operands only. -/
theorem lexical_binaryType (operator : BinaryOp) (left right : Ty) :
    lexical (binaryType position operator left right).reports = [] := by
  unfold binaryType
  split
  · split <;> simp
  · simp
  · simp

/-- The rule for `try` looks at types and at the enclosing function only. -/
theorem lexical_attemptType :
    lexical (attemptType context position type).reports = [] := by
  have allowed : lexical (attemptAllowed context position).reports = [] := by
    unfold attemptAllowed
    split <;> simp
  have taken : lexical (attemptedType position type).reports = [] := by
    cases type <;> simp [attemptedType]
  rw [attemptType, reports_bind, lexical_append, allowed, taken, List.append_nil]

/-- The rules for unary operators look at the type of the operand only. -/
theorem lexical_unaryType (operator : UnaryOp) (operand : Expr) :
    lexical (unaryType context position operator operand type).reports = [] := by
  cases operator with
  | negate =>
    unfold unaryType
    dsimp only
    split <;> simp
  | not => simp [unaryType]
  | addressOf => rfl
  | attempt => exact lexical_attemptType

/-- The rule for members looks at the type and the name of the member only. -/
theorem lexical_memberType (field : Ident) :
    lexical (memberType context type field).reports = [] := by
  unfold memberType
  split
  · split
    · split <;> simp
    · rfl
  · rfl
  · split <;> simp

/-- The rule for elements looks at a type only. -/
theorem lexical_elementType : lexical (elementType position type).reports = [] := by
  unfold elementType
  split <;> simp

/-- The rule for subscripts looks at a type only. -/
theorem lexical_subscriptFits : lexical (subscriptFits position type).reports = [] := by
  simp [subscriptFits]

/-- The rule for dereferences looks at a type only. -/
theorem lexical_pointeeType : lexical (pointeeType position type).reports = [] := by
  unfold pointeeType
  split <;> simp

/-- The rule for unwrapping looks at a type only. -/
theorem lexical_unwrappedType : lexical (unwrappedType position type).reports = [] := by
  unfold unwrappedType
  split <;> simp

/-- Whether a value may be assigned to a target is decided by the types of both. -/
theorem lexical_assignmentFits (operator : Option BinaryOp) (targetPosition : Position)
    (expected actual : Ty) :
    lexical (assignmentFits operator targetPosition position expected actual).reports = [] := by
  unfold assignmentFits
  split
  · split
    · exact lexical_expectCoercible expected actual
    · simp
  · exact lexical_expectCoercible expected actual

/-- Whether a value fits a field is decided by its type and the fields of the struct. -/
theorem lexical_fieldFits (struct : String) (fields : Fields) (name : Ident) :
    lexical (fieldFits struct fields name position type).reports = [] := by
  unfold fieldFits
  split
  · exact lexical_expectCoercible _ type
  · simp

/-- A field that a literal leaves out is not lexical. -/
theorem lexical_fieldsPresent (struct : String) (fields : Fields)
    (values : List (Ident × Part)) :
    lexical (fieldsPresent position struct fields values).reports = [] := by
  refine lexical_sequence fun step member => ?_
  obtain ⟨field, -, rfl⟩ := List.mem_map.mp member
  simp

/-- A wrong number of elements is not lexical. -/
theorem lexical_lengthFits (length : Option UInt64) (count : Nat) :
    lexical (lengthFits position length count).reports = [] := by
  cases length <;> simp [lengthFits]

/-- The lexical diagnostics of several parts, one after the other. -/
def lexicalOf (parts : List Part) : List Diagnostic :=
  parts.flatMap fun part => lexical part.checked.reports

/-- The lexical diagnostics of several parts come in the order of the parts. -/
theorem lexicalOf_cons (first : Part) (rest : List Part) :
    lexicalOf (first :: rest) = lexical first.checked.reports ++ lexicalOf rest :=
  List.flatMap_cons

/-- Checking all parts for their effect raises what is lexical in each. -/
theorem lexical_ignoreAll (parts : List Part) :
    lexical (ignoreAll parts).reports = lexicalOf parts := by
  unfold ignoreAll Checked.sequence
  induction parts with
  | nil => rfl
  | cons first rest inductionHypothesis =>
    rw [List.map_cons, List.flatMap_cons, lexical_append, inductionHypothesis, lexicalOf_cons,
      lexical_ignore]

/-- Each argument is checked if there are as many parameters. -/
theorem lexical_argumentsFit {parts : List Part} {params : List Ty}
    (count : parts.length = params.length) (place : Nat) :
    lexical (argumentsFit place parts params).reports = lexicalOf parts := by
  induction parts generalizing params place with
  | nil => rfl
  | cons first rest inductionHypothesis =>
    cases params with
    | nil => cases count
    | cons expected params =>
      rw [argumentsFit, lexicalOf_cons]
      simp [inductionHypothesis (Nat.succ.inj count)]

/-- Whatever is called, and however many arguments it takes, each of them is checked. -/
theorem lexical_callType (callee : Expr) (parts : List Part) :
    lexical (callType position callee type parts).reports = lexicalOf parts := by
  unfold callType
  split
  · rename_i params result
    have fits : lexical (callFits position parts params).reports = lexicalOf parts := by
      unfold callFits
      split
      · rename_i count
        exact lexical_argumentsFit count 1
      · simp [lexical_ignoreAll]
    simp [fits]
  · simp [lexical_ignoreAll]
  · have typed : (calleeCause callee type).isLexical = false := by
      cases callee <;> rfl
    simp [lexical_ignoreAll, typed, -Diagnostic.Cause.isLexical]

/-- Checking all elements against a type raises what is lexical in each element. -/
theorem lexical_elementsFit (expected : Ty) (parts : List Part) :
    lexical (elementsFit expected parts).reports = lexicalOf parts := by
  induction parts with
  | nil => rfl
  | cons first rest inductionHypothesis =>
    rw [elementsFit, lexicalOf_cons]
    simp [lexical_expectCoercible, inductionHypothesis]

/-- Checking the values of all fields raises what is lexical in each value. -/
theorem lexical_fieldsFit (struct : String) (fields : Fields) (values : List (Ident × Part)) :
    lexical (fieldsFit struct fields values).reports = lexicalOf (values.map Prod.snd) := by
  induction values with
  | nil => rfl
  | cons first rest inductionHypothesis =>
    rw [fieldsFit, List.map_cons, lexicalOf_cons]
    simp [lexical_fieldFits, inductionHypothesis]

/-- Whether there is such a struct or not, each value of a literal is checked. -/
theorem lexical_structLitType (name : Ident) (values : List (Ident × Part)) :
    lexical (structLitType context position name values).reports =
      lexicalOf (values.map Prod.snd) := by
  unfold structLitType
  split
  · simp [lexical_ignoreAll]
  · simp [lexical_fieldsFit, lexical_fieldsPresent]

/-- An array literal raises what is lexical in its elements. -/
theorem lexical_arrayLitType (length : Option UInt64) (elementExpr : TypeExpr)
    (parts : List Part) :
    lexical (arrayLitType context position length elementExpr parts).reports =
      lexicalOf parts := by
  simp [arrayLitType, lexical_resolve, lexical_elementsFit, lexical_lengthFits]

/-- What the scopes of a context bind a name to. -/
def Context.bound (context : Context) (name : String) : Option Bool :=
  (context.scopes.lookup? name).map Symbol.isConst

/-- The diagnostic of a use of a name, if there is one. -/
def faultOf? (bound : String → Option Bool) (use : Use) : Option Diagnostic :=
  (undefinedUse? bound use).or (constUse? bound use)

/-- The use of a name is at fault if no such name is bound. -/
theorem lexical_identType (name : String) :
    lexical (identType context position name).reports =
      [Use.value position name].filterMap (faultOf? context.bound) := by
  unfold identType
  cases found : context.scopes.lookup? name <;>
    simp [faultOf?, undefinedUse?, constUse?, Context.bound, found]

/-- The target of an assignment is at fault if it is bound to what must not be assigned to. -/
theorem lexical_assignableTarget (target : Expr) :
    lexical (assignableTarget context target).reports =
      target.targetUses.filterMap (faultOf? context.bound) := by
  cases target with
  | ident position name =>
    unfold assignableTarget Context.isConst
    cases found : context.scopes.lookup? name with
    | none => simp [Expr.targetUses, faultOf?, undefinedUse?, constUse?, Context.bound, found]
    | some symbol =>
      cases constant : symbol.isConst <;>
        simp [Expr.targetUses, faultOf?, undefinedUse?, constUse?, Context.bound, found, constant]
  | _ => rfl

/-- An assignment raises what is at fault in its target, then what is lexical in target and value;
one that discards its value does not look at the target. -/
theorem lexical_assignType {operator : Option BinaryOp} {target : Expr}
    (targetPart valuePart : Part) :
    lexical (assignType context operator target targetPart valuePart).reports =
      if isDiscard operator target then lexical valuePart.checked.reports
      else target.targetUses.filterMap (faultOf? context.bound) ++
        lexical targetPart.checked.reports ++ lexical valuePart.checked.reports := by
  unfold assignType
  split
  · simp
  · simp [lexical_assignableTarget, lexical_assignmentFits]

mutual

/-- The lexical diagnostics of an expression are those of the names that it uses. -/
theorem lexical_exprType (context : Context) (value : Expr) :
    lexical (exprType context value).reports =
      value.uses.filterMap (faultOf? context.bound) := by
  cases value with
  | number | string | bool | null | undefined => rfl
  | ident position name =>
    rw [exprType, lexical_identType, Expr.uses]
  | binary position operator left right =>
    simp [exprType, Expr.uses, lexical_exprType context left, lexical_exprType context right,
      lexical_binaryType]
  | unary position operator operand =>
    simp [exprType, Expr.uses, lexical_exprType context operand, lexical_unaryType]
  | call position callee arguments =>
    simp [exprType, Expr.uses, lexical_exprType context callee, lexical_callType,
      lexical_parts context arguments]
  | member position object field =>
    simp [exprType, Expr.uses, lexical_exprType context object, lexical_memberType]
  | index position object subscript =>
    simp [exprType, Expr.uses, lexical_exprType context object,
      lexical_exprType context subscript, lexical_subscriptFits, lexical_elementType]
  | deref position object =>
    simp [exprType, Expr.uses, lexical_exprType context object, lexical_pointeeType]
  | unwrap position object =>
    simp [exprType, Expr.uses, lexical_exprType context object, lexical_unwrappedType]
  | assign position operator target value =>
    rw [exprType, Expr.uses, lexical_assignType, lexical_exprType context target,
      lexical_exprType context value]
    split <;> simp
  | structLit position name fields =>
    rw [exprType, Expr.uses, lexical_structLitType, lexical_fieldParts context fields]
  | arrayLit position length elementExpr elements =>
    rw [exprType, Expr.uses, lexical_arrayLitType, lexical_parts context elements]

/-- Those of several expressions are the same of all of them. -/
theorem lexical_parts (context : Context) (values : List Expr) :
    lexicalOf (parts context values) =
      (Expr.usesOfAll values).filterMap (faultOf? context.bound) := by
  match values with
  | [] => rfl
  | first :: rest =>
    rw [parts, lexicalOf_cons, Expr.usesOfAll, List.filterMap_append,
      lexical_exprType context first, lexical_parts context rest]

/-- So are those of the values of several fields. -/
theorem lexical_fieldParts (context : Context) (values : List (Ident × Expr)) :
    lexicalOf ((fieldParts context values).map Prod.snd) =
      (Expr.usesOfFields values).filterMap (faultOf? context.bound) := by
  match values with
  | [] => rfl
  | (name, first) :: rest =>
    rw [fieldParts, List.map_cons, lexicalOf_cons, Expr.usesOfFields, List.filterMap_append,
      lexical_exprType context first, lexical_fieldParts context rest]

end

end SystemsLang.Typing
