import SystemsLang.Proofs.Typing.Relabeling

/-!
# Typing relabeled expressions

The type of a relabeled expression in a relabeled context is the type of the expression in the
context, relabeled, and so are the diagnostics, one by one and in the same order. Every rule of a
single form has a law of its own, which says that it commutes with the relabeling; those of the
forms are put together along the recursion of `exprType`.
-/

namespace SystemsLang.Typing

open Syntax Checked

namespace Relabeling

variable (labels : Relabeling)

/-- A result and its diagnostics, relabeled. -/
def checked {α β : Type} (change : α → β) (found : Checked α) : Checked β :=
  ⟨change found.value, found.reports.map labels.diagnostic⟩

/-- A checked expression with its position, relabeled. -/
def part (given : Part) : Part :=
  ⟨labels.place given.position, labels.checked labels.ty given.checked⟩

/-- The values of fields with their names, relabeled. -/
def fieldPart (given : Ident × Part) : Ident × Part :=
  (labels.ident given.1, labels.part given.2)

variable {labels} {α α' β β' : Type}

/-- A value that raises nothing is relabeled as a value. -/
@[simp] theorem checked_pure (change : α → β) (value : α) :
    labels.checked change (pure value) = pure (change value) := rfl

/-- The value of a relabeled result is the value, relabeled. -/
@[simp] theorem value_checked (change : α → β) (found : Checked α) :
    (labels.checked change found).value = change found.value := rfl

/-- Two checks in sequence are relabeled one after the other. -/
theorem checked_bind {changeFirst : α → α'} {change : β → β'} {first : Checked α}
    {second : α → Checked β} {relabeled : α' → Checked β'}
    (follows : ∀ value, relabeled (changeFirst value) = labels.checked change (second value)) :
    labels.checked changeFirst first >>= relabeled = labels.checked change (first >>= second) := by
  have behind := follows first.value
  ext1
  · simp [behind]
  · simp [checked, behind]

/-- Where a cause is reported, the relabeled one is. -/
@[simp] theorem report_checked (cause : Diagnostic.Cause) (position : Position) :
    report (labels.cause cause) (labels.place position) =
      labels.checked id (report cause position) := rfl

/-- A report under a condition is relabeled with it, since the condition stays. -/
theorem reportIf_checked (condition : Bool) (cause : Diagnostic.Cause) (position : Position) :
    reportIf condition (labels.cause cause) (labels.place position) =
      labels.checked id (reportIf condition cause position) := by
  cases condition <;> rfl

/-- What is unknown after a report is unknown after the relabeled one. -/
@[simp] theorem unknownAfter_checked (cause : Diagnostic.Cause) (position : Position) :
    unknownAfter (labels.cause cause) (labels.place position) =
      labels.checked labels.ty (unknownAfter cause position) := rfl

/-- Steps that are taken for their diagnostics are relabeled step by step. -/
theorem sequence_checked (steps : List (Checked Unit)) :
    Checked.sequence (steps.map (labels.checked id)) =
      labels.checked id (Checked.sequence steps) := by
  ext1
  · rfl
  · simp [Checked.sequence, checked, List.flatMap_map, List.map_flatMap]

/-- A check that is made for several things is relabeled thing by thing. -/
theorem mapM_checked {change : α → α'} {changeFound : β → β'} {check : α → Checked β}
    {relabeled : α' → Checked β'}
    (follows : ∀ value, relabeled (change value) = labels.checked changeFound (check value))
    (values : List α) :
    (values.map change).mapM relabeled =
      labels.checked (List.map changeFound) (values.mapM check) := by
  induction values with
  | nil => rfl
  | cons first rest inductionHypothesis =>
    rw [List.map_cons, List.mapM_cons, List.mapM_cons, follows, inductionHypothesis]
    refine checked_bind fun found => checked_bind fun others => ?_
    rfl

/-- So is one that is made for what is optional. -/
theorem optionMapM_checked {change : α → α'} {changeFound : β → β'} {check : α → Checked β}
    {relabeled : α' → Checked β'}
    (follows : ∀ value, relabeled (change value) = labels.checked changeFound (check value))
    (optional : Option α) :
    (optional.map change).mapM relabeled =
      labels.checked (Option.map changeFound) (optional.mapM check) := by
  cases optional with
  | none => rfl
  | some value =>
    rw [Option.map_some, Option.mapM_some, Option.mapM_some, follows, map_eq_pure_bind,
      map_eq_pure_bind]
    exact checked_bind fun _ => rfl

variable (labels)

/-- The fields of a struct are found under its new name, relabeled. -/
@[simp] theorem get?_registry (registry : Registry) (name : String) :
    (labels.registry registry).get? (labels.name name) =
      (registry.get? name).map labels.fields := by
  exact lookup_entries labels.fields registry.structs name

/-- The registry has a struct under its new name if it had it under the old one. -/
@[simp] theorem has_registry (registry : Registry) (name : String) :
    (labels.registry registry).has (labels.name name) = registry.has name := by
  simp [Registry.has]

/-- A symbol is found in the scopes under its new name, relabeled. -/
@[simp] theorem lookup_scopes (scopes : Scopes) (name : String) :
    (labels.scopes scopes).lookup? (labels.name name) =
      (scopes.lookup? name).map labels.symbol := by
  obtain ⟨opened, global⟩ := scopes
  have whole : (labels.scopes ⟨opened, global⟩).opened ++
      [(labels.scopes ⟨opened, global⟩).global] =
        (opened ++ [global]).map (labels.entries labels.symbol) := by
    simp [Relabeling.scopes]
  rw [Scopes.lookup?, whole, Scopes.lookup?]
  induction opened ++ [global] with
  | nil => rfl
  | cons scope outer inductionHypothesis =>
    rw [List.map_cons, List.findSome?_cons, List.findSome?_cons, lookup_entries]
    cases scope.lookup name with
    | none => exact inductionHypothesis
    | some symbol => rfl

/-- A name that must not be assigned to must not be under its new name. -/
@[simp] theorem isConst_context (context : Context) (name : String) :
    (labels.context context).isConst (labels.name name) = context.isConst name := by
  have found := labels.lookup_scopes context.scopes name
  unfold Context.isConst Relabeling.context
  rw [found, Option.any_map]
  rfl

/-- A type expression is resolved to the relabeled type. -/
theorem resolve_checked (registry : Registry) (type : TypeExpr) :
    (labels.registry registry).resolve (labels.typeExpr type) =
      labels.checked labels.ty (registry.resolve type) := by
  induction type with
  | primitive position name =>
    have kept : labels.ty (.ofPrimitive name) = .ofPrimitive name := by
      unfold Ty.ofPrimitive
      split <;> rfl
    simp [typeExpr, Registry.resolve, kept]
  | named position name =>
    rw [typeExpr, Registry.resolve, Registry.resolve, has_registry]
    split
    · rfl
    · exact labels.unknownAfter_checked (.unknownType name) position
  | pointer _ _ _ inductionHypothesis | array _ _ _ inductionHypothesis
  | slice _ _ _ inductionHypothesis | optional _ _ inductionHypothesis
  | errorUnion _ _ inductionHypothesis =>
    rw [typeExpr, Registry.resolve, Registry.resolve, inductionHypothesis]
    exact checked_bind fun type => rfl

/-- Whether a value goes with what is expected does not depend on labels. -/
theorem expectCoercible_checked (position : Position) (expected actual : Ty) :
    expectCoercible (labels.place position) (labels.ty expected) (labels.ty actual) =
      labels.checked id (expectCoercible position expected actual) := by
  rw [expectCoercible, coercesTo_ty]
  exact labels.reportIf_checked _ (.typeMismatch expected actual) position

/-- A name has the type that its new name has in the relabeled context. -/
theorem identType_checked (context : Context) (position : Position) (name : String) :
    identType (labels.context context) (labels.place position) (labels.name name) =
      labels.checked labels.ty (identType context position name) := by
  have found := labels.lookup_scopes context.scopes name
  unfold identType
  rw [Relabeling.context, found]
  cases context.scopes.lookup? name with
  | none => rfl
  | some symbol => rfl

/-- The type of a binary operation is relabeled with its operands. -/
theorem binaryType_checked (position : Position) (operator : BinaryOp) (left right : Ty) :
    binaryType (labels.place position) operator (labels.ty left) (labels.ty right) =
      labels.checked labels.ty (binaryType position operator left right) := by
  unfold binaryType
  cases operator.operatorClass with
  | arithmetic =>
    dsimp only
    rw [mayBeNumeric_ty, mayBeNumeric_ty]
    split
    · rfl
    · exact labels.unknownAfter_checked (.nonNumericOperands operator.symbol left right) position
  | comparison =>
    have reported := labels.reportIf_checked (!left.isComparableWith right)
      (.incomparable left right) position
    dsimp only
    rw [isComparableWith_ty]
    exact reported ▸ checked_bind fun _ => rfl
  | logical =>
    have reported := labels.reportIf_checked (!(mayBeBool left && mayBeBool right))
      (.nonBooleanOperands operator.symbol left right) position
    dsimp only
    rw [mayBeBool_ty, mayBeBool_ty]
    exact reported ▸ checked_bind fun _ => rfl

/-- The address of a relabeled operand points to the relabeled type. -/
theorem addressType_ty (context : Context) (operand : Expr) (type : Ty) :
    addressType (labels.context context) (labels.expr operand) (labels.ty type) =
      labels.ty (addressType context operand type) := by
  cases operand with
  | ident position name => simp [expr, addressType, ty]
  | _ => rfl

/-- Whether a `try` may stand somewhere does not depend on labels. -/
theorem attemptAllowed_checked (context : Context) (position : Position) :
    attemptAllowed (labels.context context) (labels.place position) =
      labels.checked id (attemptAllowed context position) := by
  obtain ⟨registry, scopes, enclosing⟩ := context
  cases enclosing with
  | none => rfl
  | some enclosing =>
    obtain ⟨name, result⟩ := enclosing
    cases result <;> rfl

/-- What a `try` leaves of an error union is relabeled with it. -/
theorem attemptedType_checked (position : Position) (type : Ty) :
    attemptedType (labels.place position) (labels.ty type) =
      labels.checked labels.ty (attemptedType position type) := by
  cases type <;> rfl

/-- The type of a prefix operation is relabeled with its operand. -/
theorem unaryType_checked (context : Context) (position : Position) (operator : UnaryOp)
    (operand : Expr) (type : Ty) :
    unaryType (labels.context context) (labels.place position) operator (labels.expr operand)
        (labels.ty type) =
      labels.checked labels.ty (unaryType context position operator operand type) := by
  cases operator with
  | negate =>
    rw [unaryType, unaryType, mayBeNumeric_ty]
    split
    · rfl
    · exact labels.unknownAfter_checked (.nonNumericNegation type) position
  | not =>
    have reported := labels.reportIf_checked (!mayBeBool type) (.nonBooleanNot type)
      position
    rw [unaryType, unaryType, mayBeBool_ty]
    exact reported ▸ checked_bind fun _ => rfl
  | addressOf => rw [unaryType, addressType_ty, unaryType, checked_pure]
  | attempt =>
    rw [unaryType, attemptType, attemptAllowed_checked]
    exact checked_bind fun _ => labels.attemptedType_checked position type

/-- The reports of several parts are relabeled part by part. -/
theorem ignoreAll_checked (parts : List Part) :
    ignoreAll (parts.map labels.part) = labels.checked id (ignoreAll parts) := by
  rw [ignoreAll, List.map_map]
  have steps : (parts.map fun part => ignore part.checked).map (labels.checked id) =
      parts.map ((fun part => ignore part.checked) ∘ labels.part) := by
    rw [List.map_map]
    rfl
  rw [← steps, sequence_checked]
  rfl

/-- Arguments fit the relabeled parameters as they fitted the parameters. -/
theorem argumentsFit_checked (place : Nat) (parts : List Part) (params : List Ty) :
    argumentsFit place (parts.map labels.part) (params.map labels.ty) =
      labels.checked id (argumentsFit place parts params) := by
  induction parts generalizing place params with
  | nil => cases params <;> rfl
  | cons part parts inductionHypothesis =>
    cases params with
    | nil => rfl
    | cons expected params =>
      rw [List.map_cons, List.map_cons, argumentsFit, argumentsFit]
      refine checked_bind fun actual => ?_
      have reported := labels.reportIf_checked (!actual.coercesTo expected)
        (.argumentMismatch place expected actual) part.position
      rw [coercesTo_ty]
      exact reported ▸ checked_bind fun _ => inductionHypothesis (place + 1) params

/-- The arguments of a call are counted and compared as before. -/
theorem callFits_checked (position : Position) (arguments : List Part) (params : List Ty) :
    callFits (labels.place position) (arguments.map labels.part) (params.map labels.ty) =
      labels.checked id (callFits position arguments params) := by
  rw [callFits, callFits, List.length_map, List.length_map]
  split
  · exact labels.argumentsFit_checked 1 arguments params
  · have reported := labels.report_checked
      (.argumentCount params.length arguments.length) position
    exact reported ▸ checked_bind fun _ => labels.ignoreAll_checked arguments

/-- What is said of something that cannot be called names it by its new name. -/
theorem calleeCause_expr (callee : Expr) (type : Ty) :
    calleeCause (labels.expr callee) (labels.ty type) = labels.cause (calleeCause callee type) := by
  cases callee <;> rfl

/-- The type of a call is relabeled with its callee and its arguments. -/
theorem callType_checked (position : Position) (callee : Expr) (type : Ty)
    (arguments : List Part) :
    callType (labels.place position) (labels.expr callee) (labels.ty type)
        (arguments.map labels.part) =
      labels.checked labels.ty (callType position callee type arguments) := by
  have ignored := labels.ignoreAll_checked arguments
  -- For whatever cannot be called the same is done, with the type that is reported.
  have uncallable (other : Ty) :
      (do report (calleeCause (labels.expr callee) (labels.ty other)) (labels.place position)
          ignoreAll (arguments.map labels.part)
          return Ty.unknown : Checked Ty) =
        labels.checked labels.ty (do
          report (calleeCause callee other) position
          ignoreAll arguments
          return Ty.unknown) := by
    rw [calleeCause_expr, report_checked, ignored]
    exact checked_bind fun _ => checked_bind fun _ => rfl
  cases type with
  | function params result =>
    have fits := labels.callFits_checked position arguments params
    rw [ty, tys_eq_map, callType, callType]
    exact fits ▸ checked_bind fun _ => rfl
  | unknown =>
    rw [ty, callType, callType]
    exact ignored ▸ checked_bind fun _ => rfl
  | _ => exact uncallable _

/-- The type of a member is found under the new names of the struct and of the field. -/
theorem memberType_checked (context : Context) (type : Ty) (field : Ident) :
    memberType (labels.context context) (labels.ty type) (labels.ident field) =
      labels.checked labels.ty (memberType context type field) := by
  -- Whatever is no struct has no member but perhaps a length.
  have lengthOnly (other : Ty) :
      (if hasLength (labels.ty other) && (labels.ident field).name == "len" then pure Ty.size
        else unknownAfter (.noMembers (labels.ty other)) (labels.place field.position)) =
      labels.checked labels.ty
        (if hasLength other && field.name == "len" then pure Ty.size
          else unknownAfter (.noMembers other) field.position) := by
    rw [hasLength_ty, ident, name_beq_length]
    split
    · rfl
    · exact labels.unknownAfter_checked (.noMembers other) field.position
  rw [memberType, memberType, memberBase_ty]
  cases memberBase type with
  | struct name =>
    have known := labels.get?_registry context.registry name
    dsimp only [ty, Relabeling.context]
    rw [known]
    cases context.registry.get? name with
    | none => rfl
    | some fields =>
      have found : (labels.fields fields).lookup (labels.ident field).name =
          (fields.lookup field.name).map labels.ty := lookup_entries labels.ty fields field.name
      dsimp only [Option.map_some]
      rw [found]
      cases fields.lookup field.name <;> rfl
  | unknown => rfl
  | _ => exact lengthOnly _

/-- The type of an element is relabeled with the type of the whole. -/
theorem elementType_checked (position : Position) (type : Ty) :
    elementType (labels.place position) (labels.ty type) =
      labels.checked labels.ty (elementType position type) := by
  cases type with
  | pointer isConst pointee => cases pointee <;> rfl
  | _ => rfl

/-- Whether a value can be a subscript does not depend on labels. -/
theorem subscriptFits_checked (position : Position) (type : Ty) :
    subscriptFits (labels.place position) (labels.ty type) =
      labels.checked id (subscriptFits position type) := by
  rw [subscriptFits, isUnknown_ty, isInteger_ty]
  exact labels.reportIf_checked _ (.nonIntegerIndex type) position

/-- What a pointer points to is relabeled with it. -/
theorem pointeeType_checked (position : Position) (type : Ty) :
    pointeeType (labels.place position) (labels.ty type) =
      labels.checked labels.ty (pointeeType position type) := by
  cases type <;> rfl

/-- What an optional holds is relabeled with it. -/
theorem unwrappedType_checked (position : Position) (type : Ty) :
    unwrappedType (labels.place position) (labels.ty type) =
      labels.checked labels.ty (unwrappedType position type) := by
  cases type <;> rfl

/-- An assignment discards its value under new names as under the old, since `_` keeps its name. -/
theorem isDiscard_expr (operator : Option BinaryOp) (target : Expr) :
    isDiscard operator (labels.expr target) = isDiscard operator target := by
  have ofName (position : Position) (name : String) :
      isDiscard none (.ident position name) = decide (name = "_") := by
    unfold isDiscard
    split
    · rename_i same
      cases same
      rfl
    · rename_i differs
      refine (decide_eq_false fun same => ?_).symm
      exact differs position rfl (congrArg (Expr.ident position) same)
  cases operator with
  | some operator => rfl
  | none =>
    cases target with
    | ident position name => simp [expr, ofName, name_eq_discard]
    | _ => rfl

/-- A target that must not be assigned to must not be under its new name. -/
theorem assignableTarget_checked (context : Context) (target : Expr) :
    assignableTarget (labels.context context) (labels.expr target) =
      labels.checked id (assignableTarget context target) := by
  cases target with
  | ident position name =>
    rw [expr, assignableTarget, isConst_context]
    exact labels.reportIf_checked _ (.assignToConst name) position
  | _ => rfl

/-- A value goes with a relabeled target as it went with the target. -/
theorem assignmentFits_checked (operator : Option BinaryOp)
    (targetPosition valuePosition : Position) (expected actual : Ty) :
    assignmentFits operator (labels.place targetPosition) (labels.place valuePosition)
        (labels.ty expected) (labels.ty actual) =
      labels.checked id
        (assignmentFits operator targetPosition valuePosition expected actual) := by
  have fits := labels.expectCoercible_checked valuePosition expected actual
  cases operator with
  | none => exact fits
  | some operator =>
    rw [assignmentFits, mayBeNumeric_ty, mayBeNumeric_ty, assignmentFits]
    split
    · exact fits
    · exact labels.report_checked (.nonNumericOperands (compoundSymbol operator) expected actual)
        targetPosition

/-- The type of an assignment is relabeled with its two sides. -/
theorem assignType_checked (context : Context) (operator : Option BinaryOp) (target : Expr)
    (targetPart valuePart : Part) :
    assignType (labels.context context) operator (labels.expr target) (labels.part targetPart)
        (labels.part valuePart) =
      labels.checked labels.ty (assignType context operator target targetPart valuePart) := by
  rw [assignType, assignType, isDiscard_expr]
  split
  · have ignored : ignore (labels.part valuePart).checked =
        labels.checked id (ignore valuePart.checked) := rfl
    rw [ignored]
    exact checked_bind fun _ => rfl
  · rw [assignableTarget_checked]
    refine checked_bind fun _ => checked_bind fun expected => checked_bind fun actual => ?_
    dsimp only [part]
    rw [assignmentFits_checked]
    exact checked_bind fun _ => rfl

/-- A value fits a field under its new name as it fitted the field. -/
theorem fieldFits_checked (struct : String) (fields : Fields) (name : Ident)
    (position : Position) (actual : Ty) :
    fieldFits (labels.name struct) (labels.fields fields) (labels.ident name)
        (labels.place position) (labels.ty actual) =
      labels.checked id (fieldFits struct fields name position actual) := by
  have found : (labels.fields fields).lookup (labels.ident name).name =
      (fields.lookup name.name).map labels.ty := lookup_entries labels.ty fields name.name
  rw [fieldFits, found, fieldFits]
  cases fields.lookup name.name with
  | none => rfl
  | some expected => exact labels.expectCoercible_checked position expected actual

/-- The values of a literal fit the relabeled fields, each as before. -/
theorem fieldsFit_checked (struct : String) (fields : Fields) (values : List (Ident × Part)) :
    fieldsFit (labels.name struct) (labels.fields fields) (values.map labels.fieldPart) =
      labels.checked id (fieldsFit struct fields values) := by
  induction values with
  | nil => rfl
  | cons value rest inductionHypothesis =>
    obtain ⟨name, part⟩ := value
    refine checked_bind fun actual => ?_
    dsimp only [Relabeling.part]
    rw [fieldFits_checked]
    exact checked_bind fun _ => inductionHypothesis

/-- The fields that a literal has no value for are reported by their new names. -/
theorem fieldsPresent_checked (position : Position) (struct : String) (fields : Fields)
    (values : List (Ident × Part)) :
    fieldsPresent (labels.place position) (labels.name struct) (labels.fields fields)
        (values.map labels.fieldPart) =
      labels.checked id (fieldsPresent position struct fields values) := by
  rw [fieldsPresent, fieldsPresent, ← sequence_checked, List.map_map, Relabeling.fields, entries,
    List.map_map]
  refine congrArg Checked.sequence (List.map_congr_left fun field _ => ?_)
  have given : (values.map labels.fieldPart).any (fun value =>
      value.1.name == labels.name field.1) = values.any fun value => value.1.name == field.1 := by
    rw [List.any_map]
    refine congrArg values.any (funext fun value => ?_)
    exact name_beq value.1.name field.1
  dsimp only [Function.comp]
  rw [given]
  exact labels.reportIf_checked _ (.missingField struct field.1) position

/-- The type of a struct literal is relabeled with its name and its values. -/
theorem structLitType_checked (context : Context) (position : Position) (name : Ident)
    (values : List (Ident × Part)) :
    structLitType (labels.context context) (labels.place position) (labels.ident name)
        (values.map labels.fieldPart) =
      labels.checked labels.ty (structLitType context position name values) := by
  have known : (labels.context context).registry.get? (labels.ident name).name =
      (context.registry.get? name.name).map labels.fields :=
    labels.get?_registry context.registry name.name
  have onlyParts : (values.map labels.fieldPart).map Prod.snd =
      (values.map Prod.snd).map labels.part := by
    rw [List.map_map, List.map_map]
    rfl
  rw [structLitType, known, structLitType]
  cases context.registry.get? name.name with
  | none =>
    dsimp only [Option.map_none]
    rw [onlyParts, ignoreAll_checked]
    have reported := labels.report_checked (.unknownType name.name) name.position
    exact reported ▸ checked_bind fun _ => checked_bind fun _ => rfl
  | some fields =>
    dsimp only [Option.map_some, ident]
    rw [fieldsFit_checked, fieldsPresent_checked]
    exact checked_bind fun _ => checked_bind fun _ => rfl

/-- The elements of a literal fit the relabeled type as they fitted the type. -/
theorem elementsFit_checked (expected : Ty) (parts : List Part) :
    elementsFit (labels.ty expected) (parts.map labels.part) =
      labels.checked id (elementsFit expected parts) := by
  induction parts with
  | nil => rfl
  | cons part rest inductionHypothesis =>
    refine checked_bind fun actual => ?_
    dsimp only [Relabeling.part]
    rw [expectCoercible_checked]
    exact checked_bind fun _ => inductionHypothesis

/-- The length that an array literal states is compared as before. -/
theorem lengthFits_checked (position : Position) (length : Option UInt64) (count : Nat) :
    lengthFits (labels.place position) length count =
      labels.checked id (lengthFits position length count) := by
  cases length with
  | none => rfl
  | some length => exact labels.reportIf_checked _ (.arrayLength length count) position

/-- The type of an array literal is relabeled with its parts. -/
theorem arrayLitType_checked (context : Context) (position : Position) (length : Option UInt64)
    (elementExpr : TypeExpr) (elements : List Part) :
    arrayLitType (labels.context context) (labels.place position) length
        (labels.typeExpr elementExpr) (elements.map labels.part) =
      labels.checked labels.ty (arrayLitType context position length elementExpr elements) := by
  have resolved : (labels.context context).registry.resolve (labels.typeExpr elementExpr) =
      labels.checked labels.ty (context.registry.resolve elementExpr) :=
    labels.resolve_checked context.registry elementExpr
  rw [arrayLitType, resolved, List.length_map, lengthFits_checked]
  refine checked_bind fun element => ?_
  rw [elementsFit_checked]
  exact checked_bind fun _ => checked_bind fun _ => rfl

mutual

/-- The type of a relabeled expression is the type of the expression, relabeled. -/
theorem exprType_checked (context : Context) (value : Expr) :
    exprType (labels.context context) (labels.expr value) =
      labels.checked labels.ty (exprType context value) := by
  cases value with
  | number position text =>
    rw [expr, exprType, exprType]
    split <;> rfl
  | string | bool | null | undefined => rfl
  | ident position name => exact labels.identType_checked context position name
  | binary position operator left right =>
    rw [expr, exprType, exprType_checked context left, exprType_checked context right]
    exact checked_bind fun leftType => checked_bind fun rightType =>
      labels.binaryType_checked position operator leftType rightType
  | unary position operator operand =>
    rw [expr, exprType, exprType_checked context operand]
    exact checked_bind fun type => labels.unaryType_checked context position operator operand type
  | call position callee arguments =>
    rw [expr, exprType, exprType_checked context callee, parts_checked context arguments]
    exact checked_bind fun type => labels.callType_checked position callee type _
  | member position object field =>
    rw [expr, exprType, exprType_checked context object]
    exact checked_bind fun type => labels.memberType_checked context type field
  | index position object subscript =>
    rw [expr, exprType, exprType_checked context object, exprType_checked context subscript,
      position_expr, position_expr]
    refine checked_bind fun type => checked_bind fun subscriptType => ?_
    rw [subscriptFits_checked]
    exact checked_bind fun _ => labels.elementType_checked object.position type
  | deref position object =>
    rw [expr, exprType, exprType_checked context object]
    exact checked_bind fun type => labels.pointeeType_checked position type
  | unwrap position object =>
    rw [expr, exprType, exprType_checked context object]
    exact checked_bind fun type => labels.unwrappedType_checked position type
  | assign position operator target value =>
    rw [expr, exprType, exprType_checked context target, exprType_checked context value,
      position_expr, position_expr]
    exact labels.assignType_checked context operator target
      ⟨target.position, exprType context target⟩ ⟨value.position, exprType context value⟩
  | structLit position name values =>
    rw [expr, exprType, fieldParts_checked context values]
    exact labels.structLitType_checked context position name _
  | arrayLit position length elementType elements =>
    rw [expr, exprType, parts_checked context elements]
    exact labels.arrayLitType_checked context position length elementType _

/-- So are those of several expressions. -/
theorem parts_checked (context : Context) (values : List Expr) :
    parts (labels.context context) (labels.exprs values) =
      (parts context values).map labels.part := by
  match values with
  | [] => rfl
  | first :: rest =>
    rw [exprs, parts, exprType_checked context first, parts_checked context rest, position_expr]
    rfl

/-- And those of the values of several fields. -/
theorem fieldParts_checked (context : Context) (values : List (Ident × Expr)) :
    fieldParts (labels.context context) (labels.fieldValues values) =
      (fieldParts context values).map labels.fieldPart := by
  match values with
  | [] => rfl
  | (name, value) :: rest =>
    rw [fieldValues, fieldParts, exprType_checked context value, fieldParts_checked context rest,
      position_expr]
    rfl

end

end Relabeling

end SystemsLang.Typing
