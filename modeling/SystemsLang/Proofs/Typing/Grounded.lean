import SystemsLang.Proofs.Typing.Components
import SystemsLang.Proofs.Typing.TypedExpr

/-!
# Types of structs that are there

A type is grounded if each struct in it, at any depth, is one that the registry has. What checking
finds out about an expression is grounded if all that it starts from is: the types of the symbols in
scope, of the fields of structs, and of what the enclosing function gives back. This holds of the
type that is found and of every type in the diagnostics (`grounded_exprType`).

There is one lemma for each rule. Most rules take a type apart or put one on top of it; those that
come upon a struct by its name look it up in the registry first.
-/

namespace SystemsLang.Typing

open Syntax Checked

variable {registry further : Registry}

/-- Every struct in a type, at any depth, is one that the registry has. -/
def Ty.Grounded (registry : Registry) (type : Ty) : Prop :=
  ∀ name, Within Ty.components (.struct name) type → registry.has name = true

/-- Every struct of the first registry is one of the second. -/
def Registry.Grows (registry further : Registry) : Prop :=
  ∀ name, registry.has name = true → further.has name = true

namespace Ty

variable {type inner result : Ty} {params : List Ty}

/-- What is grounded stays so when structs are added. -/
theorem Grounded.mono (grounded : type.Grounded registry) (grows : registry.Grows further) :
    type.Grounded further :=
  fun name within => grows name (grounded name within)

/-- A type is grounded if what it is made of is, and it is not a struct that is missing. -/
theorem grounded_iff :
    type.Grounded registry ↔ (∀ name, type = struct name → registry.has name = true) ∧
      ∀ component ∈ type.components, component.Grounded registry := by
  constructor
  · intro grounded
    exact ⟨fun name same => grounded name (same ▸ .self),
      fun component member name within => grounded name (.inner member within)⟩
  · rintro ⟨own, below⟩ name within
    cases within with
    | self => exact own name rfl
    | inner member within => exact below _ member name within

/-- There is no struct in `void`. -/
@[simp] theorem grounded_void : void.Grounded registry := by
  rw [grounded_iff]
  simp [components]

/-- There is no struct in the unknown type. -/
@[simp] theorem grounded_unknown : unknown.Grounded registry := by
  rw [grounded_iff]
  simp [components]

/-- There is no struct in the type of `null`. -/
@[simp] theorem grounded_null : null.Grounded registry := by
  rw [grounded_iff]
  simp [components]

/-- There is no struct in a primitive type. -/
@[simp] theorem grounded_primitive (name : String) : (primitive name).Grounded registry := by
  rw [grounded_iff]
  simp [components]

/-- A struct is grounded if the registry has it. -/
@[simp] theorem grounded_struct {name : String} :
    (struct name).Grounded registry ↔ registry.has name = true := by
  rw [grounded_iff]
  simp [components]

/-- A function type is grounded if its parameters and its result are. -/
@[simp] theorem grounded_function :
    (function params result).Grounded registry ↔
      (∀ param ∈ params, param.Grounded registry) ∧ result.Grounded registry := by
  rw [grounded_iff]
  simp [components, or_imp, forall_and]

/-- A pointer is grounded if what it points to is. -/
@[simp] theorem grounded_pointer {isConst : Bool} :
    (pointer isConst inner).Grounded registry ↔ inner.Grounded registry := by
  rw [grounded_iff]
  simp [components]

/-- An array is grounded if its elements are. -/
@[simp] theorem grounded_array {length : UInt64} :
    (array length inner).Grounded registry ↔ inner.Grounded registry := by
  rw [grounded_iff]
  simp [components]

/-- A slice is grounded if its elements are. -/
@[simp] theorem grounded_slice {isConst : Bool} :
    (slice isConst inner).Grounded registry ↔ inner.Grounded registry := by
  rw [grounded_iff]
  simp [components]

/-- An optional type is grounded if what may be there is. -/
@[simp] theorem grounded_optional :
    (optional inner).Grounded registry ↔ inner.Grounded registry := by
  rw [grounded_iff]
  simp [components]

/-- An error union is grounded if what it holds without an error is. -/
@[simp] theorem grounded_errorUnion :
    (errorUnion inner).Grounded registry ↔ inner.Grounded registry := by
  rw [grounded_iff]
  simp [components]

/-- There is no struct in `bool`. -/
@[simp] theorem grounded_bool : bool.Grounded registry :=
  grounded_primitive "bool"

/-- There is no struct in the type of string literals. -/
@[simp] theorem grounded_string : string.Grounded registry := by
  simp [string]

/-- A name of a primitive type never denotes a struct. -/
@[simp] theorem grounded_ofPrimitive (name : String) : (ofPrimitive name).Grounded registry := by
  unfold ofPrimitive
  split
  · exact grounded_void
  · exact grounded_primitive name

end Ty

/-- The types that a cause shows. -/
@[simp] def Diagnostic.Cause.types : Diagnostic.Cause → List Ty
  | typeMismatch expected actual | argumentMismatch _ expected actual => [expected, actual]
  | nonNumericOperands _ left right | incomparable left right | nonBooleanOperands _ left right =>
    [left, right]
  | nonNumericNegation type | nonBooleanNot type | notCallable type | noMembers type
  | notIndexable type | nonIntegerIndex type | nonBooleanCondition type | notAPointer type
  | notAnOptional type | tryWithoutErrorUnion type => [type]
  | _ => []

/-- The types that a cause shows are grounded. -/
@[simp] def Diagnostic.Cause.Grounded (registry : Registry) (cause : Diagnostic.Cause) : Prop :=
  ∀ type ∈ cause.types, type.Grounded registry

/-- What was found is as it has to be, and every diagnostic on the way shows grounded types only. -/
structure Checked.Grounded {α : Type} (registry : Registry) (holds : α → Prop)
    (checked : Checked α) : Prop where
  value : holds checked.value
  reports : ∀ report ∈ checked.reports, report.cause.Grounded registry

namespace Checked.Grounded

variable {α β : Type} {holds : α → Prop} {holdsLater : β → Prop} {position : Position}
  {cause : Diagnostic.Cause}

/-- Nothing is reported for a value that is there already. -/
theorem pure {value : α} (grounded : holds value) :
    Grounded registry holds (Pure.pure value : Checked α) :=
  ⟨grounded, by simp⟩

/-- What is found in two steps is grounded if what the first finds lets the second be. -/
theorem bind {first : Checked α} {second : α → Checked β}
    (grounded : Grounded registry holds first)
    (later : ∀ value, holds value → Grounded registry holdsLater (second value)) :
    Grounded registry holdsLater (first >>= second) := by
  have behind := later first.value grounded.value
  refine ⟨behind.value, fun report member => ?_⟩
  rw [reports_bind] at member
  exact (List.mem_append.mp member).elim (grounded.reports report) (behind.reports report)

/-- Reporting a grounded cause is all that happens. -/
theorem report (grounded : cause.Grounded registry) :
    Grounded registry (fun _ => True) (Checked.report cause position) :=
  ⟨trivial, by simpa [Checked.report] using grounded⟩

/-- A grounded cause may be reported or not. -/
theorem reportIf {condition : Bool} (grounded : cause.Grounded registry) :
    Grounded registry (fun _ => True) (Checked.reportIf condition cause position) := by
  unfold Checked.reportIf
  split
  · exact report grounded
  · exact pure trivial

/-- Behind a report the type is unknown, which is grounded. -/
theorem unknownAfter (grounded : cause.Grounded registry) :
    Grounded registry (Ty.Grounded registry) (Checked.unknownAfter cause position) :=
  (report grounded).bind fun _ _ => pure Ty.grounded_unknown

/-- Steps one behind another report what each of them does. -/
theorem sequence {steps : List (Checked Unit)}
    (grounded : ∀ step ∈ steps, Grounded registry (fun _ => True) step) :
    Grounded registry (fun _ => True) (Checked.sequence steps) := by
  refine ⟨trivial, fun report member => ?_⟩
  obtain ⟨step, there, raised⟩ := List.mem_flatMap.mp member
  exact (grounded step there).reports report raised

/-- Ignoring what a step finds leaves its reports. -/
theorem ignore {step : Checked α} (grounded : Grounded registry holds step) :
    Grounded registry (fun _ => True) (Checked.ignore step) :=
  ⟨trivial, grounded.reports⟩

/-- What is found for every item of a list is what has to be found for each. -/
theorem mapM {step : α → Checked β} {items : List α}
    (grounded : ∀ item ∈ items, Grounded registry holdsLater (step item)) :
    Grounded registry (fun values => ∀ value ∈ values, holdsLater value) (items.mapM step) := by
  induction items with
  | nil => exact pure (by simp)
  | cons first rest inductionHypothesis =>
    rw [List.forall_mem_cons] at grounded
    rw [List.mapM_cons]
    refine grounded.1.bind fun value own => ?_
    refine (inductionHypothesis grounded.2).bind fun values others => pure ?_
    exact List.forall_mem_cons.mpr ⟨own, others⟩

end Checked.Grounded

/-- The symbols of all scopes have grounded types, also those that others stand in front of. -/
def Scopes.Grounded (registry : Registry) (scopes : Scopes) : Prop :=
  ∀ scope ∈ scopes.opened ++ [scopes.global], ∀ entry ∈ scope, entry.2.type.Grounded registry

/-- All that a context knows is grounded: the types of the symbols in all scopes, of the fields of
structs, and of what the enclosing function gives back. -/
structure Context.Grounded (context : Context) : Prop where
  symbols : context.scopes.Grounded context.registry
  fields : ∀ struct ∈ context.registry.structs, ∀ field ∈ struct.2,
    field.2.Grounded context.registry
  result : ∀ enclosing ∈ context.enclosing, enclosing.result.Grounded context.registry

variable {context : Context} {type left right : Ty}

/-- A name that is found in scope stands for something of a grounded type. -/
theorem Context.Grounded.lookup (grounded : context.Grounded) {name : String} {symbol : Symbol}
    (found : context.scopes.lookup? name = some symbol) :
    symbol.type.Grounded context.registry := by
  obtain ⟨scope, there, foundThere⟩ := List.exists_of_findSome?_eq_some found
  exact grounded.symbols scope there _ (mem_of_lookup foundThere)

/-- The fields of a struct have grounded types. -/
theorem Context.Grounded.field (grounded : context.Grounded) {struct name : String}
    {fields : Fields} (declared : context.registry.get? struct = some fields)
    (found : fields.lookup name = some type) : type.Grounded context.registry :=
  grounded.fields _ (mem_of_lookup declared) _ (mem_of_lookup found)

section Rules

variable {position : Position} {parts : List Part}

/-- What a written type denotes is grounded: a name has to be that of a struct. -/
theorem grounded_resolve (registry : Registry) (type : TypeExpr) :
    (registry.resolve type).Grounded registry (Ty.Grounded registry) := by
  induction type with
  | primitive position name => exact .pure (Ty.grounded_ofPrimitive name)
  | named position name =>
    unfold Registry.resolve
    split
    · rename_i there
      exact .pure (Ty.grounded_struct.mpr there)
    · exact .unknownAfter (by simp)
  | pointer _ _ _ inductionHypothesis | array _ _ _ inductionHypothesis
  | slice _ _ _ inductionHypothesis | optional _ _ inductionHypothesis
  | errorUnion _ _ inductionHypothesis =>
    exact inductionHypothesis.bind fun inner grounded => .pure (by simpa using grounded)

/-- A mismatch is reported with both types, the expected and the actual one. -/
theorem grounded_expectCoercible (expected : left.Grounded registry)
    (actual : right.Grounded registry) :
    (expectCoercible position left right).Grounded registry fun _ => True :=
  .reportIf (by simp [expected, actual])

/-- The type of a name is that of what it stands for. -/
theorem grounded_identType (grounded : context.Grounded) (name : String) :
    (identType context position name).Grounded context.registry
      (Ty.Grounded context.registry) := by
  unfold identType
  split
  · rename_i symbol found
    exact .pure (grounded.lookup found)
  · exact .unknownAfter (by simp)

/-- A binary operator gives the type of its first operand or `bool`, and reports both operands. -/
theorem grounded_binaryType (operator : BinaryOp) (leftGrounded : left.Grounded registry)
    (rightGrounded : right.Grounded registry) :
    (binaryType position operator left right).Grounded registry (Ty.Grounded registry) := by
  unfold binaryType
  split
  · split
    · exact .pure leftGrounded
    · exact .unknownAfter (by simp [leftGrounded, rightGrounded])
  · exact (Checked.Grounded.reportIf (by simp [leftGrounded, rightGrounded])).bind
      fun _ _ => .pure Ty.grounded_bool
  · exact (Checked.Grounded.reportIf (by simp [leftGrounded, rightGrounded])).bind
      fun _ _ => .pure Ty.grounded_bool

/-- The address of an operand is a pointer to its type, whether the target is constant or not. -/
theorem grounded_addressType (context : Context) (operand : Expr)
    (grounded : type.Grounded registry) : (addressType context operand type).Grounded registry := by
  unfold addressType
  split <;> exact Ty.grounded_pointer.mpr grounded

/-- A `try` takes an error union apart. -/
theorem grounded_attemptType (context : Context) (grounded : type.Grounded registry) :
    (attemptType context position type).Grounded registry (Ty.Grounded registry) := by
  have allowed : (attemptAllowed context position).Grounded registry fun _ => True := by
    unfold attemptAllowed
    split
    · exact .pure trivial
    · exact .pure trivial
    · exact .report (by simp)
    · exact .pure trivial
  refine allowed.bind fun _ _ => ?_
  unfold attemptedType
  split
  · exact .pure (Ty.grounded_errorUnion.mp grounded)
  · exact .pure Ty.grounded_unknown
  · exact .unknownAfter (by simpa using grounded)

/-- A unary operator gives `bool`, the type of its operand, that type taken apart, or a pointer to
it. -/
theorem grounded_unaryType (context : Context) (operator : UnaryOp) (operand : Expr)
    (grounded : type.Grounded registry) :
    (unaryType context position operator operand type).Grounded registry
      (Ty.Grounded registry) := by
  unfold unaryType
  split
  · split
    · exact .pure grounded
    · exact .unknownAfter (by simpa using grounded)
  · exact (Checked.Grounded.reportIf (by simpa using grounded)).bind
      fun _ _ => .pure Ty.grounded_bool
  · exact .pure (grounded_addressType context operand grounded)
  · exact grounded_attemptType context grounded

/-- Checking all parts for their effect reports what each part does. -/
theorem grounded_ignoreAll
    (grounded : ∀ part ∈ parts, part.checked.Grounded registry (Ty.Grounded registry)) :
    (ignoreAll parts).Grounded registry fun _ => True :=
  .sequence (List.forall_mem_map.mpr fun part member => (grounded part member).ignore)

/-- Each argument is reported with its own type and the one of the parameter. -/
theorem grounded_argumentsFit (place : Nat) {params : List Ty}
    (grounded : ∀ part ∈ parts, part.checked.Grounded registry (Ty.Grounded registry))
    (expected : ∀ param ∈ params, param.Grounded registry) :
    (argumentsFit place parts params).Grounded registry fun _ => True := by
  induction parts generalizing place params with
  | nil => exact .pure trivial
  | cons part parts inductionHypothesis =>
    cases params with
    | nil => exact .pure trivial
    | cons param params =>
      rw [List.forall_mem_cons] at grounded expected
      refine grounded.1.bind fun actual found => ?_
      refine (Checked.Grounded.reportIf (by simp [expected.1, found])).bind fun _ _ => ?_
      exact inductionHypothesis (place + 1) grounded.2 expected.2

/-- A call reports how many arguments there are, or what is wrong with them. -/
theorem grounded_callFits {params : List Ty}
    (arguments : ∀ part ∈ parts, part.checked.Grounded registry (Ty.Grounded registry))
    (expected : ∀ param ∈ params, param.Grounded registry) :
    (callFits position parts params).Grounded registry fun _ => True := by
  unfold callFits
  split
  · exact grounded_argumentsFit 1 arguments expected
  · exact (Checked.Grounded.report (by simp)).bind fun _ _ => grounded_ignoreAll arguments

/-- A call gives what the signature promises. -/
theorem grounded_callType (callee : Expr) (grounded : type.Grounded registry)
    (arguments : ∀ part ∈ parts, part.checked.Grounded registry (Ty.Grounded registry)) :
    (callType position callee type parts).Grounded registry (Ty.Grounded registry) := by
  have ignored := grounded_ignoreAll arguments
  unfold callType
  split
  · obtain ⟨params, result⟩ := Ty.grounded_function.mp grounded
    exact (grounded_callFits arguments params).bind fun _ _ => .pure result
  · exact ignored.bind fun _ _ => .pure Ty.grounded_unknown
  · refine (Checked.Grounded.report ?_).bind fun _ _ =>
      ignored.bind fun _ _ => .pure Ty.grounded_unknown
    unfold calleeCause
    split <;> simp [grounded]

/-- Members are looked up in a grounded type. -/
theorem grounded_memberBase (grounded : type.Grounded registry) :
    (memberBase type).Grounded registry := by
  unfold memberBase
  split
  · exact Ty.grounded_pointer.mp grounded
  · exact grounded

/-- The type of a member is that of a field of a struct. -/
theorem grounded_memberType (known : context.Grounded)
    (grounded : type.Grounded context.registry) (field : Ident) :
    (memberType context type field).Grounded context.registry
      (Ty.Grounded context.registry) := by
  have base := grounded_memberBase grounded
  unfold memberType
  split
  · split
    · rename_i fields declared
      split
      · rename_i found present
        exact .pure (known.field declared present)
      · exact .unknownAfter (by simp)
    · exact .pure Ty.grounded_unknown
  · exact .pure Ty.grounded_unknown
  · split
    · exact .pure (Ty.grounded_primitive _)
    · exact .unknownAfter (by simpa using base)

/-- An element of a grounded type is grounded; other types are reported as they are. -/
theorem grounded_elementType (grounded : type.Grounded registry) :
    (elementType position type).Grounded registry (Ty.Grounded registry) := by
  unfold elementType
  split
  · exact .pure (Ty.grounded_array.mp grounded)
  · exact .pure (Ty.grounded_slice.mp grounded)
  · exact .pure (Ty.grounded_array.mp (Ty.grounded_pointer.mp grounded))
  · exact .pure Ty.grounded_unknown
  · exact .unknownAfter (by simpa using grounded)

/-- What a grounded pointer points to is grounded; other types are reported as they are. -/
theorem grounded_pointeeType (grounded : type.Grounded registry) :
    (pointeeType position type).Grounded registry (Ty.Grounded registry) := by
  unfold pointeeType
  split
  · exact .pure (Ty.grounded_pointer.mp grounded)
  · exact .pure Ty.grounded_unknown
  · exact .unknownAfter (by simpa using grounded)

/-- What a grounded optional holds is grounded; other types are reported as they are. -/
theorem grounded_unwrappedType (grounded : type.Grounded registry) :
    (unwrappedType position type).Grounded registry (Ty.Grounded registry) := by
  unfold unwrappedType
  split
  · exact .pure (Ty.grounded_optional.mp grounded)
  · exact .pure Ty.grounded_unknown
  · exact .unknownAfter (by simpa using grounded)

/-- An assignment reports at most the types of its target and its value. -/
theorem grounded_assignmentFits (operator : Option BinaryOp) {valuePosition : Position}
    (expected : left.Grounded registry) (actual : right.Grounded registry) :
    (assignmentFits operator position valuePosition left right).Grounded registry
      fun _ => True := by
  unfold assignmentFits
  split
  · split
    · exact grounded_expectCoercible expected actual
    · exact .report (by simp [expected, actual])
  · exact grounded_expectCoercible expected actual

/-- The type of an assignment is that of its target. -/
theorem grounded_assignType (context : Context) (operator : Option BinaryOp) (target : Expr)
    {targetPart valuePart : Part}
    (expected : targetPart.checked.Grounded registry (Ty.Grounded registry))
    (actual : valuePart.checked.Grounded registry (Ty.Grounded registry)) :
    (assignType context operator target targetPart valuePart).Grounded registry
      (Ty.Grounded registry) := by
  unfold assignType
  split
  · exact actual.ignore.bind fun _ _ => .pure Ty.grounded_unknown
  · have writable : (assignableTarget context target).Grounded registry fun _ => True := by
      unfold assignableTarget
      split
      · exact .reportIf (by simp)
      · exact .pure trivial
    refine writable.bind fun _ _ => ?_
    refine expected.bind fun type grounded => ?_
    refine actual.bind fun valueType valueGrounded => ?_
    exact (grounded_assignmentFits operator grounded valueGrounded).bind fun _ _ => .pure grounded

/-- A field that a literal fills is found among those of the struct or reported by name. -/
theorem grounded_fieldFits (struct : String) {fields : Fields} (name : Ident)
    (declared : ∀ field ∈ fields, field.2.Grounded registry) (actual : type.Grounded registry) :
    (fieldFits struct fields name position type).Grounded registry fun _ => True := by
  unfold fieldFits
  split
  · rename_i expected present
    exact grounded_expectCoercible (declared _ (mem_of_lookup present)) actual
  · exact .report (by simp)

/-- All fields that a struct literal fills fit or are reported with grounded types. -/
theorem grounded_fieldsFit (struct : String) {fields : Fields} {values : List (Ident × Part)}
    (declared : ∀ field ∈ fields, field.2.Grounded registry)
    (grounded : ∀ value ∈ values, value.2.checked.Grounded registry (Ty.Grounded registry)) :
    (fieldsFit struct fields values).Grounded registry fun _ => True := by
  induction values with
  | nil => exact .pure trivial
  | cons value values inductionHypothesis =>
    rw [List.forall_mem_cons] at grounded
    refine grounded.1.bind fun actual found => ?_
    refine (grounded_fieldFits struct value.1 declared found).bind fun _ _ => ?_
    exact inductionHypothesis grounded.2

/-- A struct literal has a type only if the struct is there. -/
theorem grounded_structLitType (known : context.Grounded) (name : Ident)
    {values : List (Ident × Part)}
    (grounded : ∀ value ∈ values,
      value.2.checked.Grounded context.registry (Ty.Grounded context.registry)) :
    (structLitType context position name values).Grounded context.registry
      (Ty.Grounded context.registry) := by
  unfold structLitType
  split
  · refine (Checked.Grounded.report (by simp)).bind fun _ _ => ?_
    have ignored := grounded_ignoreAll (List.forall_mem_map.mpr grounded)
    exact ignored.bind fun _ _ => .pure Ty.grounded_unknown
  · rename_i fields declared
    have there : context.registry.has name.name = true := Option.isSome_of_eq_some declared
    have missing : (fieldsPresent position name.name fields values).Grounded context.registry
        fun _ => True :=
      .sequence (List.forall_mem_map.mpr fun field _ => .reportIf (by simp))
    refine (grounded_fieldsFit name.name (known.fields _ (mem_of_lookup declared)) grounded).bind
      fun _ _ => ?_
    exact missing.bind fun _ _ => .pure (Ty.grounded_struct.mpr there)

/-- Each element of an array literal is reported with its type and the one that all should have. -/
theorem grounded_elementsFit (expected : type.Grounded registry)
    (grounded : ∀ part ∈ parts, part.checked.Grounded registry (Ty.Grounded registry)) :
    (elementsFit type parts).Grounded registry fun _ => True := by
  induction parts with
  | nil => exact .pure trivial
  | cons part parts inductionHypothesis =>
    rw [List.forall_mem_cons] at grounded
    refine grounded.1.bind fun actual found => ?_
    refine (grounded_expectCoercible expected found).bind fun _ _ => ?_
    exact inductionHypothesis grounded.2

/-- An array literal is an array of the element type that is written there. -/
theorem grounded_arrayLitType (context : Context) (length : Option UInt64) (element : TypeExpr)
    (grounded : ∀ part ∈ parts,
      part.checked.Grounded context.registry (Ty.Grounded context.registry)) :
    (arrayLitType context position length element parts).Grounded context.registry
      (Ty.Grounded context.registry) := by
  refine (grounded_resolve context.registry element).bind fun type resolved => ?_
  have counted : (lengthFits position length parts.length).Grounded context.registry
      fun _ => True := by
    unfold lengthFits
    split
    · exact .reportIf (by simp)
    · exact .pure trivial
  refine (grounded_elementsFit resolved grounded).bind fun _ _ => ?_
  exact counted.bind fun _ _ => .pure (Ty.grounded_array.mpr resolved)

end Rules

mutual

/-- In a grounded context the type of every expression is grounded, and so are the types in the
diagnostics. -/
theorem grounded_exprType (grounded : context.Grounded) (value : Expr) :
    (exprType context value).Grounded context.registry (Ty.Grounded context.registry) := by
  cases value with
  | number position text =>
    rw [exprType]
    split <;> exact .pure (Ty.grounded_primitive _)
  | string position text => exact .pure Ty.grounded_string
  | bool position value => exact .pure Ty.grounded_bool
  | null position => exact .pure Ty.grounded_null
  | undefined position => exact .pure Ty.grounded_unknown
  | ident position name => exact grounded_identType grounded name
  | binary position operator left right =>
    refine (grounded_exprType grounded left).bind fun leftType leftGrounded => ?_
    refine (grounded_exprType grounded right).bind fun rightType rightGrounded => ?_
    exact grounded_binaryType operator leftGrounded rightGrounded
  | unary position operator operand =>
    exact (grounded_exprType grounded operand).bind fun type inner =>
      grounded_unaryType context operator operand inner
  | call position callee arguments =>
    exact (grounded_exprType grounded callee).bind fun type inner =>
      grounded_callType callee inner (grounded_parts grounded arguments)
  | member position object field =>
    exact (grounded_exprType grounded object).bind fun type inner =>
      grounded_memberType grounded inner field
  | index position object subscript =>
    refine (grounded_exprType grounded object).bind fun type inner => ?_
    refine (grounded_exprType grounded subscript).bind fun subscriptType subscripted => ?_
    exact (Checked.Grounded.reportIf (by simpa using subscripted)).bind
      fun _ _ => grounded_elementType inner
  | deref position object =>
    exact (grounded_exprType grounded object).bind fun type inner => grounded_pointeeType inner
  | unwrap position object =>
    exact (grounded_exprType grounded object).bind fun type inner => grounded_unwrappedType inner
  | assign position operator target value =>
    exact grounded_assignType context operator target (grounded_exprType grounded target)
      (grounded_exprType grounded value)
  | structLit position name values =>
    exact grounded_structLitType grounded name (grounded_fieldParts grounded values)
  | arrayLit position length element elements =>
    exact grounded_arrayLitType context length element (grounded_parts grounded elements)

/-- So it is for several expressions. -/
theorem grounded_parts (grounded : context.Grounded) (values : List Expr) :
    ∀ part ∈ parts context values,
      part.checked.Grounded context.registry (Ty.Grounded context.registry) := by
  match values with
  | [] => exact fun _ impossible => nomatch impossible
  | first :: rest =>
    rw [parts, List.forall_mem_cons]
    exact ⟨grounded_exprType grounded first, grounded_parts grounded rest⟩

/-- So it is for the values of several fields. -/
theorem grounded_fieldParts (grounded : context.Grounded) (values : List (Ident × Expr)) :
    ∀ value ∈ fieldParts context values,
      value.2.checked.Grounded context.registry (Ty.Grounded context.registry) := by
  match values with
  | [] => exact fun _ impossible => nomatch impossible
  | (name, value) :: rest =>
    rw [fieldParts, List.forall_mem_cons]
    exact ⟨grounded_exprType grounded value, grounded_fieldParts grounded rest⟩

end

/-- A struct that members of an expression are looked up in is there, with its fields. -/
theorem exists_fields_of_member (grounded : context.Grounded) {object : Expr} {name : String}
    (base : memberBase (exprType context object).value = .struct name) :
    ∃ fields, context.registry.get? name = some fields := by
  have within := grounded_memberBase (grounded_exprType grounded object).value
  rw [base] at within
  exact Option.isSome_iff_exists.mp (Ty.grounded_struct.mp within)

end SystemsLang.Typing
