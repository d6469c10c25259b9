import SystemsLang.Proofs.Typing.Decisions

/-!
# What the checks of the single rules decide

For every form of expression the checker has a function that is given the types of the parts and
finds the type of the whole. That it raises no diagnostic and finds a type is equivalent to the rule
of the form. A context stands for the environment whose bindings are those of its symbols.
-/

namespace SystemsLang.Typing

open Syntax Checked

/-- What a symbol says about its name. -/
def Symbol.binding (symbol : Symbol) : Binding :=
  ⟨symbol.type, symbol.isConst⟩

/-- The bindings of the symbols of a scope. -/
def frameOf (scope : Scope) : Frame := fun name =>
  (scope.lookup name).map Symbol.binding

/-- The environment that a context stands for. -/
def Context.env (context : Context) : Env where
  structs := context.registry.get?
  globals := frameOf context.scopes.global
  frames := context.scopes.opened.map frameOf
  result := context.enclosing.map Enclosing.result

variable {context : Context} {position : Position} {type result : Ty}

/-- A name is bound as its symbol says. -/
theorem lookup_env (context : Context) (name : String) :
    context.env.lookup name = (context.scopes.lookup? name).map Symbol.binding := by
  have scopes (opened : List Scope) :
      (opened.map frameOf).findSome? (fun frame => frame name) =
        (opened.findSome? fun scope => scope.lookup name).map Symbol.binding := by
    induction opened with
    | nil => rfl
    | cons first rest inductionHypothesis =>
      rw [List.map_cons, List.findSome?_cons, List.findSome?_cons]
      cases found : first.lookup name with
      | none => simpa [frameOf, found] using inductionHypothesis
      | some symbol => simp [frameOf, found]
  unfold Env.lookup Scopes.lookup?
  rw [← scopes, List.map_append]
  rfl

/-- A name must not be assigned to if its binding says so. -/
theorem isConst_eq (context : Context) (name : String) :
    context.isConst name = (context.env.lookup name).any Binding.isConst := by
  rw [lookup_env, Context.isConst, Option.any_map]
  rfl

/-- A change of the result changes the result. -/
@[simp] theorem value_map {α β : Type} (change : α → β) (checked : Checked α) :
    (change <$> checked).value = change checked.value := rfl

/-- Changing what is found changes no diagnostic. -/
@[simp] theorem reports_map {α β : Type} (change : α → β) (checked : Checked α) :
    (change <$> checked).reports = checked.reports :=
  List.append_nil checked.reports

/-- A report is a diagnostic. -/
@[simp] theorem reports_report (cause : Diagnostic.Cause) :
    (report cause position).reports ≠ [] := by
  simp [report]

/-- Behind a report there is a diagnostic. -/
@[simp] theorem reports_unknownAfter (cause : Diagnostic.Cause) :
    (unknownAfter cause position).reports ≠ [] := by
  simp [unknownAfter, Checked.report]

/-- Nothing is reported exactly if the condition does not hold. -/
@[simp] theorem reports_reportIf {condition : Bool} {cause : Diagnostic.Cause} :
    (reportIf condition cause position).reports = [] ↔ condition = false := by
  cases condition <;> simp [reportIf, report]

/-- Steps for their diagnostics alone raise none if no step does. -/
theorem reports_sequence {steps : List (Checked Unit)} :
    (Checked.sequence steps).reports = [] ↔ ∀ step ∈ steps, step.reports = [] := by
  simp [Checked.sequence, List.flatMap_eq_nil_iff]

/-- Parts that are checked for their diagnostics alone. -/
theorem reports_ignoreAll {parts : List Part} :
    (ignoreAll parts).reports = [] ↔ ∀ part ∈ parts, part.checked.reports = [] := by
  simp [ignoreAll, reports_sequence, ignore]

/-- A value is reported if it does not go with what is expected. -/
theorem reports_expectCoercible {expected actual : Ty} :
    (expectCoercible position expected actual).reports = [] ↔ Coerces Eq actual expected := by
  rw [expectCoercible, reports_reportIf, Bool.not_eq_false', coercesTo_iff]

/-- A type expression whose names are known is resolved to the type that it denotes. -/
theorem resolve_iff {registry : Registry} {type : TypeExpr} :
    (registry.resolve type).reports = [] ↔ Known registry.get? type := by
  induction type with
  | primitive position name => simp [Registry.resolve, Known]
  | named position name =>
    rw [Registry.resolve, Known]
    split
    · rename_i present
      exact ⟨fun _ => present, fun _ => rfl⟩
    · rename_i absent
      exact ⟨fun none => absurd none (reports_unknownAfter _), fun present => absurd present absent⟩
  | pointer _ _ _ inductionHypothesis | array _ _ _ inductionHypothesis
  | slice _ _ _ inductionHypothesis | optional _ _ inductionHypothesis
  | errorUnion _ _ inductionHypothesis => simpa [Registry.resolve, Known] using inductionHypothesis

/-- A known type expression is resolved to the type that it denotes. -/
theorem resolve_eq {registry : Registry} {type : TypeExpr} (known : Known registry.get? type) :
    (registry.resolve type).value = denoted type := by
  induction type with
  | primitive position name => rfl
  | named position name =>
    have present : registry.has name = true := known
    rw [Registry.resolve, if_pos present]
    rfl
  | pointer _ _ _ inductionHypothesis | array _ _ _ inductionHypothesis
  | slice _ _ _ inductionHypothesis | optional _ _ inductionHypothesis
  | errorUnion _ _ inductionHypothesis =>
    simp [Registry.resolve, denoted, inductionHypothesis known]

/-- A written type is resolved without a diagnostic if it is known. -/
theorem reports_mapM_resolve {registry : Registry} {written : Option TypeExpr} :
    (written.mapM registry.resolve : Checked (Option Ty)).reports = [] ↔
      ∀ stated ∈ written, Known registry.get? stated := by
  cases written with
  | none => simp
  | some stated => simp [resolve_iff]

/-- A known written type is resolved to the type that it denotes. -/
theorem value_mapM_resolve {registry : Registry} {written : Option TypeExpr}
    (known : ∀ stated ∈ written, Known registry.get? stated) :
    (written.mapM registry.resolve : Checked (Option Ty)).value = written.map denoted := by
  cases written with
  | none => rfl
  | some stated => simp [resolve_eq (known stated rfl)]

/-- A check finds a type without raising a diagnostic. -/
def Finds (checked : Checked Ty) (type : Ty) : Prop :=
  checked.reports = [] ∧ checked.value = type

/-- What is there already is found, and no other type. -/
@[simp] theorem finds_pure {found : Ty} : Finds (pure found) type ↔ found = type := by
  simp [Finds]

/-- Behind a report no type is found. -/
@[simp] theorem not_finds_unknownAfter (cause : Diagnostic.Cause) :
    ¬ Finds (unknownAfter cause position) type :=
  fun finds => reports_unknownAfter cause finds.1

/-- A sequence finds what its last step finds, if the steps before raise nothing. -/
@[simp] theorem finds_bind {α : Type} {first : Checked α} {second : α → Checked Ty} :
    Finds (first >>= second) type ↔ first.reports = [] ∧ Finds (second first.value) type := by
  simp [Finds, and_assoc]

/-- What is found and then changed has been found before. -/
@[simp] theorem finds_map {α : Type} {change : α → Ty} {checked : Checked α} :
    Finds (change <$> checked) type ↔ checked.reports = [] ∧ change checked.value = type := by
  simp [Finds]

/-- The check of a binary operation decides its rule. -/
theorem finds_binaryType {operator : BinaryOp} {left right : Ty} :
    Finds (binaryType position operator left right) type ↔
      BinaryType Eq operator left right type := by
  unfold binaryType
  constructor
  · intro finds
    split at finds
    · rename_i arithmetic
      split at finds
      · rename_i numeric
        obtain ⟨leftNumeric, rightNumeric⟩ := Bool.and_eq_true_iff.mp numeric
        obtain rfl := finds_pure.mp finds
        exact .arithmetic arithmetic (mayBeNumeric_iff.mp leftNumeric)
          (mayBeNumeric_iff.mp rightNumeric)
      · exact absurd finds (not_finds_unknownAfter _)
    · rename_i comparison
      obtain ⟨compatible, found⟩ := finds_bind.mp finds
      obtain rfl := finds_pure.mp found
      rw [reports_reportIf, Bool.not_eq_false', isComparableWith_iff] at compatible
      exact .comparison comparison compatible
    · rename_i logical
      obtain ⟨boolean, found⟩ := finds_bind.mp finds
      obtain rfl := finds_pure.mp found
      rw [reports_reportIf, Bool.not_eq_false', Bool.and_eq_true, mayBeBool_iff,
        mayBeBool_iff] at boolean
      exact .logical logical boolean.1 boolean.2
  · intro rule
    cases rule with
    | arithmetic arithmetic leftNumeric rightNumeric =>
      simp [arithmetic, mayBeNumeric_iff.mpr leftNumeric, mayBeNumeric_iff.mpr rightNumeric]
    | comparison comparison compatible =>
      simp [comparison, isComparableWith_iff.mpr compatible]
    | logical logical leftBoolean rightBoolean =>
      simp [logical, mayBeBool_iff.mpr leftBoolean, mayBeBool_iff.mpr rightBoolean]

/-- Whether a `try` may stand where it stands. A function has no result of the unknown type if its
declaration raised no diagnostic. -/
theorem reports_attemptAllowed
    (known : ∀ enclosing ∈ context.enclosing, enclosing.result ≠ .unknown) :
    (attemptAllowed context position).reports = [] ↔ MayAttempt context.env := by
  unfold attemptAllowed MayAttempt Context.env
  cases same : context.enclosing with
  | none => simp
  | some enclosing =>
    obtain ⟨name, result⟩ := enclosing
    have notUnknown := known ⟨name, result⟩ same
    cases result <;> simp_all

/-- The check of a prefix operation decides its rule. An operand that is a name is bound. -/
theorem finds_unaryType {operator : UnaryOp} {operand : Expr} {operandType : Ty}
    (known : ∀ enclosing ∈ context.enclosing, enclosing.result ≠ .unknown)
    (bound : ∀ place name, operand = .ident place name →
      ∃ binding, context.env.lookup name = some binding) :
    Finds (unaryType context position operator operand operandType) type ↔
      UnaryType context.env operand operator operandType type := by
  constructor
  · intro finds
    unfold unaryType at finds
    split at finds
    · split at finds
      · rename_i numeric
        obtain rfl := finds_pure.mp finds
        exact .negate (mayBeNumeric_iff.mp numeric)
      · exact absurd finds (not_finds_unknownAfter _)
    · obtain ⟨boolean, found⟩ := finds_bind.mp finds
      obtain rfl := finds_pure.mp found
      rw [reports_reportIf, Bool.not_eq_false', mayBeBool_iff] at boolean
      exact .not boolean
    · obtain rfl := finds_pure.mp finds
      unfold addressType
      split
      · rename_i place name
        obtain ⟨binding, isBound⟩ := bound place name rfl
        rw [isConst_eq, isBound]
        exact .addressOfName rfl isBound
      · rename_i unnamed
        exact .addressOf unnamed
    · obtain ⟨allowed, found⟩ := finds_bind.mp finds
      rw [reports_attemptAllowed known] at allowed
      unfold attemptedType at found
      split at found
      · obtain rfl := finds_pure.mp found
        exact .attempt allowed
      · obtain rfl := finds_pure.mp found
        exact .attemptUnknown allowed
      · exact absurd found (not_finds_unknownAfter _)
  · intro rule
    cases rule with
    | negate numeric => simp [unaryType, mayBeNumeric_iff.mpr numeric]
    | not boolean => simp [unaryType, mayBeBool_iff.mpr boolean]
    | addressOfName named isBound =>
      subst named
      simp [unaryType, addressType, isConst_eq, isBound]
    | addressOf unnamed =>
      have plain : addressType context operand operandType = .pointer false operandType := by
        unfold addressType
        split
        · exact absurd rfl (unnamed _ _)
        · rfl
      exact finds_pure.mpr plain
    | attempt allowed | attemptUnknown allowed =>
      exact finds_bind.mpr ⟨(reports_attemptAllowed known).mpr allowed, finds_pure.mpr rfl⟩

/-- Arguments fit if each raises no diagnostic and goes with its parameter. -/
theorem reports_argumentsFit {parts : List Part} {params : List Ty} {place : Nat}
    (count : parts.length = params.length) :
    (argumentsFit place parts params).reports = [] ↔
      (∀ part ∈ parts, part.checked.reports = []) ∧
        ∀ pair ∈ (parts.map fun part => part.checked.value).zip params,
          Coerces Eq pair.1 pair.2 := by
  induction parts generalizing params place with
  | nil => simp [argumentsFit]
  | cons part parts inductionHypothesis =>
    cases params with
    | nil => cases count
    | cons expected params =>
      have fewer : parts.length = params.length := Nat.succ.inj count
      simp only [argumentsFit, reports_bind, List.append_eq_nil_iff, reports_reportIf,
        Bool.not_eq_false', coercesTo_iff, inductionHypothesis fewer, List.forall_mem_cons,
        List.map_cons, List.zip_cons_cons]
      constructor
      · rintro ⟨here, fits, others, fit⟩
        exact ⟨⟨here, others⟩, fits, fit⟩
      · rintro ⟨⟨here, others⟩, fits, fit⟩
        exact ⟨here, fits, others, fit⟩

/-- The check of a call decides its rule, if the arguments raise no diagnostics. -/
theorem finds_callType {callee : Expr} {calleeType : Ty} {parts : List Part} :
    Finds (callType position callee calleeType parts) type ↔
      (∀ part ∈ parts, part.checked.reports = []) ∧
        CallType Eq (parts.map fun part => part.checked.value) calleeType type := by
  unfold callType
  constructor
  · intro finds
    split at finds
    · rename_i params result
      obtain ⟨fits, found⟩ := finds_bind.mp finds
      obtain rfl := finds_pure.mp found
      unfold callFits at fits
      split at fits
      · rename_i count
        obtain ⟨quiet, fit⟩ := (reports_argumentsFit count).mp fits
        exact ⟨quiet, .function (by rw [List.length_map, count]) fit⟩
      · simp at fits
    · obtain ⟨quiet, found⟩ := finds_bind.mp finds
      obtain rfl := finds_pure.mp found
      exact ⟨reports_ignoreAll.mp quiet, .unknown⟩
    · simp at finds
  · rintro ⟨quiet, rule⟩
    cases rule with
    | function count fit =>
      rw [List.length_map] at count
      refine finds_bind.mpr ⟨?_, finds_pure.mpr rfl⟩
      rw [callFits, if_pos count]
      exact (reports_argumentsFit count).mpr ⟨quiet, fit⟩
    | unknown => exact finds_bind.mpr ⟨reports_ignoreAll.mpr quiet, finds_pure.mpr rfl⟩

/-- Members of a value are looked up in the struct that it is or points to. -/
theorem memberBase_eq_struct {struct : String} :
    memberBase type = .struct struct ↔ MembersOf type struct := by
  constructor
  · intro same
    unfold memberBase at same
    split at same
    · obtain rfl := Ty.struct.inj same
      exact .pointer _ _
    · rw [same]
      exact .struct struct
  · intro looked
    cases looked <;> rfl

/-- Members of other values are looked up in their own type. -/
theorem memberBase_eq_self (plain : ∀ struct, memberBase type ≠ .struct struct) :
    memberBase type = type := by
  unfold memberBase at plain ⊢
  split at plain
  · exact absurd rfl (plain _)
  · rfl

/-- Arrays and slices have a length. -/
theorem hasLength_iff : hasLength type = true ↔ HasLength type := by
  constructor
  · intro counted
    cases type with
    | array length element => exact .array length element
    | slice isConst element => exact .slice isConst element
    | void | unknown | null | primitive | struct | function | pointer | optional | errorUnion =>
      cases counted
  · intro counted
    cases counted <;> rfl

/-- The check of a member decides its rule, if structs that the type mentions are there. -/
theorem finds_memberType {field : Ident}
    (there : ∀ struct, MembersOf type struct → (context.env.structs struct).isSome = true) :
    Finds (memberType context type field) result ↔
      MemberType context.env field.name type result := by
  constructor
  · intro finds
    unfold memberType at finds
    split at finds
    · rename_i struct base
      have looked : MembersOf type struct := memberBase_eq_struct.mp base
      split at finds
      · rename_i fields declared
        split at finds
        · rename_i found present
          obtain rfl := finds_pure.mp finds
          exact .field looked declared present
        · exact absurd finds (not_finds_unknownAfter _)
      · rename_i absent
        have present := there struct looked
        rw [show context.env.structs struct = none from absent] at present
        cases present
    · rename_i base
      obtain rfl := finds_pure.mp finds
      have same : memberBase type = type := memberBase_eq_self (by simp [base])
      rw [← same, base]
      exact .unknown
    · rename_i notStruct notUnknown
      rw [memberBase_eq_self notStruct] at finds
      split at finds
      · rename_i named
        obtain ⟨counted, isLen⟩ := Bool.and_eq_true_iff.mp named
        obtain rfl := finds_pure.mp finds
        exact .length (hasLength_iff.mp counted) (beq_iff_eq.mp isLen)
      · exact absurd finds (not_finds_unknownAfter _)
  · intro rule
    cases rule with
    | field looked declared present =>
      have declared' : context.registry.get? _ = some _ := declared
      simp [memberType, memberBase_eq_struct.mpr looked, declared', present]
    | length counted named =>
      cases counted <;> simp [memberType, memberBase, hasLength, named]
    | unknown => exact finds_pure.mpr rfl

/-- The check of a subscript decides what is found there. -/
theorem finds_elementType : Finds (elementType position type) result ↔ ElementType type result := by
  constructor
  · intro finds
    unfold elementType at finds
    split at finds
    · obtain rfl := finds_pure.mp finds
      exact .array _ _
    · obtain rfl := finds_pure.mp finds
      exact .slice _ _
    · obtain rfl := finds_pure.mp finds
      exact .pointer _ _ _
    · obtain rfl := finds_pure.mp finds
      exact .unknown
    · exact absurd finds (not_finds_unknownAfter _)
  · intro rule
    cases rule <;> exact finds_pure.mpr rfl

/-- The check of a pointer decides what is found there. -/
theorem finds_pointeeType : Finds (pointeeType position type) result ↔ PointeeType type result := by
  constructor
  · intro finds
    unfold pointeeType at finds
    split at finds
    · obtain rfl := finds_pure.mp finds
      exact .pointer _ _
    · obtain rfl := finds_pure.mp finds
      exact .unknown
    · exact absurd finds (not_finds_unknownAfter _)
  · intro rule
    cases rule <;> exact finds_pure.mpr rfl

/-- The check of an optional decides what is found there. -/
theorem finds_unwrappedType :
    Finds (unwrappedType position type) result ↔ UnwrappedType type result := by
  constructor
  · intro finds
    unfold unwrappedType at finds
    split at finds
    · obtain rfl := finds_pure.mp finds
      exact .optional _
    · obtain rfl := finds_pure.mp finds
      exact .unknown
    · exact absurd finds (not_finds_unknownAfter _)
  · intro rule
    cases rule <;> exact finds_pure.mpr rfl

/-- An assignment is taken for a discard if it is one. -/
theorem isDiscard_iff {operator : Option BinaryOp} {target : Expr} :
    isDiscard operator target = true ↔ Discards operator target := by
  constructor
  · intro discards
    unfold isDiscard at discards
    split at discards
    · exact ⟨rfl, _, rfl⟩
    · cases discards
  · rintro ⟨rfl, position, rfl⟩
    rfl

/-- A target is reported if it is a name that must not be assigned to. -/
theorem reports_assignableTarget {target : Expr} :
    (assignableTarget context target).reports = [] ↔ Writable context.env target := by
  unfold assignableTarget Writable
  split
  · rename_i place name
    rw [reports_reportIf, isConst_eq]
    constructor
    · rintro free position other same binding bound
      obtain ⟨-, rfl⟩ := Expr.ident.inj same
      rw [Option.mem_def.mp bound] at free
      exact free
    · intro writable
      cases bound : context.env.lookup name with
      | none => rfl
      | some binding => exact writable place name rfl binding bound
  · rename_i unnamed
    exact ⟨fun _ position name same => absurd same (unnamed position name), fun _ => rfl⟩

/-- The check of an assigned value decides whether it may be assigned. -/
theorem reports_assignmentFits {operator : Option BinaryOp} {valuePosition : Position}
    {expected actual : Ty} :
    (assignmentFits operator position valuePosition expected actual).reports = [] ↔
      Assignable Eq operator expected actual := by
  unfold assignmentFits Assignable
  cases operator with
  | none => simp [reports_expectCoercible]
  | some operator =>
    simp only [Option.isSome_some, forall_const, ← mayBeNumeric_iff, ← Bool.and_eq_true]
    split
    · rename_i numeric
      simp [numeric, reports_expectCoercible]
    · rename_i notNumeric
      simp [notNumeric]

/-- The check of an assignment that discards a value looks at the value alone. -/
theorem finds_assignType_discard {operator : Option BinaryOp} {target : Expr}
    {targetPart valuePart : Part} (discards : Discards operator target) :
    Finds (assignType context operator target targetPart valuePart) type ↔
      valuePart.checked.reports = [] ∧ .unknown = type := by
  rw [assignType, if_pos (isDiscard_iff.mpr discards)]
  simp [ignore]

/-- The check of any other assignment decides its rule. -/
theorem finds_assignType {operator : Option BinaryOp} {target : Expr}
    {targetPart valuePart : Part} (keeps : ¬ Discards operator target) :
    Finds (assignType context operator target targetPart valuePart) type ↔
      Writable context.env target ∧ targetPart.checked.reports = [] ∧
        valuePart.checked.reports = [] ∧
        Assignable Eq operator targetPart.checked.value valuePart.checked.value ∧
        targetPart.checked.value = type := by
  rw [assignType, if_neg (fun discards => keeps (isDiscard_iff.mp discards))]
  simp [reports_assignableTarget, reports_assignmentFits]

/-- The check of a field's value decides whether the field is there and the value goes with it. -/
theorem reports_fieldFits {struct : String} {fields : Fields} {name : Ident} {actual : Ty} :
    (fieldFits struct fields name position actual).reports = [] ↔
      ∃ expected, fields.lookup name.name = some expected ∧ Coerces Eq actual expected := by
  unfold fieldFits
  cases fields.lookup name.name with
  | none => simp
  | some expected => simp [reports_expectCoercible]

/-- The values of a struct literal fit if each raises no diagnostic and goes with its field. -/
theorem reports_fieldsFit {struct : String} {fields : Fields} {values : List (Ident × Part)} :
    (fieldsFit struct fields values).reports = [] ↔
      (∀ value ∈ values, value.2.checked.reports = []) ∧
        ∀ pair ∈ (values.map Prod.fst).zip (values.map fun value => value.2.checked.value),
          ∃ expected, fields.lookup pair.1.name = some expected ∧ Coerces Eq pair.2 expected := by
  induction values with
  | nil => simp [fieldsFit]
  | cons value values inductionHypothesis =>
    simp only [fieldsFit, reports_bind, List.append_eq_nil_iff, reports_fieldFits,
      inductionHypothesis, List.forall_mem_cons, List.map_cons, List.zip_cons_cons]
    constructor
    · rintro ⟨here, fits, others, fit⟩
      exact ⟨⟨here, others⟩, fits, fit⟩
    · rintro ⟨⟨here, others⟩, fits, fit⟩
      exact ⟨here, fits, others, fit⟩

/-- No field is missing if every one has a value. -/
theorem reports_fieldsPresent {struct : String} {fields : Fields} {values : List (Ident × Part)} :
    (fieldsPresent position struct fields values).reports = [] ↔
      ∀ field ∈ fields, ∃ name ∈ values.map Prod.fst, name.name = field.1 := by
  rw [fieldsPresent, reports_sequence, List.forall_mem_map]
  refine forall_congr' fun field => imp_congr_right fun _ => ?_
  rw [reports_reportIf, Bool.not_eq_false', List.any_eq_true]
  simp

/-- The check of a struct literal decides its rule, if the values raise no diagnostics. -/
theorem finds_structLitType {name : Ident} {values : List (Ident × Part)} :
    Finds (structLitType context position name values) type ↔
      ∃ fields, context.env.structs name.name = some fields ∧
        (∀ value ∈ values, value.2.checked.reports = []) ∧
        (∀ pair ∈ (values.map Prod.fst).zip (values.map fun value => value.2.checked.value),
          ∃ expected, fields.lookup pair.1.name = some expected ∧ Coerces Eq pair.2 expected) ∧
        (∀ field ∈ fields, ∃ given ∈ values.map Prod.fst, given.name = field.1) ∧
        .struct name.name = type := by
  have same : context.env.structs name.name = context.registry.get? name.name := rfl
  rw [same]
  unfold structLitType
  cases context.registry.get? name.name with
  | none => simp
  | some fields => simp [reports_fieldsFit, reports_fieldsPresent, and_assoc]

/-- The elements of an array literal fit if each raises no diagnostic and goes with their type. -/
theorem reports_elementsFit {expected : Ty} {parts : List Part} :
    (elementsFit expected parts).reports = [] ↔
      (∀ part ∈ parts, part.checked.reports = []) ∧
        ∀ actual ∈ parts.map fun part => part.checked.value, Coerces Eq actual expected := by
  induction parts with
  | nil => simp [elementsFit]
  | cons part parts inductionHypothesis =>
    simp only [elementsFit, reports_bind, List.append_eq_nil_iff, reports_expectCoercible,
      inductionHypothesis, List.forall_mem_cons, List.map_cons]
    constructor
    · rintro ⟨here, fits, others, fit⟩
      exact ⟨⟨here, others⟩, fits, fit⟩
    · rintro ⟨⟨here, others⟩, fits, fit⟩
      exact ⟨here, fits, others, fit⟩

/-- A stated length has to be the number of elements. -/
theorem reports_lengthFits {length : Option UInt64} {count : Nat} :
    (lengthFits position length count).reports = [] ↔
      ∀ stated ∈ length, stated = UInt64.ofNat count := by
  cases length <;> simp [lengthFits]

/-- The check of an array literal decides its rule, if the elements raise no diagnostics. -/
theorem finds_arrayLitType {length : Option UInt64} {elementExpr : TypeExpr} {parts : List Part} :
    Finds (arrayLitType context position length elementExpr parts) type ↔
      Known context.env.structs elementExpr ∧ (∀ part ∈ parts, part.checked.reports = []) ∧
        (∀ actual ∈ parts.map fun part => part.checked.value,
          Coerces Eq actual (denoted elementExpr)) ∧
        (∀ stated ∈ length, stated = UInt64.ofNat parts.length) ∧
        .array (UInt64.ofNat parts.length) (denoted elementExpr) = type := by
  have resolved : (context.registry.resolve elementExpr).reports = [] ↔
      Known context.env.structs elementExpr := resolve_iff
  unfold arrayLitType
  simp only [finds_bind, finds_pure, reports_elementsFit, reports_lengthFits, resolved, and_assoc]
  refine and_congr_right fun known => ?_
  rw [resolve_eq known]
  refine and_congr_right fun _ => and_congr_right fun _ => and_congr_right fun counted => ?_
  cases length with
  | none => rfl
  | some stated => rw [counted stated rfl]; rfl

end SystemsLang.Typing
