import SystemsLang.Proofs.Typing.RuleChecks

/-!
# The checker decides the types of expressions

An expression raises no diagnostic exactly if it has a type, and then the checker finds that type.
Both directions follow the tree; the rules of the single forms are decided already.

One thing has to hold of the environment besides: the structs that its types mention are there. The
checker lets members of a struct that it does not know pass without a word, and the rules do not.
-/

namespace SystemsLang.Typing

open Syntax Checked

/-- The structs that values of a type lead to are there. The parameters of a function do not lead
anywhere. -/
def Closed (structs : String → Option Fields) : Ty → Prop
  | .struct name => (structs name).isSome = true
  | .function _ inner | .pointer _ inner | .array _ inner | .slice _ inner | .optional inner
  | .errorUnion inner => Closed structs inner
  | .void | .unknown | .null | .primitive _ => True

/-- All names that are bound in an environment have types with a property. -/
def Env.Binds (env : Env) (holds : Ty → Prop) : Prop :=
  ∀ frame ∈ env.globals :: env.frames, ∀ name binding, frame name = some binding →
    holds binding.type

/-- The structs that the types in an environment lead to are there. -/
structure Env.Sound (env : Env) : Prop where
  fields : ∀ struct fields, env.structs struct = some fields →
    ∀ field ∈ fields, Closed env.structs field.2
  bindings : env.Binds (Closed env.structs)

variable {Same : Ty → Ty → Prop} {env : Env} {context : Context}

/-- What a name is bound to, wherever it is bound, has the property. -/
theorem Env.Binds.lookup {holds : Ty → Prop} (binds : env.Binds holds) {name : String}
    {binding : Binding} (bound : env.lookup name = some binding) : holds binding.type := by
  obtain ⟨frame, member, found⟩ := List.exists_of_findSome?_eq_some bound
  rcases List.mem_append.mp member with inner | outer
  · exact binds frame (List.mem_cons_of_mem _ inner) name binding found
  · rw [List.mem_singleton.mp outer] at found
    exact binds env.globals List.mem_cons_self name binding found

/-- What a known type expression denotes has its structs there. -/
theorem closed_denoted {structs : String → Option Fields} {type : TypeExpr}
    (known : Known structs type) : Closed structs (denoted type) := by
  induction type with
  | primitive position name =>
    unfold denoted Ty.ofPrimitive
    split <;> trivial
  | named position name => exact known
  | pointer _ _ _ inductionHypothesis | array _ _ _ inductionHypothesis
  | slice _ _ _ inductionHypothesis | optional _ _ inductionHypothesis
  | errorUnion _ _ inductionHypothesis => exact inductionHypothesis known

/-- What is found under a name is there with that name. -/
theorem mem_of_lookup {α : Type} {entries : List (String × α)} {name : String} {value : α}
    (found : entries.lookup name = some value) : (name, value) ∈ entries := by
  obtain ⟨before, after, rfl, -⟩ := List.lookup_eq_some_iff.mp found
  simp

/-- In a sound environment every type of an expression has its structs there. -/
theorem closed_of_hasType (sound : env.Sound) (expression : Expr) {type : Ty}
    (typed : HasType Same env expression type) : Closed env.structs type := by
  cases typed with
  | integer | fraction | string | bool | null | undefined | discard => trivial
  | ident bound => exact sound.bindings.lookup bound
  | @binary _ _ left _ _ _ _ leftTyped _ rule =>
    cases rule with
    | arithmetic => exact closed_of_hasType sound left leftTyped
    | comparison | logical => trivial
  | @unary _ _ operand _ _ typed rule =>
    have inner := closed_of_hasType sound operand typed
    cases rule with
    | negate | addressOfName | addressOf | attempt => exact inner
    | not | attemptUnknown => trivial
  | @call _ callee _ _ _ _ typed _ rule =>
    have inner := closed_of_hasType sound callee typed
    cases rule with
    | function => exact inner
    | unknown => trivial
  | @member _ object _ _ _ typed rule =>
    cases rule with
    | field looked declared present =>
      exact sound.fields _ _ declared _ (mem_of_lookup present)
    | length | unknown => trivial
  | @index _ object _ _ _ _ typed _ _ rule =>
    have inner := closed_of_hasType sound object typed
    cases rule with
    | array | slice | pointer => exact inner
    | unknown => trivial
  | @deref _ object _ _ typed rule =>
    have inner := closed_of_hasType sound object typed
    cases rule with
    | pointer => exact inner
    | unknown => trivial
  | @unwrap _ object _ _ typed rule =>
    have inner := closed_of_hasType sound object typed
    cases rule with
    | optional => exact inner
    | unknown => trivial
  | @assign _ _ target _ _ _ _ _ targetTyped => exact closed_of_hasType sound target targetTyped
  | structLit declared => exact Option.isSome_of_eq_some declared
  | arrayLit known => exact closed_denoted known

/-- What members of an expression are looked up in is there. -/
theorem there_of_hasType (sound : env.Sound) {expression : Expr} {type : Ty} {struct : String}
    (typed : HasType Same env expression type) (looked : MembersOf type struct) :
    (env.structs struct).isSome = true := by
  have closed := closed_of_hasType sound expression typed
  cases looked <;> exact closed

/-- The arguments that the checker compares are as many as the expressions. -/
theorem length_parts (context : Context) (expressions : List Expr) :
    (parts context expressions).length = expressions.length := by
  induction expressions with
  | nil => rfl
  | cons first rest inductionHypothesis => rw [parts, List.length_cons, inductionHypothesis]; rfl

/-- The values of a literal are checked under the names that they have. -/
theorem map_fst_fieldParts (context : Context) (values : List (Ident × Expr)) :
    (fieldParts context values).map Prod.fst = values.map Prod.fst := by
  induction values with
  | nil => rfl
  | cons first rest inductionHypothesis =>
    rw [fieldParts, List.map_cons, inductionHypothesis]
    rfl

/-- What the environment of a context has to be like. -/
structure Context.Sound (context : Context) : Prop where
  env : context.env.Sound
  known : ∀ enclosing ∈ context.enclosing, enclosing.result ≠ .unknown

/-- An operand that is a name and has a type is bound. -/
theorem bound_of_hasType {expression : Expr} {type : Ty}
    (typed : HasType Same env expression type) :
    ∀ place name, expression = .ident place name → ∃ binding, env.lookup name = some binding := by
  rintro place name rfl
  cases typed with
  | ident bound => exact ⟨_, bound⟩

mutual

/-- An expression that raises no diagnostic has the type that the checker finds. -/
theorem hasType_of_finds (sound : context.Sound) (expression : Expr) {type : Ty}
    (finds : Finds (exprType context expression) type) :
    HasType Eq context.env expression type := by
  cases expression with
  | number position text =>
    obtain rfl := finds_pure.mp finds
    split
    · rename_i point
      exact .fraction (List.contains_iff_mem.mp point)
    · rename_i whole
      exact .integer fun point => whole (List.contains_iff_mem.mpr point)
  | string position value =>
    obtain rfl := finds_pure.mp finds
    exact .string
  | bool position value =>
    obtain rfl := finds_pure.mp finds
    exact .bool
  | null position =>
    obtain rfl := finds_pure.mp finds
    exact .null
  | undefined position =>
    obtain rfl := finds_pure.mp finds
    exact .undefined
  | ident position name =>
    rw [exprType, identType] at finds
    cases found : context.scopes.lookup? name with
    | none =>
      rw [found] at finds
      exact absurd finds (not_finds_unknownAfter _)
    | some symbol =>
      rw [found] at finds
      obtain rfl := finds_pure.mp finds
      have bound : context.env.lookup name = some symbol.binding := by
        rw [lookup_env, found]
        rfl
      exact .ident bound
  | binary position operator left right =>
    rw [exprType, finds_bind, finds_bind, finds_binaryType] at finds
    obtain ⟨leftQuiet, rightQuiet, rule⟩ := finds
    exact .binary (hasType_of_finds sound left ⟨leftQuiet, rfl⟩)
      (hasType_of_finds sound right ⟨rightQuiet, rfl⟩) rule
  | unary position operator operand =>
    rw [exprType, finds_bind] at finds
    obtain ⟨quiet, found⟩ := finds
    -- The rule for addresses asks whether an operand that is a name is bound. That it has a type
    -- tells.
    have typed := hasType_of_finds sound operand ⟨quiet, rfl⟩
    exact .unary typed ((finds_unaryType sound.known (bound_of_hasType typed)).mp found)
  | call position callee arguments =>
    rw [exprType, finds_bind, finds_callType] at finds
    obtain ⟨quiet, argumentsQuiet, rule⟩ := finds
    exact .call (hasType_of_finds sound callee ⟨quiet, rfl⟩)
      (hasTypes_of_finds sound arguments argumentsQuiet) rule
  | member position object field =>
    rw [exprType, finds_bind] at finds
    obtain ⟨quiet, found⟩ := finds
    have typed := hasType_of_finds sound object ⟨quiet, rfl⟩
    exact .member typed
      ((finds_memberType fun struct => there_of_hasType sound.env typed).mp found)
  | index position object subscript =>
    rw [exprType, finds_bind, finds_bind, finds_bind, subscriptFits, reports_reportIf,
      Bool.not_eq_false', mayBeInteger_iff, finds_elementType] at finds
    obtain ⟨quiet, subscriptQuiet, integral, rule⟩ := finds
    exact .index (hasType_of_finds sound object ⟨quiet, rfl⟩)
      (hasType_of_finds sound subscript ⟨subscriptQuiet, rfl⟩) integral rule
  | deref position object =>
    rw [exprType, finds_bind, finds_pointeeType] at finds
    exact .deref (hasType_of_finds sound object ⟨finds.1, rfl⟩) finds.2
  | unwrap position object =>
    rw [exprType, finds_bind, finds_unwrappedType] at finds
    exact .unwrap (hasType_of_finds sound object ⟨finds.1, rfl⟩) finds.2
  | assign position operator target value =>
    rw [exprType] at finds
    by_cases discards : Discards operator target
    · obtain ⟨quiet, rfl⟩ := (finds_assignType_discard discards).mp finds
      exact .discard discards (hasType_of_finds sound value ⟨quiet, rfl⟩)
    · obtain ⟨writable, targetQuiet, quiet, fits, rfl⟩ := (finds_assignType discards).mp finds
      exact .assign discards writable (hasType_of_finds sound target ⟨targetQuiet, rfl⟩)
        (hasType_of_finds sound value ⟨quiet, rfl⟩) fits
  | structLit position name values =>
    rw [exprType, finds_structLitType, map_fst_fieldParts] at finds
    obtain ⟨fields, declared, quiet, fit, complete, rfl⟩ := finds
    exact .structLit declared (hasTypes_of_finds_fields sound values quiet) fit complete
  | arrayLit position length elementExpr elements =>
    rw [exprType, finds_arrayLitType, length_parts] at finds
    obtain ⟨known, quiet, fit, counted, rfl⟩ := finds
    exact .arrayLit known (hasTypes_of_finds sound elements quiet) fit counted

/-- Several expressions that raise no diagnostics have the types that the checker finds. -/
theorem hasTypes_of_finds (sound : context.Sound) (expressions : List Expr)
    (quiet : ∀ part ∈ parts context expressions, part.checked.reports = []) :
    HasTypes Eq context.env expressions
      ((parts context expressions).map fun part => part.checked.value) := by
  match expressions with
  | [] => exact .nil
  | first :: rest =>
    rw [parts, List.forall_mem_cons] at quiet
    exact .cons (hasType_of_finds sound first ⟨quiet.1, rfl⟩) (hasTypes_of_finds sound rest quiet.2)

/-- So do the values of several fields. -/
theorem hasTypes_of_finds_fields (sound : context.Sound) (values : List (Ident × Expr))
    (quiet : ∀ value ∈ fieldParts context values, value.2.checked.reports = []) :
    HasTypes Eq context.env (values.map Prod.snd)
      ((fieldParts context values).map fun value => value.2.checked.value) := by
  match values with
  | [] => exact .nil
  | (name, value) :: rest =>
    rw [fieldParts, List.forall_mem_cons] at quiet
    exact .cons (hasType_of_finds sound value ⟨quiet.1, rfl⟩)
      (hasTypes_of_finds_fields sound rest quiet.2)

end

mutual

/-- The checker finds the type that an expression has, without raising a diagnostic. -/
theorem finds_of_hasType (sound : context.Sound) (expression : Expr) {type : Ty}
    (typed : HasType Eq context.env expression type) :
    Finds (exprType context expression) type := by
  cases typed with
  | @integer position text whole =>
    have absent : ¬ (text.toList.contains '.') = true := fun point =>
      whole (List.contains_iff_mem.mp point)
    rw [exprType, if_neg absent]
    exact finds_pure.mpr rfl
  | @fraction position text point =>
    rw [exprType, if_pos (List.contains_iff_mem.mpr point)]
    exact finds_pure.mpr rfl
  | string | bool | null | undefined => exact finds_pure.mpr rfl
  | @ident position name binding bound =>
    rw [lookup_env] at bound
    obtain ⟨symbol, found, rfl⟩ := Option.map_eq_some_iff.mp bound
    rw [exprType, identType, found]
    exact finds_pure.mpr rfl
  | @binary _ _ left right _ _ _ leftTyped rightTyped rule =>
    obtain ⟨leftQuiet, rfl⟩ := finds_of_hasType sound left leftTyped
    obtain ⟨rightQuiet, rfl⟩ := finds_of_hasType sound right rightTyped
    rw [exprType, finds_bind, finds_bind, finds_binaryType]
    exact ⟨leftQuiet, rightQuiet, rule⟩
  | @unary _ _ operand _ _ typed rule =>
    obtain ⟨quiet, rfl⟩ := finds_of_hasType sound operand typed
    rw [exprType, finds_bind]
    exact ⟨quiet, (finds_unaryType sound.known (bound_of_hasType typed)).mpr rule⟩
  | @call _ callee arguments _ _ _ typed given rule =>
    obtain ⟨quiet, rfl⟩ := finds_of_hasType sound callee typed
    obtain ⟨argumentsQuiet, rfl⟩ := finds_of_hasTypes sound arguments given
    rw [exprType, finds_bind, finds_callType]
    exact ⟨quiet, argumentsQuiet, rule⟩
  | @member _ object _ _ _ typed rule =>
    obtain ⟨quiet, rfl⟩ := finds_of_hasType sound object typed
    rw [exprType, finds_bind]
    exact ⟨quiet, (finds_memberType fun struct => there_of_hasType sound.env typed).mpr rule⟩
  | @index _ object subscript _ _ _ typed subscripted integral rule =>
    obtain ⟨quiet, rfl⟩ := finds_of_hasType sound object typed
    obtain ⟨subscriptQuiet, rfl⟩ := finds_of_hasType sound subscript subscripted
    rw [exprType, finds_bind, finds_bind, finds_bind, subscriptFits, reports_reportIf,
      Bool.not_eq_false', mayBeInteger_iff, finds_elementType]
    exact ⟨quiet, subscriptQuiet, integral, rule⟩
  | @deref _ object _ _ typed rule =>
    obtain ⟨quiet, rfl⟩ := finds_of_hasType sound object typed
    rw [exprType, finds_bind, finds_pointeeType]
    exact ⟨quiet, rule⟩
  | @unwrap _ object _ _ typed rule =>
    obtain ⟨quiet, rfl⟩ := finds_of_hasType sound object typed
    rw [exprType, finds_bind, finds_unwrappedType]
    exact ⟨quiet, rule⟩
  | @discard _ _ _ value _ discards typed =>
    obtain ⟨quiet, -⟩ := finds_of_hasType sound value typed
    rw [exprType]
    exact (finds_assignType_discard discards).mpr ⟨quiet, rfl⟩
  | @assign _ _ target value _ _ keeps writable targetTyped typed fits =>
    obtain ⟨targetQuiet, rfl⟩ := finds_of_hasType sound target targetTyped
    obtain ⟨quiet, rfl⟩ := finds_of_hasType sound value typed
    rw [exprType]
    exact (finds_assignType keeps).mpr ⟨writable, targetQuiet, quiet, fits, rfl⟩
  | @structLit _ _ values _ _ declared given fit complete =>
    obtain ⟨quiet, rfl⟩ := finds_of_hasTypes_fields sound values given
    rw [exprType, finds_structLitType, map_fst_fieldParts]
    exact ⟨_, declared, quiet, fit, complete, rfl⟩
  | @arrayLit _ _ _ elements _ known given fit counted =>
    obtain ⟨quiet, rfl⟩ := finds_of_hasTypes sound elements given
    rw [exprType, finds_arrayLitType, length_parts]
    exact ⟨known, quiet, fit, counted, rfl⟩

/-- The checker finds the types that several expressions have. -/
theorem finds_of_hasTypes (sound : context.Sound) (expressions : List Expr) {types : List Ty}
    (typed : HasTypes Eq context.env expressions types) :
    (∀ part ∈ parts context expressions, part.checked.reports = []) ∧
      (parts context expressions).map (fun part => part.checked.value) = types := by
  match expressions, typed with
  | [], .nil => exact ⟨(fun _ impossible => nomatch impossible), rfl⟩
  | first :: rest, .cons head tail =>
    obtain ⟨quiet, rfl⟩ := finds_of_hasType sound first head
    obtain ⟨restQuiet, rfl⟩ := finds_of_hasTypes sound rest tail
    refine ⟨?_, rfl⟩
    rw [parts, List.forall_mem_cons]
    exact ⟨quiet, restQuiet⟩

/-- So it does for the values of several fields. -/
theorem finds_of_hasTypes_fields (sound : context.Sound) (values : List (Ident × Expr))
    {types : List Ty} (typed : HasTypes Eq context.env (values.map Prod.snd) types) :
    (∀ value ∈ fieldParts context values, value.2.checked.reports = []) ∧
      (fieldParts context values).map (fun value => value.2.checked.value) = types := by
  match values, typed with
  | [], .nil => exact ⟨(fun _ impossible => nomatch impossible), rfl⟩
  | (name, value) :: rest, .cons head tail =>
    obtain ⟨quiet, rfl⟩ := finds_of_hasType sound value head
    obtain ⟨restQuiet, rfl⟩ := finds_of_hasTypes_fields sound rest tail
    refine ⟨?_, rfl⟩
    rw [fieldParts, List.forall_mem_cons]
    exact ⟨quiet, restQuiet⟩

end

/-- The checker decides which type an expression has, if any. -/
theorem finds_exprType (sound : context.Sound) {expression : Expr} {type : Ty} :
    Finds (exprType context expression) type ↔ HasType Eq context.env expression type :=
  ⟨hasType_of_finds sound expression, finds_of_hasType sound expression⟩

end SystemsLang.Typing
