import SystemsLang.Proofs.Typing.Blurred
import SystemsLang.Proofs.Typing.Unplacing

/-!
# Misnaming identifiers

In an expression some identifiers are given another name, one that is declared nowhere. The
expression is checked like before, with every type as it was or blurred, and what is raised is one
diagnostic for each of the identifiers and nothing else, except about pointers to the unknown type
(`follows_exprType`). The two expressions may stand anywhere: positions are not compared.
-/

namespace SystemsLang.Typing

open Syntax Checked

mutual

/-- The second expression is the first, at other positions, with a new name for some identifiers;
their positions are given in order. What is discarded into is no identifier that could be misnamed,
and a target that is no discard must not become one. The flag says whether addresses may be
taken. -/
inductive MisnamedExpr (new : String) (addressed : Bool) : List Position → Expr → Expr → Prop
  | number {position position' : Position} {text : String} :
    MisnamedExpr new addressed [] (.number position text) (.number position' text)
  | string {position position' : Position} {text : String} :
    MisnamedExpr new addressed [] (.string position text) (.string position' text)
  | bool {position position' : Position} {value : Bool} :
    MisnamedExpr new addressed [] (.bool position value) (.bool position' value)
  | null {position position' : Position} :
    MisnamedExpr new addressed [] (.null position) (.null position')
  | undefined {position position' : Position} :
    MisnamedExpr new addressed [] (.undefined position) (.undefined position')
  | kept {position position' : Position} {name : String} :
    MisnamedExpr new addressed [] (.ident position name) (.ident position' name)
  | misnamed {position position' : Position} {name : String} :
    MisnamedExpr new addressed [position'] (.ident position name) (.ident position' new)
  | binary {position position' : Position} {operator : BinaryOp} {left left' right right' : Expr}
      {hits more : List Position} (first : MisnamedExpr new addressed hits left left')
      (second : MisnamedExpr new addressed more right right') :
    MisnamedExpr new addressed (hits ++ more) (.binary position operator left right)
      (.binary position' operator left' right')
  | unary {position position' : Position} {operator : UnaryOp} {operand operand' : Expr}
      {hits : List Position} (taken : operator = .addressOf → addressed = true)
      (inner : MisnamedExpr new addressed hits operand operand') :
    MisnamedExpr new addressed hits (.unary position operator operand)
      (.unary position' operator operand')
  | call {position position' : Position} {callee callee' : Expr} {arguments arguments' : List Expr}
      {hits more : List Position} (called : MisnamedExpr new addressed hits callee callee')
      (given : MisnamedExprs new addressed more arguments arguments') :
    MisnamedExpr new addressed (hits ++ more) (.call position callee arguments)
      (.call position' callee' arguments')
  | member {position position' : Position} {object object' : Expr} {field field' : Ident}
      {hits : List Position} (named : field'.name = field.name)
      (inner : MisnamedExpr new addressed hits object object') :
    MisnamedExpr new addressed hits (.member position object field)
      (.member position' object' field')
  | index {position position' : Position} {object object' subscript subscript' : Expr}
      {hits more : List Position} (first : MisnamedExpr new addressed hits object object')
      (second : MisnamedExpr new addressed more subscript subscript') :
    MisnamedExpr new addressed (hits ++ more) (.index position object subscript)
      (.index position' object' subscript')
  | deref {position position' : Position} {object object' : Expr} {hits : List Position}
      (inner : MisnamedExpr new addressed hits object object') :
    MisnamedExpr new addressed hits (.deref position object) (.deref position' object')
  | unwrap {position position' : Position} {object object' : Expr} {hits : List Position}
      (inner : MisnamedExpr new addressed hits object object') :
    MisnamedExpr new addressed hits (.unwrap position object) (.unwrap position' object')
  | discard {position position' place place' : Position} {value value' : Expr}
      {hits : List Position} (inner : MisnamedExpr new addressed hits value value') :
    MisnamedExpr new addressed hits (.assign position none (.ident place "_") value)
      (.assign position' none (.ident place' "_") value')
  | assign {position position' : Position} {operator : Option BinaryOp}
      {target target' value value' : Expr} {hits more : List Position}
      (keeps : isDiscard operator target = false) (keeps' : isDiscard operator target' = false)
      (first : MisnamedExpr new addressed hits target target')
      (second : MisnamedExpr new addressed more value value') :
    MisnamedExpr new addressed (hits ++ more) (.assign position operator target value)
      (.assign position' operator target' value')
  | structLit {position position' : Position} {name name' : Ident}
      {values values' : List (Ident × Expr)} {hits : List Position} (named : name'.name = name.name)
      (given : MisnamedFields new addressed hits values values') :
    MisnamedExpr new addressed hits (.structLit position name values)
      (.structLit position' name' values')
  | arrayLit {position position' : Position} {length : Option UInt64} {element element' : TypeExpr}
      {elements elements' : List Expr} {hits : List Position}
      (typed : element'.unplaced = element.unplaced)
      (given : MisnamedExprs new addressed hits elements elements') :
    MisnamedExpr new addressed hits (.arrayLit position length element elements)
      (.arrayLit position' length element' elements')

/-- So are the second expressions, one by one. -/
inductive MisnamedExprs (new : String) (addressed : Bool) :
    List Position → List Expr → List Expr → Prop
  | nil : MisnamedExprs new addressed [] [] []
  | cons {first first' : Expr} {rest rest' : List Expr} {hits more : List Position}
      (head : MisnamedExpr new addressed hits first first')
      (tail : MisnamedExprs new addressed more rest rest') :
    MisnamedExprs new addressed (hits ++ more) (first :: rest) (first' :: rest')

/-- And so are the second values of fields, whose names stay. -/
inductive MisnamedFields (new : String) (addressed : Bool) :
    List Position → List (Ident × Expr) → List (Ident × Expr) → Prop
  | nil : MisnamedFields new addressed [] [] []
  | cons {name name' : Ident} {value value' : Expr} {rest rest' : List (Ident × Expr)}
      {hits more : List Position} (named : name'.name = name.name)
      (head : MisnamedExpr new addressed hits value value')
      (tail : MisnamedFields new addressed more rest rest') :
    MisnamedFields new addressed (hits ++ more) ((name, value) :: rest) ((name', value') :: rest')

end

/-- A symbol of which the same is known, or less about its type. -/
structure SymbolFollows (addressed : Bool) (symbol symbol' : Symbol) : Prop where
  isConst : symbol'.isConst = symbol.isConst
  declared : symbol'.declared = symbol.declared
  type : Blurred addressed symbol.type symbol'.type

/-- An entry of a scope for the same name, which is not the new one. -/
structure EntryFollows (new : String) (addressed : Bool) (entry entry' : String × Symbol) :
    Prop where
  name : entry'.1 = entry.1
  other : entry.1 ≠ new
  symbol : SymbolFollows addressed entry.2 entry'.2

/-- Scopes with the same names, of which the same is known or less about their types. -/
structure ScopesFollow (new : String) (addressed : Bool) (scopes scopes' : Scopes) : Prop where
  opened : List.Forall₂ (List.Forall₂ (EntryFollows new addressed)) scopes.opened scopes'.opened
  global : List.Forall₂ (EntryFollows new addressed) scopes.global scopes'.global

/-- A context with such scopes. -/
structure ContextFollows (new : String) (addressed : Bool) (context context' : Context) :
    Prop where
  registry : context'.registry = context.registry
  scopes : ScopesFollow new addressed context.scopes context'.scopes
  enclosing : context'.enclosing = context.enclosing

variable {new : String} {addressed : Bool} {scopes scopes' : Scopes} {context context' : Context}
  {hits more : List Position} {type type' : Ty} {position position' : Position}

/-- In such scopes every name is found or not as before. -/
theorem lookup_entries_follow {scope scope' : Scope}
    (follow : List.Forall₂ (EntryFollows new addressed) scope scope') (name : String) :
    Option.Rel (SymbolFollows addressed) (scope.lookup name) (scope'.lookup name) := by
  induction follow with
  | nil => exact .none
  | cons head tail inductionHypothesis =>
    rename_i entry entry' rest rest'
    obtain ⟨known, symbol⟩ := entry
    obtain ⟨known', symbol'⟩ := entry'
    obtain rfl : known' = known := head.name
    rw [List.lookup_cons, List.lookup_cons]
    split
    · exact .some head.symbol
    · exact inductionHypothesis

/-- The scopes follow one by one, from the innermost out. -/
theorem ScopesFollow.all (follow : ScopesFollow new addressed scopes scopes') :
    List.Forall₂ (List.Forall₂ (EntryFollows new addressed))
      (scopes.opened ++ [scopes.global]) (scopes'.opened ++ [scopes'.global]) :=
  List.rel_append follow.opened (.cons follow.global .nil)

/-- A name is bound in both scopes or in none, and of its symbol the same is known or less. -/
theorem ScopesFollow.lookup (follow : ScopesFollow new addressed scopes scopes') (name : String) :
    Option.Rel (SymbolFollows addressed) (scopes.lookup? name) (scopes'.lookup? name) := by
  have whole := follow.all
  unfold Scopes.lookup?
  generalize scopes.opened ++ [scopes.global] = all at whole ⊢
  generalize scopes'.opened ++ [scopes'.global] = all' at whole ⊢
  induction whole with
  | nil => exact .none
  | cons head tail inductionHypothesis =>
    rw [List.findSome?_cons, List.findSome?_cons]
    have found := lookup_entries_follow head name
    generalize List.lookup name _ = symbol at found ⊢
    generalize List.lookup name _ = symbol' at found ⊢
    cases found with
    | none => exact inductionHypothesis
    | some follows => exact .some follows

/-- The new name is in none of the scopes. -/
theorem ScopesFollow.lookup_new (follow : ScopesFollow new addressed scopes scopes') :
    scopes'.lookup? new = none := by
  have absent {scope scope' : Scope}
      (follow : List.Forall₂ (EntryFollows new addressed) scope scope') :
      scope'.lookup new = none := by
    induction follow with
    | nil => rfl
    | cons head tail inductionHypothesis =>
      rename_i entry entry' rest rest'
      have differs : (new == entry'.1) = false := by
        rw [head.name]
        exact beq_false_of_ne head.other.symm
      rw [List.lookup_cons, differs]
      exact inductionHypothesis
  have whole := follow.all
  unfold Scopes.lookup?
  generalize scopes.opened ++ [scopes.global] = all at whole
  generalize scopes'.opened ++ [scopes'.global] = all' at whole ⊢
  induction whole with
  | nil => rfl
  | cons head tail inductionHypothesis =>
    rw [List.findSome?_cons, absent head]
    exact inductionHypothesis

/-- A name that stays may be assigned to as before. -/
theorem ContextFollows.isConst (follow : ContextFollows new addressed context context')
    (name : String) : context'.isConst name = context.isConst name := by
  unfold Context.isConst
  have found := follow.scopes.lookup name
  generalize context.scopes.lookup? name = symbol at found ⊢
  generalize context'.scopes.lookup? name = symbol' at found ⊢
  cases found with
  | none => rfl
  | some follows => exact follows.isConst

/-- Nothing forbids assigning to the new name. -/
theorem ContextFollows.isConst_new (follow : ContextFollows new addressed context context') :
    context'.isConst new = false := by
  rw [Context.isConst, follow.scopes.lookup_new]
  rfl

/-- A name that stays is found as before, with a type of which the same is known or less. -/
theorem follows_identType (follow : ContextFollows new addressed context context')
    (name : String) :
    Follows new addressed (Blurred addressed) [] (identType context position name)
      (identType context' position' name) := by
  unfold identType
  have found := follow.scopes.lookup name
  generalize context.scopes.lookup? name = symbol at found ⊢
  generalize context'.scopes.lookup? name = symbol' at found ⊢
  cases found with
  | none => exact follows_unknownAfter
  | some follows => exact follows_pure follows.type

/-- An identifier with the new name is reported and has the unknown type. -/
theorem follows_identType_new (follow : ContextFollows new addressed context context')
    (name : String) :
    Follows new addressed (Blurred addressed) [position'] (identType context position name)
      (identType context' position' new) := by
  intro _
  rw [identType, follow.scopes.lookup_new]
  exact ⟨.undefined position' .nil, .unknown _⟩

/-- The address of something of which less is known. That of a misnamed identifier points to the
unknown type, and it does not matter then whether the name could be assigned to. -/
theorem blurred_addressType (follow : ContextFollows new addressed context context')
    {operand operand' : Expr} (taken : addressed = true)
    (misnamed : MisnamedExpr new addressed hits operand operand')
    (blurred : Blurred addressed (exprType context operand).value
      (exprType context' operand').value) :
    Blurred addressed (addressType context operand (exprType context operand).value)
      (addressType context' operand' (exprType context' operand').value) := by
  cases misnamed with
  | kept =>
    unfold addressType
    dsimp only
    rw [follow.isConst]
    exact .pointer taken blurred
  | misnamed =>
    have unknown (position : Position) :
        (exprType context' (.ident position new)).value = .unknown := by
      rw [exprType, identType, follow.scopes.lookup_new]
      rfl
    rw [unknown]
    exact .address taken
  | _ => exact .pointer taken blurred

/-- A target that is misnamed is not reported as a constant, for nothing is known about it. -/
theorem follows_assignableTarget (follow : ContextFollows new addressed context context')
    {target target' : Expr} (misnamed : MisnamedExpr new addressed hits target target') :
    FollowsUnit new addressed [] (assignableTarget context target)
      (assignableTarget context' target') := by
  cases misnamed with
  | kept =>
    refine follows_reportIf fun assignable => .inl ?_
    rw [follow.isConst, assignable]
  | misnamed => exact follows_reportIf fun _ => .inl follow.isConst_new
  | _ => exact follows_pure trivial

/-- The rules for unary operators follow; an address is taken only where that is allowed for. -/
theorem follows_unaryType (follow : ContextFollows new addressed context context')
    {operator : UnaryOp} {operand operand' : Expr}
    (taken : operator = .addressOf → addressed = true)
    (misnamed : MisnamedExpr new addressed hits operand operand')
    (blurred : Blurred addressed (exprType context operand).value
      (exprType context' operand').value) :
    Follows new addressed (Blurred addressed) []
      (unaryType context position operator operand (exprType context operand).value)
      (unaryType context' position' operator operand' (exprType context' operand').value) := by
  cases operator with
  | negate =>
    unfold unaryType
    dsimp only
    split
    · rename_i numeric
      rw [if_pos (blurred.mayBeNumeric numeric)]
      exact follows_pure blurred
    · exact follows_unknownAfter
  | not =>
    exact follows_bind_last (follows_reportUnless fun boolean => .inl (blurred.mayBeBool boolean))
      fun _ _ _ => follows_pure (.same .bool)
  | addressOf => exact follows_pure (blurred_addressType follow (taken rfl) misnamed blurred)
  | attempt =>
    have allowed : FollowsUnit new addressed [] (attemptAllowed context position)
        (attemptAllowed context' position') := by
      unfold attemptAllowed
      rw [follow.enclosing]
      cases context.enclosing with
      | none => exact follows_pure trivial
      | some enclosing =>
        obtain ⟨name, result⟩ := enclosing
        cases result with
        | errorUnion | unknown => exact follows_pure trivial
        | _ => exact follows_of_reports (List.cons_ne_nil _ _)
    exact follows_bind allowed fun _ _ _ => follows_attemptedType blurred

/-- Parts that follow, one by one. -/
inductive PartsFollow (new : String) (addressed : Bool) :
    List Position → List Part → List Part → Prop
  | nil : PartsFollow new addressed [] [] []
  | cons {hits more : List Position} {part part' : Part} {rest rest' : List Part}
      (head : Follows new addressed (Blurred addressed) hits part.checked part'.checked)
      (tail : PartsFollow new addressed more rest rest') :
    PartsFollow new addressed (hits ++ more) (part :: rest) (part' :: rest')

variable {parts parts' : List Part}

/-- Parts that follow are as many as before. -/
theorem PartsFollow.length_eq (follow : PartsFollow new addressed hits parts parts') :
    parts'.length = parts.length := by
  induction follow with
  | nil => rfl
  | cons head tail inductionHypothesis => rw [List.length_cons, inductionHypothesis]; rfl

/-- Parts of which only the diagnostics count. -/
theorem follows_ignoreAll (follow : PartsFollow new addressed hits parts parts') :
    FollowsUnit new addressed hits (ignoreAll parts) (ignoreAll parts') := by
  induction follow with
  | nil => exact follows_pure trivial
  | cons head tail inductionHypothesis =>
    intro quiet
    obtain ⟨quietHead, quietTail⟩ := List.append_eq_nil_iff.mp quiet
    exact ⟨(head quietHead).1.append (inductionHypothesis quietTail).1, trivial⟩

/-- Arguments that fit their parameters fit them when less is known, or a pointer to the unknown
type is blamed. -/
theorem follows_argumentsFit (follow : PartsFollow new addressed hits parts parts') {place : Nat}
    {params : List Ty} (many : parts.length = params.length) :
    FollowsUnit new addressed hits (argumentsFit place parts params)
      (argumentsFit place parts' params) := by
  induction follow generalizing place params with
  | nil => exact follows_pure trivial
  | cons head tail inductionHypothesis =>
    cases params with
    | nil => cases many
    | cons expected params =>
      refine follows_bind head fun actual actual' blurred => ?_
      refine follows_bind_first (follows_reportUnless ?_) fun _ _ _ =>
        inductionHypothesis (Nat.succ.inj many)
      exact blurred.coercesTo (.same expected)

/-- If the arguments of a call fit, then they raise nothing by themselves. -/
theorem follows_ignoredArguments (follow : PartsFollow new addressed hits parts parts')
    {place : Nat} {params : List Ty} (many : parts.length = params.length) :
    FollowsUnit new addressed hits (argumentsFit place parts params) (ignoreAll parts') := by
  induction follow generalizing place params with
  | nil => exact follows_pure trivial
  | cons head tail inductionHypothesis =>
    cases params with
    | nil => cases many
    | cons expected params =>
      intro quiet
      obtain ⟨quietHead, quietRest⟩ := List.append_eq_nil_iff.mp quiet
      obtain ⟨-, quietTail⟩ := List.append_eq_nil_iff.mp quietRest
      obtain ⟨rest, -⟩ := inductionHypothesis (Nat.succ.inj many) quietTail
      exact ⟨(head quietHead).1.append rest, trivial⟩

/-- A call raises what its arguments raise, whether the function is known or not. -/
theorem follows_callType {callee callee' : Expr} (blurred : Blurred addressed type type')
    (follow : PartsFollow new addressed hits parts parts') :
    Follows new addressed (Blurred addressed) hits (callType position callee type parts)
      (callType position' callee' type' parts') := by
  cases type with
  | function params result =>
    by_cases many : parts.length = params.length
    · have fits : callFits position parts params = argumentsFit 1 parts params := if_pos many
      cases blurred with
      | same =>
        have fits' : callFits position' parts' params = argumentsFit 1 parts' params :=
          if_pos (follow.length_eq.trans many)
        rw [callType, callType, fits, fits']
        exact follows_bind_last (follows_argumentsFit follow many) fun _ _ _ =>
          follows_pure (.same result)
      | unknown =>
        rw [callType, callType, fits]
        exact follows_bind_last (follows_ignoredArguments follow many) fun _ _ _ =>
          follows_pure (.unknown result)
    · refine follows_of_reports ?_
      rw [callType, callFits, if_neg many]
      exact List.cons_ne_nil _ _
  | unknown =>
    cases blurred <;> exact follows_bind_last (follows_ignoreAll follow) fun _ _ _ =>
      follows_pure (.same .unknown)
  | _ => exact follows_of_reports (List.cons_ne_nil _ _)

/-- A member is looked up in the same struct, or nothing is known about what it is a member of. -/
theorem follows_memberType (follow : ContextFollows new addressed context context')
    {field field' : Ident} (named : field'.name = field.name)
    (blurred : Blurred addressed type type') :
    Follows new addressed (Blurred addressed) [] (memberType context type field)
      (memberType context' type' field') := by
  obtain ⟨name, place⟩ := field
  obtain ⟨name', place'⟩ := field'
  obtain rfl : name' = name := named
  -- Where the type itself is kept, the same is found, in structs as elsewhere.
  have kept (type : Ty) : Follows new addressed (Blurred addressed) []
      (memberType context type ⟨name', place⟩) (memberType context' type ⟨name', place'⟩) := by
    unfold memberType
    rw [follow.registry]
    cases memberBase type with
    | struct struct =>
      dsimp only
      cases context.registry.get? struct with
      | none => exact follows_pure (.same .unknown)
      | some fields =>
        dsimp only
        cases fields.lookup name' with
        | none => exact follows_unknownAfter
        | some found => exact follows_pure (.same found)
    | unknown => exact follows_pure (.same .unknown)
    | _ =>
      dsimp only
      split
      · exact follows_pure (.same .size)
      · exact follows_unknownAfter
  cases blurred with
  | same => exact kept type
  | unknown => exact fun quiet => ⟨.nil, .unknown _⟩
  | address taken =>
    exact fun quiet => ⟨.consequence taken rfl .nil, .unknown _⟩
  | @pointer isConst pointee blurred taken inner =>
    cases pointee with
    | struct struct =>
      cases inner with
      | same => exact kept _
      | unknown => exact fun quiet => ⟨.consequence taken rfl .nil, .unknown _⟩
    | _ => exact follows_unknownAfter

/-- An assignment that is no discard raises what its target and its value raise. -/
theorem follows_assignType (follow : ContextFollows new addressed context context')
    {operator : Option BinaryOp} {target target' : Expr} {targetPart targetPart' : Part}
    {valuePart valuePart' : Part} (keeps : isDiscard operator target = false)
    (keeps' : isDiscard operator target' = false)
    (misnamed : MisnamedExpr new addressed hits target target')
    (targetFollows :
      Follows new addressed (Blurred addressed) hits targetPart.checked targetPart'.checked)
    (valueFollows :
      Follows new addressed (Blurred addressed) more valuePart.checked valuePart'.checked) :
    Follows new addressed (Blurred addressed) (hits ++ more)
      (assignType context operator target targetPart valuePart)
      (assignType context' operator target' targetPart' valuePart') := by
  unfold assignType
  rw [keeps, keeps']
  refine follows_bind_first (follows_assignableTarget follow misnamed) fun _ _ _ => ?_
  refine follows_bind targetFollows fun expected expected' blurredTarget => ?_
  refine follows_bind_last valueFollows fun actual actual' blurredValue => ?_
  exact follows_bind_last (follows_assignmentFits blurredTarget blurredValue) fun _ _ _ =>
    follows_pure blurredTarget

/-- Values of fields that follow, one by one. -/
inductive FieldPartsFollow (new : String) (addressed : Bool) :
    List Position → List (Ident × Part) → List (Ident × Part) → Prop
  | nil : FieldPartsFollow new addressed [] [] []
  | cons {hits more : List Position} {name name' : Ident} {part part' : Part}
      {rest rest' : List (Ident × Part)} (named : name'.name = name.name)
      (head : Follows new addressed (Blurred addressed) hits part.checked part'.checked)
      (tail : FieldPartsFollow new addressed more rest rest') :
    FieldPartsFollow new addressed (hits ++ more) ((name, part) :: rest) ((name', part') :: rest')

variable {values values' : List (Ident × Part)} {struct : String} {fields : Fields}

/-- A value fits its field when less is known about it, or a pointer to the unknown type is blamed.
-/
theorem follows_fieldFits {name name' : Ident} (named : name'.name = name.name)
    (blurred : Blurred addressed type type') :
    FollowsUnit new addressed [] (fieldFits struct fields name position type)
      (fieldFits struct fields name' position' type') := by
  unfold fieldFits
  rw [named]
  cases fields.lookup name.name with
  | none => exact follows_of_reports (List.cons_ne_nil _ _)
  | some expected => exact follows_expectCoercible (.same expected) blurred

/-- The values of a struct literal raise what each of them raises. -/
theorem follows_fieldsFit (follow : FieldPartsFollow new addressed hits values values') :
    FollowsUnit new addressed hits (fieldsFit struct fields values)
      (fieldsFit struct fields values') := by
  induction follow with
  | nil => exact follows_pure trivial
  | cons named head tail inductionHypothesis =>
    refine follows_bind head fun actual actual' blurred => ?_
    exact follows_bind_first (follows_fieldFits named blurred) fun _ _ _ => inductionHypothesis

/-- The same fields have values. -/
theorem FieldPartsFollow.any_eq (follow : FieldPartsFollow new addressed hits values values')
    (name : String) :
    (values'.any fun value => value.1.name == name) =
      values.any fun value => value.1.name == name := by
  induction follow with
  | nil => rfl
  | cons named head tail inductionHypothesis =>
    rw [List.any_cons, List.any_cons, inductionHypothesis, named]

/-- The fields that a literal leaves out are the same, for their names stay. -/
theorem follows_fieldsPresent (follow : FieldPartsFollow new addressed hits values values') :
    FollowsUnit new addressed [] (fieldsPresent position struct fields values)
      (fieldsPresent position' struct fields values') := by
  unfold fieldsPresent
  induction fields with
  | nil => exact follows_pure trivial
  | cons field rest inductionHypothesis =>
    intro quiet
    obtain ⟨quietHead, quietRest⟩ := List.append_eq_nil_iff.mp quiet
    have head : FollowsUnit new addressed []
        (reportIf (!values.any fun value => value.1.name == field.1)
          (.missingField struct field.1) position)
        (reportIf (!values'.any fun value => value.1.name == field.1)
          (.missingField struct field.1) position') := by
      rw [follow.any_eq]
      exact follows_reportUnless .inl
    exact ⟨(head quietHead).1.append (inductionHypothesis quietRest).1, trivial⟩

/-- A struct literal raises what its values raise, whether the struct is known or not. -/
theorem follows_structLitType (follow : ContextFollows new addressed context context')
    {name name' : Ident} (named : name'.name = name.name)
    (given : FieldPartsFollow new addressed hits values values') :
    Follows new addressed (Blurred addressed) hits (structLitType context position name values)
      (structLitType context' position' name' values') := by
  unfold structLitType
  rw [follow.registry, named]
  cases context.registry.get? name.name with
  | none => exact follows_of_reports (List.cons_ne_nil _ _)
  | some fields =>
    refine follows_bind_last (follows_fieldsFit given) fun _ _ _ => ?_
    exact follows_bind_last (follows_fieldsPresent given) fun _ _ _ =>
      follows_pure (.same (.struct name.name))

/-- The elements of an array literal raise what each of them raises. -/
theorem follows_elementsFit {expected : Ty} (follow : PartsFollow new addressed hits parts parts') :
    FollowsUnit new addressed hits (elementsFit expected parts) (elementsFit expected parts') := by
  induction follow with
  | nil => exact follows_pure trivial
  | cons head tail inductionHypothesis =>
    refine follows_bind head fun actual actual' blurred => ?_
    exact follows_bind_first (follows_expectCoercible (.same expected) blurred) fun _ _ _ =>
      inductionHypothesis

/-- Type expressions that are equal up to positions are resolved to the same type. -/
theorem follows_resolve {registry : Registry} {written written' : TypeExpr}
    (same : written'.unplaced = written.unplaced) :
    Follows new addressed Eq [] (registry.resolve written) (registry.resolve written') := by
  intro quiet
  have equal := resolve_unplaced registry written'
  rw [same, resolve_unplaced, quiet] at equal
  have value := congrArg Checked.value equal
  have none := List.map_eq_nil_iff.mp (congrArg Checked.reports equal).symm
  rw [none]
  exact ⟨.nil, value⟩

/-- The number of elements stays the same. -/
theorem follows_lengthFits {length : Option UInt64} {count : Nat} :
    FollowsUnit new addressed [] (lengthFits position length count)
      (lengthFits position' length count) := by
  cases length with
  | none => exact follows_pure trivial
  | some length => exact follows_reportUnless .inl

/-- An array literal raises what its elements raise. -/
theorem follows_arrayLitType (follow : ContextFollows new addressed context context')
    {length : Option UInt64} {element element' : TypeExpr}
    (typed : element'.unplaced = element.unplaced)
    (given : PartsFollow new addressed hits parts parts') :
    Follows new addressed (Blurred addressed) hits
      (arrayLitType context position length element parts)
      (arrayLitType context' position' length element' parts') := by
  unfold arrayLitType
  rw [follow.registry, given.length_eq]
  refine follows_bind_first (follows_resolve typed) fun type type' same => ?_
  obtain rfl : type = type' := same
  refine follows_bind_last (follows_elementsFit given) fun _ _ _ => ?_
  exact follows_bind_last follows_lengthFits fun _ _ _ => follows_pure (.same _)

mutual

/-- An expression with misnamed identifiers is checked like the expression: what it raises is one
diagnostic for each of them, and what follows from pointers to the unknown type. -/
theorem follows_exprType (follow : ContextFollows new addressed context context')
    {value value' : Expr} {hits : List Position}
    (misnamed : MisnamedExpr new addressed hits value value') :
    Follows new addressed (Blurred addressed) hits (exprType context value)
      (exprType context' value') := by
  cases value with
  | number | string | bool | null | undefined =>
    cases misnamed
    exact follows_pure (.same _)
  | ident position name =>
    cases misnamed with
    | kept => exact follows_identType follow name
    | misnamed => exact follows_identType_new follow name
  | binary position operator left right =>
    cases misnamed with
    | binary first second =>
      rw [exprType, exprType]
      refine follows_bind (follows_exprType follow first) fun _ _ blurredLeft => ?_
      exact follows_bind_last (follows_exprType follow second) fun _ _ blurredRight =>
        follows_binaryType blurredLeft blurredRight
  | unary position operator operand =>
    cases misnamed with
    | unary taken inner =>
      rw [exprType, exprType]
      -- Not by `follows_bind`, which forgets that the operand's type is the one that is found for
      -- it: the rule for addresses looks at the operand as well.
      intro quiet
      obtain ⟨quietInner, quietOuter⟩ := List.append_eq_nil_iff.mp quiet
      obtain ⟨raised, blurred⟩ := follows_exprType follow inner quietInner
      obtain ⟨none, found⟩ := follows_unaryType follow taken inner blurred quietOuter
      have whole := raised.append none
      rw [List.append_nil] at whole
      exact ⟨whole, found⟩
  | call position callee arguments =>
    cases misnamed with
    | call called given =>
      rw [exprType, exprType]
      exact follows_bind (follows_exprType follow called) fun _ _ blurred =>
        follows_callType blurred (follow_parts follow given)
  | member position object field =>
    cases misnamed with
    | member named inner =>
      rw [exprType, exprType]
      exact follows_bind_last (follows_exprType follow inner) fun _ _ blurred =>
        follows_memberType follow named blurred
  | index position object subscript =>
    cases misnamed with
    | index first second =>
      rw [exprType, exprType]
      refine follows_bind (follows_exprType follow first) fun _ _ blurred => ?_
      refine follows_bind_last (follows_exprType follow second) fun _ _ blurredSubscript => ?_
      exact follows_bind_first (follows_subscriptFits blurredSubscript) fun _ _ _ =>
        follows_elementType blurred
  | deref position object =>
    cases misnamed with
    | deref inner =>
      rw [exprType, exprType]
      exact follows_bind_last (follows_exprType follow inner) fun _ _ blurred =>
        follows_pointeeType blurred
  | unwrap position object =>
    cases misnamed with
    | unwrap inner =>
      rw [exprType, exprType]
      exact follows_bind_last (follows_exprType follow inner) fun _ _ blurred =>
        follows_unwrappedType blurred
  | assign position operator target value =>
    cases misnamed with
    | discard inner =>
      rw [exprType, exprType]
      exact follows_bind_last (follows_ignore (follows_exprType follow inner)) fun _ _ _ =>
        follows_pure (.same .unknown)
    | assign keeps keeps' first second =>
      rw [exprType, exprType]
      exact follows_assignType follow keeps keeps' first (follows_exprType follow first)
        (follows_exprType follow second)
  | structLit position name values =>
    cases misnamed with
    | structLit named given =>
      rw [exprType, exprType]
      exact follows_structLitType follow named (follow_fieldParts follow given)
  | arrayLit position length element elements =>
    cases misnamed with
    | arrayLit typed given =>
      rw [exprType, exprType]
      exact follows_arrayLitType follow typed (follow_parts follow given)

/-- So are several expressions. -/
theorem follow_parts (follow : ContextFollows new addressed context context')
    {values values' : List Expr} {hits : List Position}
    (misnamed : MisnamedExprs new addressed hits values values') :
    PartsFollow new addressed hits (Typing.parts context values)
      (Typing.parts context' values') := by
  match values with
  | [] =>
    cases misnamed
    exact .nil
  | first :: rest =>
    cases misnamed with
    | cons head tail =>
      rw [Typing.parts, Typing.parts]
      exact .cons (follows_exprType follow head) (follow_parts follow tail)

/-- And the values of several fields. -/
theorem follow_fieldParts (follow : ContextFollows new addressed context context')
    {values values' : List (Ident × Expr)} {hits : List Position}
    (misnamed : MisnamedFields new addressed hits values values') :
    FieldPartsFollow new addressed hits (fieldParts context values)
      (fieldParts context' values') := by
  match values with
  | [] =>
    cases misnamed
    exact .nil
  | (name, value) :: rest =>
    cases misnamed with
    | cons named head tail =>
      rw [fieldParts, fieldParts]
      exact .cons named (follows_exprType follow head) (follow_fieldParts follow tail)

end

end SystemsLang.Typing
