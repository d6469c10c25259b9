import SystemsLang.Parser.Program
import SystemsLang.Proofs.Typing.MisnamedStmt
import SystemsLang.Proofs.Typing.WellTyped

/-!
# One undefined name does not cascade

In a program that is checked without diagnostics, identifiers in expressions are given a name that
the program declares nowhere. Checking then reports each of them once, where it stands. Whatever
else is reported is about a pointer to the unknown type (`check_misnamed`), so if the program takes
no address, nothing else is.

The restriction is needed. The address of an undefined name is a pointer to the unknown type, which
does not go with other pointers as the unknown type itself would, so a second diagnostic is reported
(`undefined_address_cascades`).
-/

namespace SystemsLang.Typing

open Syntax Checker

/-- The same parameter at another position. Its name is not the new one. -/
structure SameParam (new : String) (param param' : Param) : Prop where
  name : param'.name.name = param.name.name
  other : param.name.name ≠ new
  type : param'.type.unplaced = param.type.unplaced

/-- The same field at another position. -/
structure SameField (field field' : Field) : Prop where
  name : field'.name.name = field.name.name
  type : field'.type.unplaced = field.type.unplaced

/-- The same struct at another position. Its name is not the new one. -/
structure SameStruct (new : String) (declared declared' : StructDecl) : Prop where
  name : declared'.name.name = declared.name.name
  other : declared.name.name ≠ new
  fields : List.Forall₂ SameField declared.fields declared'.fields

/-- The second function is the first with misnamed identifiers in its body, and neither its name nor
that of a parameter is the new one. -/
structure MisnamedFn (new : String) (addressed : Bool) (hits : List Position)
    (declared declared' : FnDecl) : Prop where
  name : declared'.name.name = declared.name.name
  other : declared.name.name ≠ new
  params : List.Forall₂ (SameParam new) declared.params declared'.params
  result : declared'.returnType.unplaced = declared.returnType.unplaced
  body : MisnamedStmts new addressed hits declared.body declared'.body

/-- The second program is the first, at other positions, with a new name for some identifiers in
expressions, whose positions are given in order. The new name is not that of any declaration. The
flag says whether addresses may be taken. -/
inductive MisnamedProgram (new : String) (addressed : Bool) :
    List Position → Program → Program → Prop
  | nil : MisnamedProgram new addressed [] [] []
  | fn {declared declared' : FnDecl} {rest rest' : Program} {hits more : List Position}
      (head : MisnamedFn new addressed hits declared declared')
      (tail : MisnamedProgram new addressed more rest rest') :
    MisnamedProgram new addressed (hits ++ more) (.fn declared :: rest) (.fn declared' :: rest')
  | var {declared declared' : VarDecl} {rest rest' : Program} {hits more : List Position}
      (head : MisnamedVar new addressed hits declared declared')
      (tail : MisnamedProgram new addressed more rest rest') :
    MisnamedProgram new addressed (hits ++ more) (.var declared :: rest) (.var declared' :: rest')
  | struct {declared declared' : StructDecl} {rest rest' : Program} {hits : List Position}
      (head : SameStruct new declared declared')
      (tail : MisnamedProgram new addressed hits rest rest') :
    MisnamedProgram new addressed hits (.struct declared :: rest) (.struct declared' :: rest')

variable {new : String} {addressed : Bool} {hits : List Position} {program program' : Program}
  {scopes scopes' : Scopes} {registry : Registry}

/-- A name is entered ahead of its declaration in both scopes or in neither. -/
theorem ScopesFollow.enter (follow : ScopesFollow new addressed scopes scopes')
    {name name' : Ident} {type type' : Ty} {isConst isConst' : Bool} (role : Role)
    (named : name'.name = name.name) (other : name.name ≠ new)
    (blurred : Blurred addressed type type') (same : isConst' = isConst) :
    ScopesFollow new addressed (scopes.enter name type role isConst)
      (scopes'.enter name' type' role isConst') := by
  have found := follow.lookup name.name
  have entered : ScopesFollow new addressed
      (scopes.insert name.name ⟨type, role, isConst, false, name.position⟩)
      (scopes'.insert name.name ⟨type', role, isConst', false, name'.position⟩) :=
    follow.insert other ⟨same, rfl, blurred⟩
  unfold Scopes.enter
  rw [named]
  generalize scopes.lookup? name.name = earlier at found ⊢
  generalize scopes'.lookup? name.name = earlier' at found ⊢
  cases found with
  | none => exact entered
  | some => exact follow

/-- The same structs are defined. -/
theorem defineStructs_follow (registry : Registry)
    (misnamed : MisnamedProgram new addressed hits program program')
    (follow : ScopesFollow new addressed scopes scopes') :
    (defineStructs registry scopes' program').1 = (defineStructs registry scopes program).1 ∧
      ScopesFollow new addressed (defineStructs registry scopes program).2.1
        (defineStructs registry scopes' program').2.1 ∧
      List.Forall₂ (SameStruct new) (defineStructs registry scopes program).2.2
        (defineStructs registry scopes' program').2.2 := by
  induction misnamed generalizing registry scopes scopes' with
  | nil => exact ⟨rfl, follow, .nil⟩
  | fn head tail inductionHypothesis | var head tail inductionHypothesis =>
    exact inductionHypothesis registry follow
  | struct head tail inductionHypothesis =>
    rename_i declared declared' rest rest' hits
    rw [defineStructs, defineStructs]
    dsimp only
    rw [head.name]
    cases registry.define? declared.name.name with
    | none => exact inductionHypothesis registry follow
    | some extended =>
      have entered := follow.enter .struct head.name head.other
        (.same (.struct declared.name.name)) (rfl : true = true)
      obtain ⟨equal, scopes, defined⟩ := inductionHypothesis extended entered
      exact ⟨equal, scopes, .cons head defined⟩

/-- The fields of a struct are resolved to the same types. -/
theorem follows_fieldTypes {fields fields' : List Field} {earlier : Fields}
    (same : List.Forall₂ SameField fields fields') :
    Follows new addressed Eq [] (fieldTypes registry earlier fields)
      (fieldTypes registry earlier fields') := by
  induction same generalizing earlier with
  | nil => exact follows_pure rfl
  | cons head tail inductionHypothesis =>
    rw [fieldTypes, fieldTypes]
    refine follows_bind_first (follows_resolve head.type) fun type type' equal => ?_
    obtain rfl := equal
    rw [head.name]
    split
    · exact follows_of_reports (List.cons_ne_nil _ _)
    · exact inductionHypothesis

/-- The structs get the same fields. -/
theorem defineFields_follow {defined defined' : List StructDecl} {final : Registry}
    (addressed : Bool) (same : List.Forall₂ (SameStruct new) defined defined')
    (ran : defineFields registry defined = .ok (final, [])) :
    ∃ reports, defineFields registry defined' = .ok (final, reports) ∧
      Cascade new addressed [] reports := by
  induction same generalizing registry with
  | nil => exact ⟨[], ran, .nil⟩
  | cons head tail inductionHypothesis =>
    rename_i declared declared' rest rest'
    rw [defineFields] at ran ⊢
    dsimp only [bind, Except.bind] at ran ⊢
    cases set : registry.setFields declared.name.name
        (fieldTypes registry [] declared.fields).value with
    | error fault =>
      rw [set] at ran
      cases ran
    | ok extended =>
      rw [set] at ran
      dsimp only at ran
      cases ranOn : defineFields extended rest with
      | error fault =>
        rw [ranOn] at ran
        cases ran
      | ok found =>
        rw [ranOn] at ran
        obtain ⟨foundRegistry, foundReports⟩ := found
        have equal := Except.ok.inj ran
        obtain rfl : foundRegistry = final := congrArg Prod.fst equal
        obtain ⟨quiet, rfl⟩ := List.append_eq_nil_iff.mp (congrArg Prod.snd equal)
        have typed : Follows new addressed Eq [] (fieldTypes registry [] declared.fields)
            (fieldTypes registry [] declared'.fields) := follows_fieldTypes head.fields
        obtain ⟨raised, value⟩ := typed quiet
        obtain ⟨reports, ran', raisedOn⟩ := inductionHypothesis ranOn
        rw [head.name, ← value, set]
        dsimp only
        rw [ran']
        exact ⟨_, rfl, raised.append raisedOn⟩

/-- Declarations that were entered with the same types, the second with misnamed identifiers. -/
inductive EnteredFollow (new : String) (addressed : Bool) :
    List Position → List Entered → List Entered → Prop
  | nil : EnteredFollow new addressed [] [] []
  | fn {declared declared' : FnDecl} {params : List Ty} {result : Ty} {rest rest' : List Entered}
      {hits more : List Position} (head : MisnamedFn new addressed hits declared declared')
      (tail : EnteredFollow new addressed more rest rest') :
    EnteredFollow new addressed (hits ++ more) (.fn declared params result :: rest)
      (.fn declared' params result :: rest')
  | var {declared declared' : VarDecl} {stated : Option Ty} {rest rest' : List Entered}
      {hits more : List Position} (head : MisnamedVar new addressed hits declared declared')
      (tail : EnteredFollow new addressed more rest rest') :
    EnteredFollow new addressed (hits ++ more) (.var declared stated :: rest)
      (.var declared' stated :: rest')
  | struct {declared declared' : StructDecl} {rest rest' : List Entered} {hits : List Position}
      (head : SameStruct new declared declared')
      (tail : EnteredFollow new addressed hits rest rest') :
    EnteredFollow new addressed hits (.struct declared :: rest) (.struct declared' :: rest')

/-- The parameters of a function are resolved to the same types. -/
theorem follows_paramTypes {params params' : List Param}
    (same : List.Forall₂ (SameParam new) params params') :
    Follows new addressed Eq [] (paramTypes registry params) (paramTypes registry params') := by
  unfold paramTypes
  induction same with
  | nil => exact follows_pure rfl
  | cons head tail inductionHypothesis =>
    rw [List.mapM_cons, List.mapM_cons]
    refine follows_bind_first (follows_resolve head.type) fun type type' equal => ?_
    refine follows_bind_first inductionHypothesis fun types types' equalRest => ?_
    exact follows_pure (congrArg₂ _ equal equalRest)

/-- The same is entered for functions and variables. -/
theorem follows_enterDecls (misnamed : MisnamedProgram new addressed hits program program')
    (follow : ScopesFollow new addressed scopes scopes') :
    Follows new addressed
      (fun found found' => ScopesFollow new addressed found.1 found'.1 ∧
        EnteredFollow new addressed hits found.2 found'.2)
      [] (enterDecls registry scopes program) (enterDecls registry scopes' program') := by
  induction misnamed generalizing scopes scopes' with
  | nil => exact follows_pure ⟨follow, .nil⟩
  | fn head tail inductionHypothesis =>
    rw [enterDecls, enterDecls]
    refine follows_bind_first (follows_paramTypes head.params) fun params _ equal => ?_
    obtain rfl := equal
    refine follows_bind_first (follows_resolve head.result) fun result _ equal => ?_
    obtain rfl := equal
    have entered := follow.enter .function head.name head.other
      (.same (.function params result)) (rfl : true = true)
    refine follows_bind_first (inductionHypothesis entered) fun found found' later => ?_
    exact follows_pure ⟨later.1, .fn head later.2⟩
  | var head tail inductionHypothesis =>
    rw [enterDecls, enterDecls]
    refine follows_bind_first (follows_mapM_resolve head.type) fun stated _ equal => ?_
    obtain rfl := equal
    have entered := follow.enter .var head.name head.other (.same (stated.getD .unknown))
      head.isConst
    refine follows_bind_first (inductionHypothesis entered) fun found found' later => ?_
    exact follows_pure ⟨later.1, .var head later.2⟩
  | struct head tail inductionHypothesis =>
    rw [enterDecls, enterDecls]
    refine follows_bind_first (inductionHypothesis follow) fun found found' later => ?_
    exact follows_pure ⟨later.1, .struct head later.2⟩

/-- The parameters are declared under their names, which stay. -/
theorem step_declareParams {params params' : List Param} {types : List Ty}
    (same : List.Forall₂ (SameParam new) params params') :
    StepFollows new addressed [] (declareParams params types) (declareParams params' types) := by
  induction same generalizing types with
  | nil => cases types <;> exact step_pure
  | cons head tail inductionHypothesis =>
    cases types with
    | nil => exact step_pure
    | cons type types =>
      rename_i param param' params params'
      have declares : StepFollows new addressed []
          (declare param.name.name param.name.position
            ⟨type, .parameter, true, true, param.position⟩)
          (declare param.name.name param'.name.position
            ⟨type, .parameter, true, true, param'.position⟩) :=
        step_declare head.other ⟨rfl, rfl, .same type⟩
      rw [declareParams, declareParams, head.name]
      exact step_bind declares fun _ => inductionHypothesis

/-- A function raises what its body raises. -/
theorem step_fnDecl {declared declared' : FnDecl} {params : List Ty} {result : Ty}
    (misnamed : MisnamedFn new addressed hits declared declared') :
    StepFollows new addressed hits (fnDecl registry declared params result)
      (fnDecl registry declared' params result) := by
  have body : StepFollows new addressed hits
      (do declareParams declared.params params
          stmts ⟨registry, ⟨declared.name.name, result⟩⟩ false declared.body)
      (do declareParams declared'.params params
          stmts ⟨registry, ⟨declared.name.name, result⟩⟩ false declared'.body) :=
    step_bind (step_declareParams misnamed.params) fun _ => step_stmts misnamed.body
  have ends : StepFollows new addressed []
      (if needsValue result && !anyReturns declared.body then
        report (.missingReturn declared.name.name) declared.position else pure ())
      (if needsValue result && !anyReturns declared.body then
        report (.missingReturn declared.name.name) declared'.position else pure ()) := by
    split
    · exact step_report
    · exact step_pure
  have inner : StepFollows new addressed (hits ++ []) _ _ :=
    step_bind (step_inScope body) fun _ => ends
  rw [List.append_nil] at inner
  unfold fnDecl
  rw [misnamed.name, anyReturns_misnamed misnamed.body]
  exact step_bind (step_reach misnamed.other) fun _ => inner

/-- A global variable raises what its value raises. -/
theorem step_globalVar {declared declared' : VarDecl} {stated : Option Ty}
    (var : MisnamedVar new addressed hits declared declared') :
    StepFollows new addressed hits (globalVar registry declared stated)
      (globalVar registry declared' stated) := by
  have outside (scopes scopes' : Scopes) (follow : ScopesFollow new addressed scopes scopes') :
      ContextFollows new addressed ⟨registry, scopes, none⟩ ⟨registry, scopes', none⟩ :=
    ⟨rfl, follow, rfl⟩
  refine step_check_bind_last (fun _ _ follow => follows_varType (outside _ _ follow) var)
    fun type type' blurred => ?_
  rw [var.name]
  exact step_declare var.other ⟨var.isConst, rfl, blurred⟩

/-- All declarations raise what each of them raises. -/
theorem step_decls {entered entered' : List Entered}
    (follow : EnteredFollow new addressed hits entered entered') :
    StepFollows new addressed hits (decls registry entered) (decls registry entered') := by
  induction follow with
  | nil => exact step_pure
  | fn head tail inductionHypothesis =>
    exact step_bind (step_fnDecl head) fun _ => inductionHypothesis
  | var head tail inductionHypothesis =>
    exact step_bind (step_globalVar head) fun _ => inductionHypothesis
  | struct head tail inductionHypothesis =>
    rw [decls, decls, head.name]
    exact step_bind (step_reach head.other) fun _ => inductionHypothesis

/-- The diagnostics of a program with misnamed identifiers, in the order in which they are raised:
one for each of the identifiers, and between them what follows from pointers to the unknown type. -/
theorem raised_misnamed (misnamed : MisnamedProgram new addressed hits program program')
    (clean : raised program = .ok []) :
    ∃ reports, raised program' = .ok reports ∧ Cascade new addressed hits reports := by
  obtain ⟨registry, defined, entered, after, passes⟩ := stages_of_raised rfl clean
  have nothing : ScopesFollow new addressed Scopes.empty Scopes.empty := ⟨.nil, .nil⟩
  obtain ⟨sameRegistry, scopesFollow, structs⟩ :=
    defineStructs_follow Registry.empty misnamed nothing
  obtain ⟨fieldReports, defined', raisedFields⟩ :=
    defineFields_follow addressed structs defined
  obtain ⟨raisedEntering, enteredScopes, enteredFollow⟩ :=
    follows_enterDecls misnamed scopesFollow entered
  obtain ⟨after', reports, ran, -, raisedPassing⟩ :=
    step_decls enteredFollow _ _ after enteredScopes passes
  refine ⟨_, ?_, (raisedFields.append raisedEntering).append raisedPassing⟩
  unfold raised
  dsimp only [bind, Except.bind]
  rw [sameRegistry, defined']
  dsimp only
  rw [ran]
  rfl

/-- The diagnostic for an identifier that is not defined. -/
def undefinedAt (name : String) (position : Position) : Diagnostic :=
  ⟨.undefinedVariable name, position⟩

/-- Without those about pointers to the unknown type, what is raised is one diagnostic for each
misnamed identifier. -/
theorem Cascade.filter {reports : List Diagnostic}
    (cascade : Cascade new addressed hits reports) :
    (reports.filter fun diagnostic => !diagnostic.cause.blamesUnknownPointer) =
      hits.map (undefinedAt new) := by
  induction cascade with
  | nil => rfl
  | undefined position rest inductionHypothesis =>
    exact congrArg (undefinedAt new position :: ·) inductionHypothesis
  | consequence taken blames rest inductionHypothesis =>
    rw [List.filter_cons_of_neg (by simp [blames]), inductionHypothesis]

/-- If no address is taken, nothing else is raised. -/
theorem Cascade.eq_map {reports : List Diagnostic} (cascade : Cascade new false hits reports) :
    reports = hits.map (undefinedAt new) := by
  induction cascade with
  | nil => rfl
  | undefined position rest inductionHypothesis =>
    exact congrArg (undefinedAt new position :: ·) inductionHypothesis
  | consequence taken => cases taken

/-- One undefined name does not cascade. If a program is checked without diagnostics and an
identifier in it is given a name that is declared nowhere, then the name is reported once, where it
stands. All else that is reported is about a pointer to the unknown type, and if the program takes
no address, nothing else is reported. -/
theorem check_misnamed {position : Position}
    (misnamed : MisnamedProgram new addressed [position] program program')
    (clean : program.check = .ok []) :
    ∃ reports, program'.check = .ok reports ∧
      (reports.filter fun diagnostic => !diagnostic.cause.blamesUnknownPointer) =
        [undefinedAt new position] ∧
      (addressed = false → reports = [undefinedAt new position]) := by
  have quiet : raised program = .ok [] := check_eq_nil_iff_raised.mp clean
  obtain ⟨reports, ran, cascade⟩ := raised_misnamed misnamed quiet
  have sorted : (Diagnostic.inOrder reports).Perm reports := List.mergeSort_perm reports _
  refine ⟨Diagnostic.inOrder reports, ?_, ?_, ?_⟩
  · rw [Program.check, ran]
    rfl
  · have same := sorted.filter fun diagnostic => !diagnostic.cause.blamesUnknownPointer
    rw [cascade.filter] at same
    exact List.perm_singleton.mp same
  · rintro rfl
    rw [cascade.eq_map] at sorted ⊢
    exact List.perm_singleton.mp sorted

/-- An integer variable. -/
def integerVar : VarDecl :=
  ⟨false, false, ⟨"x", ⟨1, 5⟩⟩, some (.primitive ⟨1, 8⟩ "i32"), some (.number ⟨1, 14⟩ "1"), ⟨1, 1⟩⟩

/-- A pointer to integers that is given the address of a name. -/
def pointerTo (name : String) : VarDecl :=
  ⟨false, true, ⟨"p", ⟨1, 23⟩⟩, some (.pointer ⟨1, 26⟩ false (.primitive ⟨1, 27⟩ "i32")),
    some (.unary ⟨1, 33⟩ .addressOf (.ident ⟨1, 34⟩ name)), ⟨1, 17⟩⟩

/-- The two together. -/
def addressing (name : String) : Program :=
  [.var integerVar, .var (pointerTo name)]

/-- Giving another name to the identifier there is misnaming it. -/
theorem misnamed_addressing :
    MisnamedProgram "missing" true [⟨1, 34⟩] (addressing "x") (addressing "missing") := by
  have first : MisnamedVar "missing" true [] integerVar integerVar :=
    ⟨rfl, rfl, by decide, rfl, .some .number⟩
  have second : MisnamedVar "missing" true [⟨1, 34⟩] (pointerTo "x") (pointerTo "missing") :=
    ⟨rfl, rfl, by decide, rfl, .some (.unary (fun _ => rfl) .misnamed)⟩
  exact .var first (.var second .nil)

/-- With the name of the integer nothing is reported. -/
theorem check_addressing : (addressing "x").check = .ok [] := by
  decide +kernel

/-- The misnamed identifier is reported once there. -/
theorem check_misnamed_addressing :
    (addressing "x").check = .ok [] ∧
      ∃ reports, (addressing "missing").check = .ok reports ∧
        (reports.filter fun diagnostic => !diagnostic.cause.blamesUnknownPointer) =
          [undefinedAt "missing" ⟨1, 34⟩] ∧
        (true = false → reports = [undefinedAt "missing" ⟨1, 34⟩]) :=
  ⟨check_addressing, check_misnamed misnamed_addressing check_addressing⟩

/-- An undefined name is not always all that is reported: the address of it is a pointer that does
not go with the one that is expected. -/
theorem undefined_address_cascades :
    ¬ ∀ (source source' : String) (program program' : Program) (new : String)
        (position : Position), Program.ofSource source = .ok program →
      Program.ofSource source' = .ok program' →
      MisnamedProgram new true [position] program program' → program.check = .ok [] →
      program'.check = .ok [undefinedAt new position] := by
  intro exact
  have parsed : Program.ofSource "var x: i32 = 1; const p: *i32 = &x;" = .ok (addressing "x") := by
    decide +kernel
  have parsed' : Program.ofSource "var x: i32 = 1; const p: *i32 = &missing;" =
      .ok (addressing "missing") := by
    decide +kernel
  have only := exact _ _ _ _ _ _ parsed parsed' misnamed_addressing check_addressing
  have both : raised (addressing "missing") =
      .ok [undefinedAt "missing" ⟨1, 34⟩,
        ⟨.typeMismatch (.pointer false (.primitive "i32")) (.pointer false .unknown),
          ⟨1, 33⟩⟩] := by
    decide +kernel
  rw [Program.check, both] at only
  have count := congrArg List.length (Except.ok.inj only)
  rw [Diagnostic.inOrder, List.length_mergeSort] at count
  cases count

end SystemsLang.Typing
