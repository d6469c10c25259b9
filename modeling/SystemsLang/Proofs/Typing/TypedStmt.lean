import SystemsLang.Proofs.Typing.Frames

/-!
# The checker decides whether statements are in order

A statement passes the checker exactly if it is in order, and the scopes in which it ends stand for
the environment that the rules say it leaves. Both directions follow the tree.
-/

namespace SystemsLang.Typing

open Syntax Checker

variable {Same : Ty → Ty → Prop} {context : Context} {surroundings : Surroundings}
  {scopes after : Scopes} {position : Position}

/-- What follows an expression is judged with the type of the expression. -/
theorem reports_exprType_bind {α : Type} (sound : context.Sound) {expression : Expr}
    {next : Ty → Checked α} :
    (exprType context expression >>= next).reports = [] ↔
      ∃ type, HasType Eq context.env expression type ∧ (next type).reports = [] := by
  rw [Checked.reports_bind, List.append_eq_nil_iff]
  constructor
  · rintro ⟨quiet, follows⟩
    exact ⟨_, (finds_exprType sound).mp ⟨quiet, rfl⟩, follows⟩
  · rintro ⟨type, typed, follows⟩
    obtain ⟨quiet, rfl⟩ := (finds_exprType sound).mpr typed
    exact ⟨quiet, follows⟩

/-- The check of a variable with a known written type or none decides which type it has. -/
theorem finds_varType (sound : context.Sound) {declared : VarDecl} {type : Ty}
    (known : ∀ stated ∈ declared.type, Known context.env.structs stated) :
    Finds (varType context declared (declared.type.map denoted)) type ↔
      VarType Eq context.env declared type := by
  cases annotated : declared.type with
  | none =>
    cases given : declared.init with
    | none =>
      have untyped : ¬ VarType Eq context.env declared type := by
        intro typed
        cases typed <;> simp_all
      simp [varType, given, untyped]
    | some value =>
      simp only [varType, given, Option.map_none, finds_exprType sound]
      constructor
      · exact fun typed => .inferred annotated given typed
      · intro typed
        cases typed with
        | stated stated | checked stated => simp [annotated] at stated
        | inferred _ same typed =>
          obtain rfl := Option.some.inj (given.symm.trans same)
          exact typed
  | some written =>
    have known : Known context.env.structs written := known written annotated
    cases given : declared.init with
    | none =>
      simp only [varType, given, Option.map_some, finds_pure]
      constructor
      · rintro rfl
        exact .stated annotated given known
      · intro typed
        cases typed with
        | stated same | checked same =>
          rw [Option.some.inj (annotated.symm.trans same)]
        | inferred bare => simp [annotated] at bare
    | some value =>
      simp only [varType, given, Option.map_some]
      constructor
      · rintro ⟨quiet, found⟩
        obtain ⟨actual, typed, fits⟩ := (reports_exprType_bind sound).mp quiet
        rw [Checked.reports_bind, Checked.reports_pure, List.append_nil,
          reports_expectCoercible] at fits
        obtain rfl : denoted written = type := found
        exact .checked annotated given known typed fits
      · intro typed
        cases typed with
        | stated _ absent => simp [given] at absent
        | checked same also _ typed fits =>
          obtain rfl := Option.some.inj (annotated.symm.trans same)
          obtain rfl := Option.some.inj (given.symm.trans also)
          refine ⟨(reports_exprType_bind sound).mpr ⟨_, typed, ?_⟩, rfl⟩
          rw [Checked.reports_bind, Checked.reports_pure, List.append_nil]
          exact reports_expectCoercible.mpr fits
        | inferred bare => simp [annotated] at bare

/-- A variable that has a type is annotated with a known type or not at all. -/
theorem VarType.known {env : Env} {declared : VarDecl} {type : Ty}
    (typed : VarType Same env declared type) :
    ∀ stated ∈ declared.type, Known env.structs stated := by
  intro stated annotated
  cases typed with
  | stated same _ known | checked same _ known =>
    obtain rfl := Option.some.inj (same.symm.trans annotated)
    exact known
  | inferred bare => simp [bare] at annotated

/-- The structs that the type of a variable leads to are there. -/
theorem VarType.closed {env : Env} (sound : env.Sound) {declared : VarDecl} {type : Ty}
    (typed : VarType Same env declared type) : Closed env.structs type := by
  cases typed with
  | stated _ _ known | checked _ _ known => exact closed_denoted known
  | inferred _ _ typed => exact closed_of_hasType sound _ typed

/-- A variable in a function passes if it has a type and its name is not bound in its scope yet. -/
theorem passes_localVar (ready : Ready surroundings scopes) {declared : VarDecl} :
    Passes (localVar surroundings declared) scopes after ↔
      ∃ type, VarType Eq (surroundings.context scopes).env declared type ∧
        (surroundings.context scopes).env.Fresh declared.name.name ∧
        scopes.insert declared.name.name (varSymbol declared type) = after := by
  rw [localVar, passes_check_bind, passes_check_bind, passes_declare, ready.undeclared_iff,
    reports_mapM_resolve]
  constructor
  · rintro ⟨known, quiet, fresh, ends⟩
    rw [value_mapM_resolve known] at quiet ends
    exact ⟨_, (finds_varType ready.sound known).mp ⟨quiet, rfl⟩, fresh, ends⟩
  · rintro ⟨type, typed, fresh, ends⟩
    have known : ∀ stated ∈ declared.type, Known surroundings.registry.get? stated := typed.known
    obtain ⟨quiet, rfl⟩ := (finds_varType ready.sound known).mpr typed
    rw [value_mapM_resolve known]
    exact ⟨known, quiet, fresh, ends⟩

/-- A condition passes if it may be one. -/
theorem passes_condition (ready : Ready surroundings scopes) {value : Expr} :
    Passes (condition surroundings value) scopes after ↔
      Condition Eq (surroundings.context scopes).env value ∧ scopes = after := by
  rw [condition, passes_check, reports_exprType_bind ready.sound]
  simp only [conditionFits, reports_reportIf, Bool.not_eq_false', mayBeBool_iff]
  rfl

/-- An expression that is a statement passes if it has a type. -/
theorem passes_effect (ready : Ready surroundings scopes) {value : Expr} :
    Passes (effect surroundings value) scopes after ↔
      (∃ type, HasType Eq (surroundings.context scopes).env value type) ∧ scopes = after := by
  have typed : (exprType (surroundings.context scopes) value >>= pure).reports = [] ↔
      ∃ type, HasType Eq (surroundings.context scopes).env value type ∧
        (pure type : Checked Ty).reports = [] := reports_exprType_bind ready.sound
  simp only [bind_pure, Checked.reports_pure, and_true] at typed
  rw [effect, passes_check, Checked.ignore, typed]

/-- A step that is decided by a property of what it is taken for is decided by it if that is
optional. -/
theorem passes_optionally {α : Type} {step : α → Checker Unit} {holds : α → Prop}
    (decides : ∀ value, Passes (step value) scopes after ↔ holds value ∧ scopes = after)
    (optional : Option α) :
    Passes (optionally step optional) scopes after ↔
      (∀ value ∈ optional, holds value) ∧ scopes = after := by
  cases optional with
  | none => simp [optionally]
  | some value => simp [optionally, decides]

/-- What is given back passes if the return is in order. -/
theorem passes_returnValue (ready : Ready surroundings scopes) {inLoop : Bool}
    {value : Option Expr} :
    Passes (returnValue surroundings position value) scopes after ↔
      StmtOk Eq inLoop (surroundings.context scopes).env (.returns position value)
        (surroundings.context scopes).env ∧ scopes = after := by
  have inside : (surroundings.context scopes).env.result = some surroundings.enclosing.result := rfl
  have known : surroundings.enclosing.result ≠ .unknown := ready.sound.known _ rfl
  cases value with
  | none =>
    have needs := needsValue_iff known
    have step : returnValue surroundings position none =
        if needsValue surroundings.enclosing.result then
          report (.missingReturn surroundings.enclosing.name) position
        else pure () := rfl
    rw [step]
    constructor
    · intro passes
      split at passes
      · exact absurd passes not_passes_report
      · rename_i needless
        exact ⟨.returnNothing inside fun value => needless (needs.mpr value),
          passes_pure.mp passes⟩
    · rintro ⟨ok, rfl⟩
      cases ok with
      | returnNothing same needless =>
        obtain rfl := Option.some.inj (inside.symm.trans same)
        rw [if_neg fun value => needless (needs.mp value)]
        exact passes_pure.mpr rfl
  | some value =>
    rw [returnValue, passes_check, reports_exprType_bind ready.sound]
    refine and_congr_left fun _ => ?_
    constructor
    · rintro ⟨actual, typed, fits⟩
      split at fits
      · exact absurd fits (reports_report _)
      · rename_i valued
        rw [isVoid_iff] at valued
        exact .returnValue inside valued typed (reports_expectCoercible.mp fits)
    · intro ok
      cases ok with
      | returnValue same valued typed fits =>
        obtain rfl := Option.some.inj (inside.symm.trans same)
        refine ⟨_, typed, ?_⟩
        rw [if_neg fun isVoid => valued (isVoid_iff.mp isVoid)]
        exact reports_expectCoercible.mpr fits

mutual

/-- A statement that passes is in order and leaves the environment of the scopes in which it
ends. -/
theorem stmtOk_of_passes {scopes after : Scopes} (ready : Ready surroundings scopes)
    (inLoop : Bool) (statement : Stmt)
    (passes : Passes (stmt surroundings inLoop statement) scopes after) :
    StmtOk Eq inLoop (surroundings.context scopes).env statement (surroundings.context after).env ∧
      Ready surroundings after := by
  cases statement with
  | block position body =>
    rw [stmt] at passes
    obtain ⟨rfl, last, inner⟩ := (passes_inScope (confined_stmts _ _ _)).mp passes
    exact ⟨.block (stmtsOk_of_passes ready.push inLoop body inner).1, ready⟩
  | comptime position body =>
    rw [stmt] at passes
    obtain ⟨rfl, last, inner⟩ := (passes_inScope (confined_stmts _ _ _)).mp passes
    exact ⟨.comptime (stmtsOk_of_passes ready.push inLoop body inner).1, ready⟩
  | returns position value =>
    have ok : StmtOk Eq inLoop (surroundings.context scopes).env (.returns position value)
        (surroundings.context scopes).env ∧ scopes = after := (passes_returnValue ready).mp passes
    obtain ⟨ok, rfl⟩ := ok
    exact ⟨ok, ready⟩
  | branch position test body otherwise =>
    rw [stmt, passes_bind] at passes
    obtain ⟨between, tests, passes⟩ := passes
    obtain ⟨tested, rfl⟩ := (passes_condition ready).mp tests
    obtain ⟨between, passesBody, passesLast⟩ := passes_bind.mp passes
    obtain ⟨rfl, inside, inner⟩ := (passes_inScope (confined_stmts _ _ _)).mp passesBody
    have taken := (stmtsOk_of_passes ready.push inLoop body inner).1
    obtain ⟨last, behind⟩ := optionalOk_of_passes ready inLoop otherwise passesLast
    exact ⟨.branch tested taken last, behind⟩
  | whileLoop position test body =>
    rw [stmt, passes_bind] at passes
    obtain ⟨between, tests, passes⟩ := passes
    obtain ⟨tested, rfl⟩ := (passes_condition ready).mp tests
    obtain ⟨rfl, last, inner⟩ := (passes_inScope (confined_stmts _ _ _)).mp passes
    exact ⟨.whileLoop tested (stmtsOk_of_passes ready.push true body inner).1, ready⟩
  -- The header opens a scope for the whole loop, and the body one more inside of it.
  | forLoop position init test step body =>
    rw [stmt] at passes
    obtain ⟨rfl, last, header⟩ := (passes_inScope (confined_header test step
      (confined_optionalStmt _ _ _) (confined_stmts _ _ _))).mp passes
    obtain ⟨started, starts, passes⟩ := passes_bind.mp header
    obtain ⟨starts, headed⟩ := optionalOk_of_passes ready.push inLoop init starts
    obtain ⟨between, tests, passes⟩ := passes_bind.mp passes
    obtain ⟨tested, rfl⟩ := (passes_optionally (fun _ => passes_condition headed) test).mp tests
    obtain ⟨between, steps, passes⟩ := passes_bind.mp passes
    obtain ⟨stepped, rfl⟩ := (passes_optionally (fun _ => passes_effect headed) step).mp steps
    obtain ⟨-, inside, inner⟩ := (passes_inScope (confined_stmts _ _ _)).mp passes
    exact ⟨.forLoop starts tested stepped (stmtsOk_of_passes headed.push true body inner).1, ready⟩
  -- A jump outside of loops is reported, and so does not pass.
  | breakLoop position =>
    cases inLoop with
    | false => exact absurd passes not_passes_report
    | true =>
      obtain rfl := passes_pure.mp passes
      exact ⟨.breakLoop, ready⟩
  | continueLoop position =>
    cases inLoop with
    | false => exact absurd passes not_passes_report
    | true =>
      obtain rfl := passes_pure.mp passes
      exact ⟨.continueLoop, ready⟩
  | expr position value =>
    obtain ⟨⟨type, typed⟩, rfl⟩ := (passes_effect ready).mp passes
    exact ⟨.expr typed, ready⟩
  | declare position declared =>
    obtain ⟨type, typed, fresh, rfl⟩ := (passes_localVar ready).mp passes
    have closed : Closed surroundings.registry.get? (varSymbol declared type).type :=
      typed.closed ready.sound.env
    have entered : Ready surroundings
        (scopes.insert declared.name.name (varSymbol declared type)) := ready.insert rfl closed
    have left : (surroundings.context
        (scopes.insert declared.name.name (varSymbol declared type))).env =
        (surroundings.context scopes).env.bind declared.name.name ⟨type, declared.isConst⟩ :=
      env_insert _ _ _ _ _
    rw [left]
    exact ⟨.declare typed fresh, entered⟩

/-- Statements that pass one after the other are in order. -/
theorem stmtsOk_of_passes {scopes after : Scopes} (ready : Ready surroundings scopes)
    (inLoop : Bool) (statements : List Stmt)
    (passes : Passes (stmts surroundings inLoop statements) scopes after) :
    StmtsOk Eq inLoop (surroundings.context scopes).env statements
        (surroundings.context after).env ∧
      Ready surroundings after := by
  match statements with
  | [] =>
    obtain rfl := passes_pure.mp passes
    exact ⟨.nil, ready⟩
  | first :: rest =>
    rw [stmts, passes_bind] at passes
    obtain ⟨between, passesHead, passesTail⟩ := passes
    obtain ⟨head, behind⟩ := stmtOk_of_passes ready inLoop first passesHead
    obtain ⟨tail, last⟩ := stmtsOk_of_passes behind inLoop rest passesTail
    exact ⟨.cons head tail, last⟩

/-- A statement that may be absent and passes is in order if it is there. -/
theorem optionalOk_of_passes {scopes after : Scopes} (ready : Ready surroundings scopes)
    (inLoop : Bool) (optional : Option Stmt)
    (passes : Passes (optionalStmt surroundings inLoop optional) scopes after) :
    StmtsOk Eq inLoop (surroundings.context scopes).env optional.toList
        (surroundings.context after).env ∧
      Ready surroundings after := by
  match optional with
  | none =>
    obtain rfl := passes_pure.mp passes
    exact ⟨.nil, ready⟩
  | some inner =>
    rw [optionalStmt] at passes
    obtain ⟨ok, behind⟩ := stmtOk_of_passes ready inLoop inner passes
    exact ⟨.cons ok .nil, behind⟩

end

mutual

/-- A statement that is in order passes, and ends in scopes that stand for what it leaves. -/
theorem passes_of_stmtOk {scopes : Scopes} (ready : Ready surroundings scopes)
    (inLoop : Bool) (statement : Stmt)
    {left : Env} (ok : StmtOk Eq inLoop (surroundings.context scopes).env statement left) :
    ∃ after, Passes (stmt surroundings inLoop statement) scopes after ∧
      (surroundings.context after).env = left := by
  cases statement with
  | block position body =>
    cases ok with
    | block inner =>
      obtain ⟨last, passes, -⟩ := passes_of_stmtsOk ready.push inLoop body inner
      exact ⟨scopes, (passes_inScope (confined_stmts _ _ _)).mpr ⟨rfl, last, passes⟩, rfl⟩
  | comptime position body =>
    cases ok with
    | comptime inner =>
      obtain ⟨last, passes, -⟩ := passes_of_stmtsOk ready.push inLoop body inner
      exact ⟨scopes, (passes_inScope (confined_stmts _ _ _)).mpr ⟨rfl, last, passes⟩, rfl⟩
  | returns position value =>
    have stays : left = (surroundings.context scopes).env := by cases ok <;> rfl
    subst stays
    exact ⟨scopes, (passes_returnValue ready).mpr ⟨ok, rfl⟩, rfl⟩
  | branch position test body otherwise =>
    cases ok with
    | branch tested taken last =>
      obtain ⟨inside, passes, -⟩ := passes_of_stmtsOk ready.push inLoop body taken
      obtain ⟨after, ends, same⟩ := passes_of_optionalOk ready inLoop otherwise last
      refine ⟨after, ?_, same⟩
      rw [stmt, passes_bind]
      exact ⟨scopes, (passes_condition ready).mpr ⟨tested, rfl⟩, passes_bind.mpr ⟨scopes,
        (passes_inScope (confined_stmts _ _ _)).mpr ⟨rfl, inside, passes⟩, ends⟩⟩
  | whileLoop position test body =>
    cases ok with
    | whileLoop tested inner =>
      obtain ⟨last, passes, -⟩ := passes_of_stmtsOk ready.push true body inner
      refine ⟨scopes, ?_, rfl⟩
      rw [stmt, passes_bind]
      exact ⟨scopes, (passes_condition ready).mpr ⟨tested, rfl⟩,
        (passes_inScope (confined_stmts _ _ _)).mpr ⟨rfl, last, passes⟩⟩
  | forLoop position init test step body =>
    cases ok with
    | forLoop starts tested stepped inner =>
      obtain ⟨started, begins, rfl⟩ := passes_of_optionalOk ready.push inLoop init starts
      have headed := (optionalOk_of_passes ready.push inLoop init begins).2
      obtain ⟨last, passes, -⟩ := passes_of_stmtsOk headed.push true body inner
      have tests : Passes (optionally (condition surroundings) test) started started :=
        (passes_optionally (fun _ => passes_condition headed) test).mpr ⟨tested, rfl⟩
      have steps : Passes (optionally (effect surroundings) step) started started :=
        (passes_optionally (fun _ => passes_effect headed) step).mpr ⟨stepped, rfl⟩
      have loops : Passes (inScope (stmts surroundings true body)) started started :=
        (passes_inScope (confined_stmts _ _ _)).mpr ⟨rfl, last, passes⟩
      refine ⟨scopes, ?_, rfl⟩
      rw [stmt, passes_inScope (confined_header test step (confined_optionalStmt _ _ _)
        (confined_stmts _ _ _))]
      exact ⟨rfl, started, passes_bind.mpr ⟨started, begins, passes_bind.mpr ⟨started, tests,
        passes_bind.mpr ⟨started, steps, loops⟩⟩⟩⟩
  | breakLoop position =>
    cases ok with
    | breakLoop => exact ⟨scopes, passes_pure.mpr rfl, rfl⟩
  | continueLoop position =>
    cases ok with
    | continueLoop => exact ⟨scopes, passes_pure.mpr rfl, rfl⟩
  | expr position value =>
    cases ok with
    | expr typed => exact ⟨scopes, (passes_effect ready).mpr ⟨⟨_, typed⟩, rfl⟩, rfl⟩
  | declare position declared =>
    cases ok with
    | declare typed fresh =>
      exact ⟨_, (passes_localVar ready).mpr ⟨_, typed, fresh, rfl⟩, env_insert _ _ _ _ _⟩

/-- Statements that are in order one after the other pass. -/
theorem passes_of_stmtsOk {scopes : Scopes} (ready : Ready surroundings scopes)
    (inLoop : Bool) (statements : List Stmt) {left : Env}
    (ok : StmtsOk Eq inLoop (surroundings.context scopes).env statements left) :
    ∃ after, Passes (stmts surroundings inLoop statements) scopes after ∧
      (surroundings.context after).env = left := by
  match statements with
  | [] =>
    cases ok with
    | nil => exact ⟨scopes, passes_pure.mpr rfl, rfl⟩
  | first :: rest =>
    cases ok with
    | cons head tail =>
      obtain ⟨between, passes, rfl⟩ := passes_of_stmtOk ready inLoop first head
      have behind := (stmtOk_of_passes ready inLoop first passes).2
      obtain ⟨after, further, same⟩ := passes_of_stmtsOk behind inLoop rest tail
      refine ⟨after, ?_, same⟩
      rw [stmts, passes_bind]
      exact ⟨between, passes, further⟩

/-- A statement that may be absent passes if it is in order or absent. -/
theorem passes_of_optionalOk {scopes : Scopes} (ready : Ready surroundings scopes)
    (inLoop : Bool) (optional : Option Stmt) {left : Env}
    (ok : StmtsOk Eq inLoop (surroundings.context scopes).env optional.toList left) :
    ∃ after, Passes (optionalStmt surroundings inLoop optional) scopes after ∧
      (surroundings.context after).env = left := by
  match optional with
  | none =>
    cases ok with
    | nil => exact ⟨scopes, passes_pure.mpr rfl, rfl⟩
  | some inner =>
    cases ok with
    | cons head tail =>
      obtain ⟨after, passes, rfl⟩ := passes_of_stmtOk ready inLoop inner head
      cases tail with
      | nil => exact ⟨after, passes, rfl⟩

end

end SystemsLang.Typing
