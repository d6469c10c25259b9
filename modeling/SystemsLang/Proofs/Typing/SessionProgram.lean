import SystemsLang.Proofs.Typing.Faultless
import SystemsLang.Proofs.Typing.SessionStmt

/-!
# A session over a program is its check

Steps of a session do to the scopes what the steps of the checker do, if the registry, the function
and the loops around them are what the checker is told (`Follows`). Statements hand all three on
unchanged to what comes after them, since they restore the session. So a session over a whole
program reports what the checker reports, which always ends: no session ends in a panic, and in
particular the first pass leaves as many signatures and annotations as the second asks for.
-/

namespace SystemsLang.Typing.Session

open Syntax

variable {α β : Type} {session : Session}

/-- What the checker is told about the place of a statement. -/
structure Frame where
  registry : Registry
  enclosing : Option Enclosing
  inLoop : Bool

/-- The place that a session has reached. -/
def frame (session : Session) : Frame :=
  ⟨session.registry, session.enclosing, session.loopDepth != 0⟩

/-- A step that, at the given place, does what a step of the checker does to the scopes. -/
def Follows (frame : Frame) (step : Run α) (checker : Checker α) : Prop :=
  ∀ session : Session, session.frame = frame → step session = onScopes checker session

variable {frame : Frame}

/-- A step on the scopes does what it is made from. -/
theorem follows_onScopes (checker : Checker α) : Follows frame (onScopes checker) checker :=
  fun _ _ => rfl

/-- A step that does nothing follows one that does nothing. -/
theorem follows_pure (value : α) : Follows frame (pure value) (pure value) := by
  intro session _
  exact congrArg (fun same => Except.ok (value, same)) (raising_nil session).symm

/-- A step that only raises diagnostics sees the registry and the function that the checker is told
of. -/
theorem follows_reading (found : Context → Checked α) :
    Follows frame (reading found)
      (Checker.check fun scopes => found ⟨frame.registry, scopes, frame.enclosing⟩) := by
  rintro session rfl
  rfl

/-- Raising diagnostics follows a check that looks at no scope. -/
theorem follows_raise (found : Checked α) :
    Follows frame (raise found) (Checker.check fun _ => found) :=
  fun _ _ => rfl

/-- In sequence the second step is taken at the same place as the first. -/
theorem Follows.bind {first : Run α} {second : α → Run β} {checker : Checker α}
    {next : α → Checker β} (head : Follows frame first checker)
    (tail : ∀ value, Follows frame (second value) (next value)) :
    Follows frame (first >>= second) (checker >>= next) := by
  intro session same
  rw [← onScopes_bind]
  change (first session >>= fun result => second result.1 result.2) =
    (onScopes checker session >>= fun result => onScopes (next result.1) result.2)
  rw [head session same]
  cases ran : checker.run session.scopes with
  | error fault =>
    rw [run_onScopes_error ran]
    rfl
  | ok outcome =>
    rw [run_onScopes ran]
    exact tail outcome.value _ same

/-- A step in a scope of its own. -/
theorem Follows.inScope {step : Run Unit} {checker : Checker Unit}
    (inside : Follows frame step checker) :
    Follows frame (inScope step) (Checker.inScope checker) :=
  (follows_onScopes _).bind fun _ => inside.bind fun _ => follows_onScopes _

/-- Inside a loop the checker is told so, wherever the loop stands. -/
theorem Follows.inLoop {registry : Registry} {enclosing : Option Enclosing} {within : Bool}
    {step : Run Unit} {checker : Checker Unit}
    (inside : Follows ⟨registry, enclosing, true⟩ step checker) :
    Follows ⟨registry, enclosing, within⟩ (inLoop step) checker := by
  rintro session ⟨⟩
  have entered : (modify fun session => { session with loopDepth := session.loopDepth + 1 } :
      Run Unit) session = .ok ((), { session with loopDepth := session.loopDepth + 1 }) := rfl
  have ranStep := inside { session with loopDepth := session.loopDepth + 1 } rfl
  rw [Session.inLoop, run_bind entered]
  cases ran : checker.run session.scopes with
  | error fault =>
    rw [run_onScopes_error ran]
    exact run_bind_error (ranStep.trans (run_onScopes_error ran)) _
  | ok outcome =>
    rw [run_onScopes ran]
    exact run_bind (ranStep.trans (run_onScopes ran)) _

/-- Inside a function the checker is told of that function and of no loop, whatever encloses it. -/
theorem Follows.inFunction {registry : Registry} {enclosing : Enclosing} {frame : Frame}
    (same : frame.registry = registry) {step : Run Unit} {checker : Checker Unit}
    (inside : Follows ⟨registry, some enclosing, false⟩ step checker) :
    Follows frame (inFunction enclosing step) checker := by
  rintro session rfl
  obtain rfl : session.registry = registry := same
  have ranStep := inside { session with enclosing := some enclosing, loopDepth := 0 } rfl
  change (step >>= fun _ => modify fun after =>
      { after with enclosing := session.enclosing, loopDepth := session.loopDepth } : Run Unit)
    { session with enclosing := some enclosing, loopDepth := 0 } = _
  cases ran : checker.run session.scopes with
  | error fault =>
    rw [run_onScopes_error ran]
    exact run_bind_error (ranStep.trans (run_onScopes_error ran)) _
  | ok outcome =>
    rw [run_onScopes ran]
    exact run_bind (ranStep.trans (run_onScopes ran)) _

/-- What the checker is told about statements of a function. -/
def frameOf (surroundings : Surroundings) (inLoop : Bool) : Frame :=
  ⟨surroundings.registry, some surroundings.enclosing, inLoop⟩

variable (surroundings : Surroundings) {inLoop : Bool}

/-- The type of a condition is that which it has in the context of the session. -/
theorem condition_eq_reading (value : Expr) :
    condition value = reading fun context =>
      exprType context value >>= fun type => conditionFits value.position type := by
  rw [condition, expr_eq_reading]
  simp only [raise_eq_reading, reading_bind]

/-- A condition is checked in the session as it is by the checker. -/
theorem follows_condition (value : Expr) :
    Follows (frameOf surroundings inLoop) (condition value)
      (Typing.condition surroundings value) := by
  rw [condition_eq_reading]
  exact follows_reading _

/-- Of an expression that is checked for its diagnostics alone the type is dropped. -/
theorem effect_eq_reading (value : Expr) :
    effect value = reading fun context => Checked.ignore (exprType context value) := by
  rw [effect, expr_eq_reading]
  simp only [pure_eq_reading, reading_bind]
  congr 1
  funext context
  ext1
  · rfl
  · exact List.append_nil _

/-- An expression is checked for its effect in the session as it is by the checker. -/
theorem follows_effect (value : Expr) :
    Follows (frameOf surroundings inLoop) (effect value) (Typing.effect surroundings value) := by
  rw [effect_eq_reading]
  exact follows_reading _

/-- So is a variable declaration. -/
theorem follows_varDecl (declared : VarDecl) :
    Follows (frameOf surroundings inLoop) (varDecl declared)
      (localVar surroundings declared) := by
  refine (follows_reading _).bind fun stated => Follows.bind ?_ fun type => follows_onScopes _
  rw [varType_eq_reading]
  exact follows_reading _

/-- What is given back is checked against the result of the function that the checker is told of. -/
theorem follows_givenBack (position : Position) (value : Option Expr) :
    Follows (frameOf surroundings inLoop) (givenBack surroundings.enclosing position value)
      (Typing.returnValue surroundings position value) := by
  unfold givenBack Typing.returnValue
  cases value with
  | none =>
    dsimp only
    split
    · exact follows_raise _
    · exact follows_pure ()
  | some value =>
    dsimp only
    split
    · simp only [expr_eq_reading, raise_eq_reading, reading_bind]
      exact follows_reading _
    · simp only [expr_eq_reading, raise_eq_reading, reading_bind]
      exact follows_reading _

/-- A `return` looks up the function around it, which is the one that the checker is told of. -/
theorem follows_returnValue (position : Position) (value : Option Expr) :
    Follows (frameOf surroundings inLoop) (returnValue position value)
      (Typing.returnValue surroundings position value) := by
  intro session same
  have inside : session.enclosing = some surroundings.enclosing := congrArg Frame.enclosing same
  have chosen : returnValue position value session =
      givenBack surroundings.enclosing position value session := by
    rw [returnValue, run_bind (run_get session), inside]
  exact chosen.trans (follows_givenBack surroundings position value session same)

/-- Outside of loops there is no loop to leave or to go on with. -/
theorem follows_jump (cause : Diagnostic.Cause) (position : Position) :
    Follows (frameOf surroundings inLoop) (jump cause position)
      (if inLoop then pure () else Checker.report cause position) := by
  intro session same
  have known : (session.loopDepth != 0) = inLoop := congrArg Frame.inLoop same
  change (if session.loopDepth = 0 then raise (Checked.report cause position) else pure () :
    Run Unit) session = _
  by_cases outside : session.loopDepth = 0
  · rw [outside] at known
    rw [if_pos outside, ← known]
    exact (follows_raise _ : Follows session.frame _ _) session rfl
  · rw [if_neg outside, ← known, if_pos (bne_iff_ne.mpr outside)]
    exact (follows_pure () : Follows session.frame _ _) session rfl

/-- A step for what is optional follows if it does for what is there. -/
theorem follows_optionally {step : α → Run Unit} {checker : α → Checker Unit}
    (follows : ∀ value, Follows frame (step value) (checker value)) (optional : Option α) :
    Follows frame (optionally step optional) (Typing.optionally checker optional) := by
  cases optional with
  | none => exact follows_pure ()
  | some value => exact follows value

mutual

/-- A statement is checked as the checker does it. -/
theorem follows_stmt (inLoop : Bool) (statement : Stmt) :
    Follows (frameOf surroundings inLoop) (stmt statement)
      (Typing.stmt surroundings inLoop statement) := by
  cases statement with
  | block position body | comptime position body =>
    rw [stmt, Typing.stmt]
    exact (follows_stmts inLoop body).inScope
  | returns position value => exact follows_returnValue surroundings position value
  | branch position test body otherwise =>
    rw [stmt, Typing.stmt]
    exact (follows_condition surroundings test).bind fun _ =>
      (follows_stmts inLoop body).inScope.bind fun _ => follows_optionalStmt inLoop otherwise
  | whileLoop position test body =>
    rw [stmt, Typing.stmt]
    exact (follows_condition surroundings test).bind fun _ =>
      (follows_stmts true body).inScope.inLoop
  | forLoop position init test step body =>
    rw [stmt, Typing.stmt]
    refine Follows.inScope ((follows_optionalStmt inLoop init).bind fun _ => ?_)
    refine (follows_optionally (follows_condition surroundings) test).bind fun _ => ?_
    refine (follows_optionally (follows_effect surroundings) step).bind fun _ => ?_
    exact (follows_stmts true body).inScope.inLoop
  | breakLoop position | continueLoop position =>
    exact follows_jump surroundings _ position
  | expr position value => exact follows_effect surroundings value
  | declare position declared => exact follows_varDecl surroundings declared

/-- Several statements are. -/
theorem follows_stmts (inLoop : Bool) (statements : List Stmt) :
    Follows (frameOf surroundings inLoop) (stmts statements)
      (Typing.stmts surroundings inLoop statements) := by
  match statements with
  | [] => exact follows_pure ()
  | first :: rest =>
    rw [stmts, Typing.stmts]
    exact (follows_stmt inLoop first).bind fun _ => follows_stmts inLoop rest

/-- A statement that may be absent is. -/
theorem follows_optionalStmt (inLoop : Bool) (optional : Option Stmt) :
    Follows (frameOf surroundings inLoop) (optionalStmt optional)
      (Typing.optionalStmt surroundings inLoop optional) := by
  match optional with
  | none => exact follows_pure ()
  | some inner => exact follows_stmt inLoop inner

end

/-- What the checker is told about a declaration that stands outside of all functions. -/
def globalFrame (registry : Registry) : Frame :=
  ⟨registry, none, false⟩

variable {registry : Registry}

/-- A function is checked as the checker does it with what its signature says. -/
theorem follows_fnDecl (declared : FnDecl) (params : List Ty) (result : Ty) :
    Follows (globalFrame registry) (fnDecl declared ⟨params, result⟩)
      (Typing.fnDecl registry declared params result) := by
  refine (follows_onScopes _).bind fun _ => Follows.bind ?_ fun _ => ?_
  · refine Follows.inScope ((follows_onScopes _).bind fun _ => Follows.inFunction rfl ?_)
    exact follows_stmts ⟨registry, ⟨declared.name.name, result⟩⟩ false declared.body
  · split
    · exact follows_raise _
    · exact follows_pure ()

/-- A global variable is checked as the checker does it with what its annotation says. -/
theorem follows_annotatedVar (declared : VarDecl) (stated : Option Ty) :
    Follows (globalFrame registry) (annotatedVar declared stated)
      (globalVar registry declared stated) := by
  refine Follows.bind ?_ fun type => follows_onScopes _
  rw [varType_eq_reading]
  exact follows_reading _

/-- The declaration that something was found out about. -/
def declarationOf : Entered → Decl
  | .fn declared _ _ => .fn declared
  | .var declared _ => .var declared
  | .struct declared => .struct declared

/-- The signatures of the functions among several declarations. -/
def signaturesOf : List Entered → List Signature
  | [] => []
  | .fn _ params result :: rest => ⟨params, result⟩ :: signaturesOf rest
  | .var .. :: rest | .struct _ :: rest => signaturesOf rest

/-- The annotations of the variables among several declarations. -/
def annotationsOf : List Entered → List (Option Ty)
  | [] => []
  | .var _ stated :: rest => stated :: annotationsOf rest
  | .fn .. :: rest | .struct _ :: rest => annotationsOf rest

/-- With one signature for every function and one annotation for every variable the second pass goes
through all declarations. -/
theorem follows_decls (entered : List Entered) :
    Follows (globalFrame registry)
      (decls (entered.map declarationOf) (signaturesOf entered) (annotationsOf entered))
      (Typing.decls registry entered) := by
  induction entered with
  | nil => exact follows_pure ()
  | cons first rest inductionHypothesis =>
    cases first with
    | fn declared params result =>
      exact (follows_fnDecl declared params result).bind fun _ => inductionHypothesis
    | var declared stated =>
      exact (follows_annotatedVar declared stated).bind fun _ => inductionHypothesis
    | struct declared => exact (follows_onScopes _).bind fun _ => inductionHypothesis

/-- A step that only changes the scopes. -/
theorem run_change (change : Scopes → Scopes) (session : Session) :
    onScopes (Checker.change change) session =
      .ok ((), { session with scopes := change session.scopes }) :=
  congrArg (fun after => Except.ok ((), after)) (raising_nil _)

/-- Structs are defined as the checker defines them. -/
theorem run_defineStructs (declarations : Program) (session : Session) :
    defineStructs declarations session =
      let found := Typing.defineStructs session.registry session.scopes declarations
      .ok (found.2.2, { session with registry := found.1, scopes := found.2.1 }) := by
  induction declarations generalizing session with
  | nil => rfl
  | cons first rest inductionHypothesis =>
    cases first with
    | fn declared | var declared => exact inductionHypothesis session
    | struct declared =>
      rw [defineStructs, run_bind (run_get session), Typing.defineStructs]
      dsimp only
      cases session.registry.define? declared.name.name with
      | none => exact inductionHypothesis session
      | some extended =>
        dsimp only
        have defined : (modify fun session => { session with registry := extended } : Run Unit)
            session = .ok ((), { session with registry := extended }) := rfl
        rw [run_bind defined, enter, run_bind (run_change _ _), run_bind (inductionHypothesis _)]
        rfl

/-- Giving a struct its fields changes the registry alone. -/
theorem run_setFields {name : String} {fields : Fields} {extended : Registry}
    (set : session.registry.setFields name fields = .ok extended) :
    setFields name fields session = .ok ((), { session with registry := extended }) := by
  rw [setFields, set]

/-- Fields of a struct that is not there end the session in a fault, as they end the check. -/
theorem run_setFields_error {name : String} {fields : Fields} {fault : Fault}
    (failed : session.registry.setFields name fields = .error fault) :
    setFields name fields session = .error (.fault fault) := by
  rw [setFields, failed]

/-- Structs are given the fields that the checker gives them, or end in the same fault. -/
theorem run_defineFields (defined : List StructDecl) (session : Session) :
    defineFields defined session =
      match Typing.defineFields session.registry defined with
      | .error fault => .error (.fault fault)
      | .ok (registry, reports) => .ok ((), { session with registry }.raising reports) := by
  induction defined generalizing session with
  | nil => exact (follows_pure () : Follows session.frame _ _) session rfl
  | cons declared rest inductionHypothesis =>
    let fields := fieldTypes session.registry [] declared.fields
    have whole : Typing.defineFields session.registry (declared :: rest) =
        (session.registry.setFields declared.name.name fields.value).bind fun extended =>
          (Typing.defineFields extended rest).bind fun found =>
            .ok (found.1, fields.reports ++ found.2) := rfl
    rw [defineFields, run_bind (run_reading _ session), whole]
    cases set : session.registry.setFields declared.name.name fields.value with
    | error fault =>
      have failed : setFields declared.name.name fields.value (session.raising fields.reports) =
          .error (.fault fault) := run_setFields_error set
      exact run_bind_error failed _
    | ok extended =>
      have given : setFields declared.name.name fields.value (session.raising fields.reports) =
          .ok ((), { session with registry := extended }.raising fields.reports) :=
        run_setFields set
      refine (run_bind given _).trans ((inductionHypothesis _).trans ?_)
      dsimp only [Except.bind, raising]
      cases Typing.defineFields extended rest with
      | error fault => rfl
      | ok found =>
        dsimp only
        rw [List.append_assoc]

/-- Putting one declaration in front of the others raises nothing. -/
theorem cons_later (first : Entered) (later : Checked (Scopes × List Entered)) :
    (do
      let (final, others) ← later
      return (final, first :: others)) =
      ⟨(later.value.1, first :: later.value.2), later.reports⟩ :=
  Checked.ext rfl (List.append_nil _)

/-- Functions and variables are entered as the checker enters them, with one signature for every
function and one annotation for every variable. -/
theorem run_enterDecls (declarations : Program) (session : Session) :
    enterDecls declarations session =
      let found := Typing.enterDecls session.registry session.scopes declarations
      .ok ((signaturesOf found.value.2, annotationsOf found.value.2),
        { session with scopes := found.value.1 }.raising found.reports) := by
  induction declarations generalizing session with
  | nil => exact (follows_pure ([], []) : Follows session.frame _ _) session rfl
  | cons first rest inductionHypothesis =>
    cases first with
    | struct declared =>
      simp only [Typing.enterDecls, cons_later]
      exact inductionHypothesis session
    | fn declared =>
      rw [enterDecls, run_bind (run_reading _ session), run_bind (run_reading _ _), enter,
        run_bind (run_change _ _), run_bind (inductionHypothesis _)]
      simp only [Typing.enterDecls, cons_later, Checked.reports_bind, ← raising_raising]
      rfl
    | var declared =>
      rw [enterDecls, run_bind (run_reading _ session), enter,
        run_bind (run_change _ _), run_bind (inductionHypothesis _)]
      simp only [Typing.enterDecls, cons_later, Checked.reports_bind, ← raising_raising]
      rfl

/-- What was found out about the declarations of a program is about all of them, in order. -/
theorem map_declarationOf (registry : Registry) (scopes : Scopes) (declarations : Program) :
    (Typing.enterDecls registry scopes declarations).value.2.map declarationOf = declarations := by
  induction declarations generalizing scopes with
  | nil => rfl
  | cons first rest inductionHypothesis =>
    cases first <;> exact congrArg (List.cons _) (inductionHypothesis _)

/-- A session over a program ends, and raises what the checker raises, in the same order. -/
theorem run_program (declarations : Program) :
    ∃ last, program declarations initial = .ok ((), last) ∧
      raised declarations = .ok last.reports := by
  obtain ⟨⟨registry, fieldReports⟩, defines⟩ := defineFields_defineStructs declarations
  let found := Typing.defineStructs Registry.empty Scopes.empty declarations
  let entered := Typing.enterDecls registry found.2.1 declarations
  obtain ⟨outcome, ran⟩ := ends_decls registry entered.value.2 entered.value.1
  have raises : raised declarations =
      .ok (fieldReports ++ entered.reports ++ outcome.reports) := by
    unfold raised
    dsimp only [bind, Except.bind]
    rw [defines]
    dsimp only
    rw [ran]
    rfl
  -- The session behind each of the steps.
  let named : Session := { initial with registry := found.1, scopes := found.2.1 }
  let defined : Session := { named with registry }.raising fieldReports
  let known : Session := { defined with scopes := entered.value.1 }.raising entered.reports
  let last : Session := { known with scopes := outcome.scopes }.raising outcome.reports
  have names : defineStructs declarations initial = .ok (found.2.2, named) :=
    run_defineStructs declarations initial
  have fields : defineFields found.2.2 named = .ok ((), defined) :=
    (run_defineFields found.2.2 named).trans (by rw [defines])
  have enters : enterDecls declarations defined =
      .ok ((signaturesOf entered.value.2, annotationsOf entered.value.2), known) :=
    run_enterDecls declarations defined
  have goesThrough : decls declarations (signaturesOf entered.value.2)
      (annotationsOf entered.value.2) known = .ok ((), last) := by
    have follows := follows_decls entered.value.2 known rfl
    rw [map_declarationOf] at follows
    exact follows.trans (run_onScopes ran)
  refine ⟨last, ?_, raises⟩
  rw [program, run_bind names, run_bind fields, run_bind enters]
  exact goesThrough

/-- So a session over a program has the diagnostics of its check, whatever the program is. -/
theorem check_eq (declarations : Program) :
    ∃ reports, check declarations = .ok reports ∧ declarations.check = .ok reports := by
  obtain ⟨last, ran, raises⟩ := run_program declarations
  refine ⟨Diagnostic.inOrder last.reports, ?_, ?_⟩
  · rw [check, StateT.run, ran]
    rfl
  · rw [Program.check, raises]
    rfl

/-- No program leads to a panic: its session ends with the diagnostics of its check. And in whatever
session they are taken, steps restore it. An expression leaves nothing but the diagnostics that its
type comes with, and a block nothing but further diagnostics; a statement and a function change no
more than what the innermost scope holds. -/
theorem run_restored :
    (∀ declarations : Program,
      ∃ reports, check declarations = .ok reports ∧ declarations.check = .ok reports) ∧
    (∀ (value : Expr) (session : Session),
      expr value session = .ok ((exprType session.context value).value,
        session.raising (exprType session.context value).reports)) ∧
    (∀ (body : Block) (session : Session),
      ∃ reports, block body session = .ok ((), session.raising reports)) ∧
    (∀ (statement : Stmt) (session : Session),
      ∃ after, stmt statement session = .ok ((), after) ∧ Restored session after) ∧
    (∀ (declared : FnDecl) (signature : Signature) (session : Session),
      ∃ after, fnDecl declared signature session = .ok ((), after) ∧ Restored session after) := by
  have unit {step : Run Unit} (restoring : Restoring step) (session : Session) :
      ∃ after, step session = .ok ((), after) ∧ Restored session after := by
    obtain ⟨⟨⟩, after, ran, restored⟩ := restoring session
    exact ⟨after, ran, restored⟩
  refine ⟨check_eq, fun value session => ?_, fun body => run_inScope (restoring_stmts body),
    fun statement => unit (restoring_stmt statement),
    fun declared signature => unit (restoring_fnDecl declared signature)⟩
  rw [expr_eq_reading, run_reading]

end SystemsLang.Typing.Session
