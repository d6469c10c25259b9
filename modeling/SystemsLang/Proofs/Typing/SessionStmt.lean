import SystemsLang.Proofs.Typing.Confined
import SystemsLang.Proofs.Typing.SessionExpr

/-!
# What statements leave as it was

Every step on statements gives back the session as it found it, but for what the innermost scope
holds and for further diagnostics (`Restored`): the registry, the scopes below the innermost one,
the function around the statement and the number of loops around it are the same again, in whatever
session the step is taken, also where no function is being checked and no scope is open above the
global one. A step in a scope of its own leaves nothing but further diagnostics.

That no scope is closed that was not opened, and no loop left that was not entered, follows on the
way: a step between opening and closing leaves what was opened.
-/

namespace SystemsLang.Typing

open Syntax

/-- The scopes that stand below the innermost one. -/
def Scopes.outer (scopes : Scopes) : List Scope :=
  (scopes.opened ++ [scopes.global]).tail

/-- What is entered goes into the innermost scope. -/
theorem Scopes.outer_insert (scopes : Scopes) (name : String) (symbol : Symbol) :
    (scopes.insert name symbol).outer = scopes.outer := by
  obtain ⟨opened, global⟩ := scopes
  cases opened <;> rfl

/-- If a scope was opened and the scopes below the innermost one are the same again, closing a scope
gives back the scopes in which it was opened. -/
theorem Scopes.pop_of_outer {scopes after : Scopes} (same : after.outer = scopes.push.outer) :
    after.pop = .ok scopes := by
  obtain ⟨opened, global⟩ := scopes
  obtain ⟨afterOpened, afterGlobal⟩ := after
  have pushed : (push ⟨opened, global⟩).outer = opened ++ [global] := rfl
  rw [pushed] at same
  cases afterOpened with
  | nil => exact absurd same.symm (List.append_ne_nil_of_right_ne_nil _ (List.cons_ne_nil _ _))
  | cons innermost rest =>
    obtain ⟨rfl, sameGlobal⟩ := List.append_inj' same rfl
    obtain ⟨rfl, -⟩ := List.cons.inj sameGlobal
    rfl

namespace Session

/-- A session as it was, but for what its innermost scope holds and for further diagnostics. -/
structure Restored (session after : Session) : Prop where
  registry : after.registry = session.registry
  enclosing : after.enclosing = session.enclosing
  loopDepth : after.loopDepth = session.loopDepth
  outer : after.scopes.outer = session.scopes.outer
  reports : session.reports <+: after.reports

/-- A step that restores whatever session it is taken in. -/
def Restoring {α : Type} (step : Run α) : Prop :=
  ∀ session, ∃ value after, step session = .ok (value, after) ∧ Restored session after

variable {α β : Type} {session after : Session}

/-- With further diagnostics alone a session is restored. -/
theorem Restored.raising (session : Session) (reports : List Diagnostic) :
    Restored session (session.raising reports) :=
  ⟨rfl, rfl, rfl, rfl, List.prefix_append _ _⟩

/-- What is restored can be changed and restored again. -/
theorem Restored.trans {between : Session} (first : Restored session between)
    (second : Restored between after) : Restored session after where
  registry := second.registry.trans first.registry
  enclosing := second.enclosing.trans first.enclosing
  loopDepth := second.loopDepth.trans first.loopDepth
  outer := second.outer.trans first.outer
  reports := first.reports.trans second.reports

/-- A step that only raises diagnostics restores the session. -/
theorem restoring_reading (found : Context → Checked α) : Restoring (reading found) :=
  fun session => ⟨_, _, run_reading found session, .raising session _⟩

/-- Raising diagnostics restores everything else. -/
theorem restoring_raise (found : Checked α) : Restoring (raise found) :=
  restoring_reading fun _ => found

/-- A step that does nothing restores the session. -/
theorem restoring_pure (value : α) : Restoring (pure value : Run α) := by
  rw [pure_eq_reading]
  exact restoring_reading _

/-- After a step that ends the next one is taken in the session that it left. -/
theorem run_bind {first : Run α} {value : α} (ran : first session = .ok (value, after))
    (second : α → Run β) : (first >>= second) session = second value after := by
  change (first session >>= fun result => second result.1 result.2) = _
  rw [ran]
  rfl

/-- After a step that ends in a panic no other is taken. -/
theorem run_bind_error {first : Run α} {panic : Panic} (failed : first session = .error panic)
    (second : α → Run β) : (first >>= second) session = .error panic := by
  change (first session >>= fun result => second result.1 result.2) = _
  rw [failed]
  rfl

/-- To look at the session is to get it as it is. -/
theorem run_get (session : Session) : (get : Run Session) session = .ok (session, session) := rfl

/-- Two restoring steps in sequence restore the session. -/
theorem restoring_bind {first : Run α} {second : α → Run β} (restoring : Restoring first)
    (follows : ∀ value, Restoring (second value)) : Restoring (first >>= second) := by
  intro session
  obtain ⟨value, between, ran, restored⟩ := restoring session
  obtain ⟨result, after, ranOn, restoredOn⟩ := follows value between
  exact ⟨result, after, (run_bind ran second).trans ranOn, restored.trans restoredOn⟩

/-- A step on the scopes that ends. -/
theorem run_onScopes {step : Checker α} {outcome : Outcome α}
    (ran : step.run session.scopes = .ok outcome) :
    onScopes step session =
      .ok (outcome.value, { session with scopes := outcome.scopes }.raising outcome.reports) := by
  rw [onScopes, ran]

/-- A step on the scopes that ends in a fault. -/
theorem run_onScopes_error {checker : Checker α} {fault : Fault}
    (failed : checker.run session.scopes = .error fault) :
    onScopes checker session = .error (.fault fault) := by
  rw [onScopes, failed]

/-- Two steps on the scopes in sequence are one step on the scopes. -/
theorem onScopes_bind (checker : Checker α) (next : α → Checker β) :
    (onScopes checker >>= fun value => onScopes (next value)) = onScopes (checker >>= next) := by
  funext session
  cases ran : checker.run session.scopes with
  | error fault =>
    have both : (checker >>= next).run session.scopes = .error fault := by
      rw [Checker.run] at ran
      simp only [Checker.run, bind, ran]
    rw [run_onScopes_error both]
    change (onScopes checker session >>= fun result => onScopes (next result.1) result.2) = _
    rw [run_onScopes_error ran]
    rfl
  | ok outcome =>
    rw [run_bind (run_onScopes ran)]
    cases ranOn : (next outcome.value).run outcome.scopes with
    | error fault =>
      have both : (checker >>= next).run session.scopes = .error fault := by
        rw [Checker.run] at ran ranOn
        simp only [Checker.run, bind, ran, ranOn]
      rw [run_onScopes_error both]
      exact run_onScopes_error ranOn
    | ok behind =>
      rw [run_onScopes (Typing.run_bind_ok ran ranOn)]
      refine (run_onScopes ranOn).trans ?_
      rw [← raising_raising]
      rfl

/-- The declaration of a name ends, and only the innermost scope changes. -/
theorem run_declare (name : String) (position : Position) (symbol : Symbol) (scopes : Scopes) :
    ∃ outcome, (Checker.declare name position symbol).run scopes = .ok outcome ∧
      outcome.scopes.outer = scopes.outer := by
  by_cases earlier : (scopes.local? name).any Symbol.declared = true
  · refine ⟨⟨(), scopes, [⟨.duplicateDeclaration name, position⟩]⟩, ?_, rfl⟩
    simp [Checker.declare, Checker.run, bind, Checker.check, Checker.report, Checked.report,
      earlier]
  · refine ⟨⟨(), scopes.insert name symbol, []⟩, ?_, scopes.outer_insert name symbol⟩
    simp [Checker.declare, Checker.run, bind, Checker.check, Checker.change, earlier]

/-- So it restores the session. -/
theorem restoring_declare (name : String) (position : Position) (symbol : Symbol) :
    Restoring (onScopes (Checker.declare name position symbol)) := by
  intro session
  obtain ⟨outcome, ran, outer⟩ := run_declare name position symbol session.scopes
  exact ⟨_, _, run_onScopes ran, ⟨rfl, rfl, rfl, outer, List.prefix_append _ _⟩⟩

/-- Apart from its scopes a restored session differs in further diagnostics alone. -/
theorem Restored.eq_raising (restored : Restored session after) (scopes : Scopes) :
    ∃ reports, { after with scopes } = { session with scopes }.raising reports := by
  obtain ⟨registry, enclosing, loopDepth, -, more, reports⟩ := restored
  refine ⟨more, ?_⟩
  rw [Session.raising, registry, enclosing, loopDepth, reports]

/-- A restoring step in a scope of its own leaves nothing but further diagnostics. -/
theorem run_inScope {step : Run Unit} (restoring : Restoring step) (session : Session) :
    ∃ reports, inScope step session = .ok ((), session.raising reports) := by
  have opened : onScopes Checker.push session =
      .ok ((), { session with scopes := session.scopes.push }) :=
    congrArg (fun after => Except.ok ((), after)) (raising_nil _)
  obtain ⟨⟨⟩, after, ran, restored⟩ := restoring { session with scopes := session.scopes.push }
  have closes : after.scopes.pop = .ok session.scopes := Scopes.pop_of_outer restored.outer
  have closed : onScopes Checker.pop after = .ok ((), { after with scopes := session.scopes }) := by
    have popped : Checker.pop.run after.scopes = .ok ⟨(), session.scopes, []⟩ := by
      rw [Checker.run, Checker.pop, closes]
      rfl
    rw [run_onScopes popped, raising_nil]
  obtain ⟨reports, same⟩ := restored.eq_raising session.scopes
  refine ⟨reports, ?_⟩
  rw [inScope, run_bind opened, run_bind ran, closed]
  exact congrArg (fun last => Except.ok ((), last)) same

/-- So it does inside one loop more, which is entered before and left behind it. -/
theorem run_inLoop {step : Run Unit}
    (ends : ∀ session, ∃ reports, step session = .ok ((), session.raising reports))
    (session : Session) : ∃ reports, inLoop step session = .ok ((), session.raising reports) := by
  obtain ⟨reports, ran⟩ := ends { session with loopDepth := session.loopDepth + 1 }
  have entered : (modify fun session => { session with loopDepth := session.loopDepth + 1 } :
      Run Unit) session = .ok ((), { session with loopDepth := session.loopDepth + 1 }) := rfl
  exact ⟨reports, by rw [inLoop, run_bind entered, run_bind ran]; rfl⟩

/-- A step that leaves nothing but further diagnostics restores the session. -/
theorem restoring_of_raising {step : Run Unit}
    (ends : ∀ session, ∃ reports, step session = .ok ((), session.raising reports)) :
    Restoring step := by
  intro session
  obtain ⟨reports, ran⟩ := ends session
  exact ⟨(), _, ran, .raising session reports⟩

/-- A step for what is optional restores the session if it does so for everything. -/
theorem restoring_optionally {step : α → Run Unit} (restoring : ∀ value, Restoring (step value))
    (optional : Option α) : Restoring (optionally step optional) := by
  cases optional with
  | none => exact restoring_pure ()
  | some value => exact restoring value

/-- Checking an expression raises diagnostics at most. -/
theorem restoring_expr (value : Expr) : Restoring (expr value) := by
  rw [expr_eq_reading]
  exact restoring_reading _

/-- So does checking it for its effect. -/
theorem restoring_effect (value : Expr) : Restoring (effect value) :=
  restoring_bind (restoring_expr value) fun _ => restoring_pure ()

/-- So does checking a condition. -/
theorem restoring_condition (value : Expr) : Restoring (condition value) :=
  restoring_bind (restoring_expr value) fun _ => restoring_raise _

/-- The type of a variable is that which it has in the context of the session. -/
theorem varType_eq_reading (declared : VarDecl) (stated : Option Ty) :
    varType declared stated = reading fun context => Typing.varType context declared stated := by
  unfold varType Typing.varType
  cases declared.init with
  | none =>
    rw [Option.mapM_none, pure_bind]
    cases stated with
    | none => rfl
    | some expected => exact pure_eq_reading expected
  | some init =>
    simp only [Option.mapM_some, map_eq_pure_bind, bind_assoc, pure_bind, expr_eq_reading]
    cases stated with
    | none => simp only [pure_eq_reading, reading_bind, bind_pure]
    | some expected => simp only [raise_eq_reading, pure_eq_reading, reading_bind]

/-- A variable declaration changes only the innermost scope. -/
theorem restoring_varDecl (declared : VarDecl) : Restoring (varDecl declared) := by
  refine restoring_bind (restoring_reading _) fun stated => restoring_bind ?_ fun type =>
    restoring_declare _ _ _
  rw [varType_eq_reading]
  exact restoring_reading _

/-- What depends on the session only looks at it before it goes on. -/
theorem restoring_get {next : Session → Run α} (restoring : ∀ session, Restoring (next session)) :
    Restoring (get >>= next) :=
  fun session => restoring session session

/-- Comparing what is given back with the result raises diagnostics at most. -/
theorem restoring_givenBack (enclosing : Enclosing) (position : Position) (value : Option Expr) :
    Restoring (givenBack enclosing position value) := by
  cases value with
  | some value =>
    refine restoring_bind (restoring_expr value) fun actual => ?_
    split
    · exact restoring_raise _
    · exact restoring_raise _
  | none =>
    rw [givenBack]
    split
    · exact restoring_raise _
    · exact restoring_pure ()

/-- So does a `return`, inside a function or outside. -/
theorem restoring_returnValue (position : Position) (value : Option Expr) :
    Restoring (returnValue position value) := by
  refine restoring_get fun session => ?_
  cases session.enclosing with
  | none => exact restoring_pure ()
  | some enclosing => exact restoring_givenBack enclosing position value

/-- So does a jump, inside a loop or outside. -/
theorem restoring_jump (cause : Diagnostic.Cause) (position : Position) :
    Restoring (jump cause position) := by
  refine restoring_get fun session => ?_
  split
  · exact restoring_raise _
  · exact restoring_pure ()

mutual

/-- Checking a statement restores the session. -/
theorem restoring_stmt (statement : Stmt) : Restoring (stmt statement) := by
  cases statement with
  | block position body | comptime position body =>
    exact restoring_of_raising (run_inScope (restoring_stmts body))
  | returns position value => exact restoring_returnValue position value
  | branch position test body otherwise =>
    rw [stmt]
    refine restoring_bind (restoring_condition test) fun _ => restoring_bind ?_ fun _ =>
      restoring_optionalStmt otherwise
    exact restoring_of_raising (run_inScope (restoring_stmts body))
  | whileLoop position test body =>
    rw [stmt]
    refine restoring_bind (restoring_condition test) fun _ => ?_
    exact restoring_of_raising (run_inLoop (run_inScope (restoring_stmts body)))
  | forLoop position init test step body =>
    rw [stmt]
    refine restoring_of_raising (run_inScope ?_)
    refine restoring_bind (restoring_optionalStmt init) fun _ =>
      restoring_bind (restoring_optionally restoring_condition test) fun _ =>
        restoring_bind (restoring_optionally restoring_effect step) fun _ => ?_
    exact restoring_of_raising (run_inLoop (run_inScope (restoring_stmts body)))
  | breakLoop position | continueLoop position => exact restoring_jump _ position
  | expr position value => exact restoring_effect value
  | declare position declared => exact restoring_varDecl declared

/-- Checking several statements restores the session. -/
theorem restoring_stmts (statements : List Stmt) : Restoring (stmts statements) := by
  match statements with
  | [] => exact restoring_pure ()
  | first :: rest =>
    rw [stmts]
    exact restoring_bind (restoring_stmt first) fun _ => restoring_stmts rest

/-- Checking a statement that may be absent restores the session. -/
theorem restoring_optionalStmt (optional : Option Stmt) : Restoring (optionalStmt optional) := by
  match optional with
  | none => exact restoring_pure ()
  | some inner => exact restoring_stmt inner

end

/-- Reaching the declaration of a name ends, and only the innermost scope changes. -/
theorem run_reach (name : String) (position : Position) (scopes : Scopes) :
    ∃ outcome, (Checker.reach name position).run scopes = .ok outcome ∧
      outcome.scopes.outer = scopes.outer := by
  by_cases earlier : ((scopes.local? name).any fun symbol => !symbol.declared) = true
  · refine ⟨⟨(), scopes.markDeclared name, []⟩, ?_, ?_⟩
    · simp [Checker.reach, Checker.run, bind, Checker.check, Checker.change, earlier]
    · unfold Scopes.markDeclared
      split
      · exact scopes.outer_insert _ _
      · rfl
  · refine ⟨⟨(), scopes, [⟨.duplicateDeclaration name, position⟩]⟩, ?_, rfl⟩
    simp [Checker.reach, Checker.run, bind, Checker.check, Checker.report, Checked.report, earlier]

/-- So it restores the session. -/
theorem restoring_reach (name : String) (position : Position) :
    Restoring (onScopes (Checker.reach name position)) := by
  intro session
  obtain ⟨outcome, ran, outer⟩ := run_reach name position session.scopes
  exact ⟨_, _, run_onScopes ran, ⟨rfl, rfl, rfl, outer, List.prefix_append _ _⟩⟩

/-- The declaration of parameters restores the session. -/
theorem restoring_declareParams (params : List Param) (types : List Ty) :
    Restoring (onScopes (declareParams params types)) := by
  induction params generalizing types with
  | nil => exact fun session => ⟨_, _, run_onScopes rfl, .raising session []⟩
  | cons param params inductionHypothesis =>
    cases types with
    | nil => exact fun session => ⟨_, _, run_onScopes rfl, .raising session []⟩
    | cons type types =>
      rw [declareParams, ← onScopes_bind]
      exact restoring_bind (restoring_declare _ _ _) fun _ => inductionHypothesis types

/-- Inside a function a restoring step restores the session: what encloses the function is put back
behind it. -/
theorem restoring_inFunction (enclosing : Enclosing) {step : Run Unit}
    (restoring : Restoring step) : Restoring (inFunction enclosing step) := by
  intro session
  obtain ⟨⟨⟩, after, ran, restored⟩ :=
    restoring { session with enclosing := some enclosing, loopDepth := 0 }
  have setAside : inFunction enclosing step session =
      (step >>= fun _ => modify fun inner =>
        { inner with enclosing := session.enclosing, loopDepth := session.loopDepth } : Run Unit)
        { session with enclosing := some enclosing, loopDepth := 0 } := rfl
  refine ⟨(), { after with enclosing := session.enclosing, loopDepth := session.loopDepth }, ?_,
    ⟨restored.registry, rfl, rfl, restored.outer, restored.reports⟩⟩
  rw [setAside, run_bind ran]
  rfl

/-- Checking a function restores the session. -/
theorem restoring_fnDecl (declared : FnDecl) (signature : Signature) :
    Restoring (fnDecl declared signature) := by
  refine restoring_bind (restoring_reach _ _) fun _ => restoring_bind ?_ fun _ => ?_
  · refine restoring_of_raising (run_inScope ?_)
    exact restoring_bind (restoring_declareParams _ _) fun _ =>
      restoring_inFunction _ (restoring_stmts declared.body)
  · split
    · exact restoring_raise _
    · exact restoring_pure ()

end Session

end SystemsLang.Typing
