import SystemsLang.Typing.Program

/-!
# Steps inside a function are confined to the innermost scope

Whatever the statements of a function body are and whatever diagnostics they raise: checking them
does not end in a fault, leaves some scope of the body open, and changes neither the scopes further
out nor the global one. So a step that opens a scope for others and closes it behind them leaves the
scopes as they were.
-/

namespace SystemsLang.Typing

open Syntax Checker

/-- Nothing below the innermost scope has changed, and there still is an innermost scope. -/
structure Beside (scopes after : Scopes) : Prop where
  inside : after.opened ≠ []
  outer : after.opened.tail = scopes.opened.tail
  global : after.global = scopes.global

/-- A step that, if a scope is open, ends without a fault and changes nothing below that scope. -/
def Confined {α : Type} (step : Checker α) : Prop :=
  ∀ scopes : Scopes, scopes.opened ≠ [] →
    ∃ outcome, step.run scopes = .ok outcome ∧ Beside scopes outcome.scopes

variable {α β : Type} {scopes after : Scopes}

/-- Scopes that have not changed at all have not changed below the innermost one. -/
theorem Beside.refl (inside : scopes.opened ≠ []) : Beside scopes scopes :=
  ⟨inside, rfl, rfl⟩

/-- Of two changes of the innermost scope the second may begin where the first ends. -/
theorem Beside.trans {between : Scopes} (first : Beside scopes between)
    (second : Beside between after) : Beside scopes after :=
  ⟨second.inside, second.outer.trans first.outer, second.global.trans first.global⟩

/-- What is entered into the innermost scope changes nothing below it. -/
theorem Beside.insert (inside : scopes.opened ≠ []) (name : String) (symbol : Symbol) :
    Beside scopes (scopes.insert name symbol) := by
  obtain ⟨opened, global⟩ := scopes
  cases opened with
  | nil => exact absurd rfl inside
  | cons innermost outer => exact ⟨List.cons_ne_nil _ _, rfl, rfl⟩

/-- Closing a scope beside which nothing has changed since it was opened gives back the scopes in
which it was opened. -/
theorem Beside.pop {last : Scopes} (beside : Beside scopes.push last) : last.pop = .ok scopes := by
  obtain ⟨inside, outer, global⟩ := beside
  obtain ⟨opened, lastGlobal⟩ := last
  cases opened with
  | nil => exact absurd rfl inside
  | cons innermost rest =>
    obtain rfl : rest = scopes.opened := outer
    obtain rfl : lastGlobal = scopes.global := global
    rfl

/-- A result without a step is confined. -/
theorem confined_pure (value : α) : Confined (pure value) :=
  fun _ inside => ⟨_, rfl, .refl inside⟩

/-- A step that looks at the scopes is confined. -/
theorem confined_check (step : Scopes → Checked α) : Confined (check step) :=
  fun _ inside => ⟨_, rfl, .refl inside⟩

/-- Of two steps that end, the second takes over where the first left off. -/
theorem run_bind_ok {first : Checker α} {second : α → Checker β} {before : Outcome α}
    {behind : Outcome β} (ran : first.run scopes = .ok before)
    (ranOn : (second before.value).run before.scopes = .ok behind) :
    (first >>= second).run scopes =
      .ok { behind with reports := before.reports ++ behind.reports } := by
  rw [Checker.run] at ran ranOn
  simp only [Checker.run, bind, ran, ranOn]

/-- Two confined steps in sequence are confined. -/
theorem confined_bind {first : Checker α} {second : α → Checker β} (confined : Confined first)
    (follows : ∀ value, Confined (second value)) : Confined (first >>= second) := by
  intro scopes inside
  obtain ⟨before, ran, beside⟩ := confined scopes inside
  obtain ⟨behind, ranOn, besideOn⟩ := follows before.value before.scopes beside.inside
  exact ⟨_, run_bind_ok ran ranOn, beside.trans besideOn⟩

/-- Entering a symbol into the innermost scope is confined. -/
theorem confined_insert (name : String) (symbol : Symbol) :
    Confined (change fun scopes => scopes.insert name symbol) :=
  fun _ inside => ⟨_, rfl, .insert inside name symbol⟩

/-- A confined step in a scope of its own ends without a fault and leaves the scopes as they were,
also where no other scope is open. -/
theorem run_inScope {step : Checker Unit} (confined : Confined step) (scopes : Scopes) :
    ∃ reports, (inScope step).run scopes = .ok ⟨(), scopes, reports⟩ := by
  obtain ⟨outcome, ran, beside⟩ := confined scopes.push (List.cons_ne_nil _ _)
  rw [Checker.run] at ran
  refine ⟨outcome.reports, ?_⟩
  simp [Checker.run, inScope, push, pop, change, bind, ran, beside.pop, Except.map]

/-- A confined step in a scope of its own is confined. -/
theorem confined_inScope {step : Checker Unit} (confined : Confined step) :
    Confined (inScope step) := by
  intro scopes inside
  obtain ⟨reports, ran⟩ := run_inScope confined scopes
  exact ⟨_, ran, .refl inside⟩

/-- The declaration of a name is confined. -/
theorem confined_declare (name : String) (position : Position) (symbol : Symbol) :
    Confined (declare name position symbol) := by
  refine confined_bind (confined_check _) fun earlier => ?_
  split
  · exact confined_check _
  · exact confined_insert name symbol

/-- A step for what is optional is confined. -/
theorem confined_optionally {step : α → Checker Unit} (confined : ∀ value, Confined (step value))
    (optional : Option α) : Confined (optionally step optional) := by
  cases optional with
  | none => exact confined_pure ()
  | some value => exact confined value

/-- The check of a variable inside a function is confined. -/
theorem confined_localVar (surroundings : Surroundings) (declared : VarDecl) :
    Confined (localVar surroundings declared) :=
  confined_bind (confined_check _) fun _ =>
    confined_bind (confined_check _) fun _ => confined_declare _ _ _

/-- The check of what is given back is confined. -/
theorem confined_returnValue (surroundings : Surroundings) (position : Position)
    (value : Option Expr) : Confined (returnValue surroundings position value) := by
  unfold returnValue
  cases value with
  | some value => exact confined_check _
  | none =>
    dsimp only
    split
    · exact confined_check _
    · exact confined_pure ()

/-- The check of a `for` is confined inside its scope if those of its first part and its body
are. -/
theorem confined_header {surroundings : Surroundings} (test step : Option Expr)
    {init body : Checker Unit} (starts : Confined init) (loops : Confined body) :
    Confined (do
      init
      optionally (condition surroundings) test
      optionally (effect surroundings) step
      inScope body) := by
  refine confined_bind starts fun _ => confined_bind ?_ fun _ => confined_bind ?_ fun _ => ?_
  · exact confined_optionally (fun _ => confined_check _) test
  · exact confined_optionally (fun _ => confined_check _) step
  · exact confined_inScope loops

mutual

/-- The check of a statement is confined. -/
theorem confined_stmt (surroundings : Surroundings) (inLoop : Bool) (statement : Stmt) :
    Confined (stmt surroundings inLoop statement) := by
  cases statement with
  | block position body | comptime position body =>
    exact confined_inScope (confined_stmts surroundings inLoop body)
  | returns position value => exact confined_returnValue surroundings position value
  | branch position test body otherwise =>
    rw [stmt]
    exact confined_bind (confined_check _) fun _ =>
      confined_bind (confined_inScope (confined_stmts surroundings inLoop body)) fun _ =>
        confined_optionalStmt surroundings inLoop otherwise
  | whileLoop position test body =>
    rw [stmt]
    exact confined_bind (confined_check _) fun _ =>
      confined_inScope (confined_stmts surroundings true body)
  | forLoop position init test step body =>
    rw [stmt]
    exact confined_inScope (confined_header test step
      (confined_optionalStmt surroundings inLoop init) (confined_stmts surroundings true body))
  | breakLoop position | continueLoop position =>
    cases inLoop with
    | true => exact confined_pure ()
    | false => exact confined_check _
  | expr position value => exact confined_check _
  | declare position declared => exact confined_localVar surroundings declared

/-- The check of several statements is confined. -/
theorem confined_stmts (surroundings : Surroundings) (inLoop : Bool) (statements : List Stmt) :
    Confined (stmts surroundings inLoop statements) := by
  match statements with
  | [] => exact confined_pure ()
  | first :: rest =>
    rw [stmts]
    exact confined_bind (confined_stmt surroundings inLoop first) fun _ =>
      confined_stmts surroundings inLoop rest

/-- The check of a statement that may be absent is confined. -/
theorem confined_optionalStmt (surroundings : Surroundings) (inLoop : Bool)
    (optional : Option Stmt) : Confined (optionalStmt surroundings inLoop optional) := by
  match optional with
  | none => exact confined_pure ()
  | some inner => exact confined_stmt surroundings inLoop inner

end

/-- The declaration of parameters is confined. -/
theorem confined_declareParams (params : List Param) (types : List Ty) :
    Confined (declareParams params types) := by
  induction params generalizing types with
  | nil => exact confined_pure ()
  | cons param params inductionHypothesis =>
    cases types with
    | nil => exact confined_pure ()
    | cons type types =>
      exact confined_bind (confined_declare _ _ _) fun _ => inductionHypothesis types

end SystemsLang.Typing
