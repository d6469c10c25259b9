import SystemsLang.Proofs.Typing.Misnamed
import SystemsLang.Proofs.Typing.Passes

/-!
# Statements with misnamed identifiers

A statement runs on scopes and leaves scopes. If it passes where everything is known, then the
statement with the misnamed identifiers, begun in scopes of which less is known, ends in such scopes
again. What it raises is one diagnostic for each misnamed identifier, and what follows from pointers
to the unknown type. Steps put together from such steps have the property again.
-/

namespace SystemsLang.Typing

open Syntax Checker

/-- The second expression is the first with misnamed identifiers, or both are absent. -/
inductive MisnamedOption (new : String) (addressed : Bool) :
    List Position → Option Expr → Option Expr → Prop
  | none : MisnamedOption new addressed [] none none
  | some {hits : List Position} {value value' : Expr}
      (inner : MisnamedExpr new addressed hits value value') :
    MisnamedOption new addressed hits (some value) (some value')

/-- The second variable is the first with misnamed identifiers in its initializer, and its name is
not the new one. -/
structure MisnamedVar (new : String) (addressed : Bool) (hits : List Position)
    (declared declared' : VarDecl) : Prop where
  isConst : declared'.isConst = declared.isConst
  name : declared'.name.name = declared.name.name
  other : declared.name.name ≠ new
  type : declared'.type.map TypeExpr.unplaced = declared.type.map TypeExpr.unplaced
  init : MisnamedOption new addressed hits declared.init declared'.init

mutual

/-- The second statement is the first with misnamed identifiers, and declares nothing of the new
name. -/
inductive MisnamedStmt (new : String) (addressed : Bool) : List Position → Stmt → Stmt → Prop
  | block {position position' : Position} {body body' : List Stmt} {hits : List Position}
      (inner : MisnamedStmts new addressed hits body body') :
    MisnamedStmt new addressed hits (.block position body) (.block position' body')
  | returns {position position' : Position} {value value' : Option Expr} {hits : List Position}
      (given : MisnamedOption new addressed hits value value') :
    MisnamedStmt new addressed hits (.returns position value) (.returns position' value')
  | branch {position position' : Position} {test test' : Expr} {body body' : List Stmt}
      {otherwise otherwise' : Option Stmt} {hits more most : List Position}
      (tested : MisnamedExpr new addressed hits test test')
      (inner : MisnamedStmts new addressed more body body')
      (last : MisnamedOptionalStmt new addressed most otherwise otherwise') :
    MisnamedStmt new addressed (hits ++ (more ++ most)) (.branch position test body otherwise)
      (.branch position' test' body' otherwise')
  | whileLoop {position position' : Position} {test test' : Expr} {body body' : List Stmt}
      {hits more : List Position} (tested : MisnamedExpr new addressed hits test test')
      (inner : MisnamedStmts new addressed more body body') :
    MisnamedStmt new addressed (hits ++ more) (.whileLoop position test body)
      (.whileLoop position' test' body')
  | forLoop {position position' : Position} {init init' : Option Stmt}
      {test test' step step' : Option Expr} {body body' : List Stmt}
      {begun hits more most : List Position}
      (first : MisnamedOptionalStmt new addressed begun init init')
      (tested : MisnamedOption new addressed hits test test')
      (stepped : MisnamedOption new addressed more step step')
      (inner : MisnamedStmts new addressed most body body') :
    MisnamedStmt new addressed (begun ++ (hits ++ (more ++ most)))
      (.forLoop position init test step body) (.forLoop position' init' test' step' body')
  | breakLoop {position position' : Position} :
    MisnamedStmt new addressed [] (.breakLoop position) (.breakLoop position')
  | continueLoop {position position' : Position} :
    MisnamedStmt new addressed [] (.continueLoop position) (.continueLoop position')
  | expr {position position' : Position} {value value' : Expr} {hits : List Position}
      (inner : MisnamedExpr new addressed hits value value') :
    MisnamedStmt new addressed hits (.expr position value) (.expr position' value')
  | comptime {position position' : Position} {body body' : List Stmt} {hits : List Position}
      (inner : MisnamedStmts new addressed hits body body') :
    MisnamedStmt new addressed hits (.comptime position body) (.comptime position' body')
  | declare {position position' : Position} {declared declared' : VarDecl} {hits : List Position}
      (var : MisnamedVar new addressed hits declared declared') :
    MisnamedStmt new addressed hits (.declare position declared) (.declare position' declared')

/-- So are the second statements, one by one. -/
inductive MisnamedStmts (new : String) (addressed : Bool) :
    List Position → List Stmt → List Stmt → Prop
  | nil : MisnamedStmts new addressed [] [] []
  | cons {first first' : Stmt} {rest rest' : List Stmt} {hits more : List Position}
      (head : MisnamedStmt new addressed hits first first')
      (tail : MisnamedStmts new addressed more rest rest') :
    MisnamedStmts new addressed (hits ++ more) (first :: rest) (first' :: rest')

/-- So is the second statement, or both are absent. -/
inductive MisnamedOptionalStmt (new : String) (addressed : Bool) :
    List Position → Option Stmt → Option Stmt → Prop
  | none : MisnamedOptionalStmt new addressed [] none none
  | some {statement statement' : Stmt} {hits : List Position}
      (inner : MisnamedStmt new addressed hits statement statement') :
    MisnamedOptionalStmt new addressed hits (some statement) (some statement')

end

variable {new : String} {addressed : Bool} {scopes scopes' after : Scopes} {name : String}
  {symbol symbol' : Symbol} {position position' : Position} {hits more : List Position}

namespace ScopesFollow

/-- A new scope is opened in both. -/
theorem push (follow : ScopesFollow new addressed scopes scopes') :
    ScopesFollow new addressed scopes.push scopes'.push :=
  ⟨.cons .nil follow.opened, follow.global⟩

/-- If a scope can be closed, then so can that which follows it. -/
theorem pop (follow : ScopesFollow new addressed scopes scopes') (closed : scopes.pop = .ok after) :
    ∃ after', scopes'.pop = .ok after' ∧ ScopesFollow new addressed after after' := by
  obtain ⟨opened, global⟩ := scopes
  obtain ⟨opened', global'⟩ := scopes'
  obtain ⟨openedFollow, globalFollow⟩ := follow
  cases openedFollow with
  | nil => cases closed
  | cons head tail =>
    obtain rfl := Except.ok.inj closed
    exact ⟨_, rfl, tail, globalFollow⟩

/-- The innermost scopes hold the same for a name, or less is known of it. -/
theorem inner (follow : ScopesFollow new addressed scopes scopes') (name : String) :
    Option.Rel (SymbolFollows addressed) (scopes.local? name) (scopes'.local? name) := by
  obtain ⟨opened, global⟩ := scopes
  obtain ⟨opened', global'⟩ := scopes'
  obtain ⟨openedFollow, globalFollow⟩ := follow
  cases openedFollow with
  | nil => exact lookup_entries_follow globalFollow name
  | cons head tail => exact lookup_entries_follow head name

/-- A symbol is entered into both. -/
theorem insert (follow : ScopesFollow new addressed scopes scopes') (other : name ≠ new)
    (follows : SymbolFollows addressed symbol symbol') :
    ScopesFollow new addressed (scopes.insert name symbol) (scopes'.insert name symbol') := by
  obtain ⟨opened, global⟩ := scopes
  obtain ⟨opened', global'⟩ := scopes'
  obtain ⟨openedFollow, globalFollow⟩ := follow
  have entry : EntryFollows new addressed (name, symbol) (name, symbol') := ⟨rfl, other, follows⟩
  cases openedFollow with
  | nil => exact ⟨.nil, .cons entry globalFollow⟩
  | cons head tail => exact ⟨.cons (.cons entry head) tail, globalFollow⟩

end ScopesFollow

/-- Where the first step passes, the second ends without a fault in scopes of which the same or less
is known, and raises the diagnostics for the given positions and what follows from them. -/
def StepFollows (new : String) (addressed : Bool) (hits : List Position)
    (clean other : Checker Unit) : Prop :=
  ∀ scopes scopes' after, ScopesFollow new addressed scopes scopes' → Passes clean scopes after →
    ∃ after' reports, other.run scopes' = .ok ⟨(), after', reports⟩ ∧
      ScopesFollow new addressed after after' ∧ Cascade new addressed hits reports

/-- A step that does nothing follows. -/
theorem step_pure : StepFollows new addressed [] (pure ()) (pure ()) := by
  intro scopes scopes' after follow passes
  obtain rfl := passes_pure.mp passes
  exact ⟨scopes', [], rfl, follow, .nil⟩

/-- Two steps in sequence follow if both do. -/
theorem step_bind {clean other : Checker Unit} {next otherNext : Unit → Checker Unit}
    (begins : StepFollows new addressed hits clean other)
    (goesOn : ∀ value, StepFollows new addressed more (next value) (otherNext value)) :
    StepFollows new addressed (hits ++ more) (clean >>= next) (other >>= otherNext) := by
  intro scopes scopes' after follow passes
  obtain ⟨between, first, second⟩ := passes_bind.mp passes
  obtain ⟨between', reports, ran, followBetween, raised⟩ :=
    begins scopes scopes' between follow first
  obtain ⟨after', others, ranOn, followAfter, raisedOn⟩ :=
    goesOn () between between' after followBetween second
  rw [Checker.run] at ran ranOn
  refine ⟨after', reports ++ others, ?_, followAfter, raised.append raisedOn⟩
  simp only [Checker.run, bind, ran, ranOn]

/-- A step that looks at the scopes follows if what it checks does. -/
theorem step_check {clean other : Scopes → Checked Unit}
    (follows : ∀ scopes scopes', ScopesFollow new addressed scopes scopes' →
      FollowsUnit new addressed hits (clean scopes) (other scopes')) :
    StepFollows new addressed hits (check clean) (check other) := by
  intro scopes scopes' after follow passes
  obtain ⟨quiet, rfl⟩ := passes_check.mp passes
  exact ⟨scopes', (other scopes').reports, rfl, follow, (follows scopes scopes' follow quiet).1⟩

/-- What is found in the scopes may be handed on to the next step. -/
theorem step_check_bind {α α' : Type} {related : α → α' → Prop} {clean : Scopes → Checked α}
    {other : Scopes → Checked α'} {next : α → Checker Unit} {otherNext : α' → Checker Unit}
    (follows : ∀ scopes scopes', ScopesFollow new addressed scopes scopes' →
      Follows new addressed related hits (clean scopes) (other scopes'))
    (goesOn : ∀ value value', related value value' →
      StepFollows new addressed more (next value) (otherNext value')) :
    StepFollows new addressed (hits ++ more) (check clean >>= next)
      (check other >>= otherNext) := by
  intro scopes scopes' after follow passes
  obtain ⟨quiet, passesOn⟩ := passes_check_bind.mp passes
  obtain ⟨raised, holds⟩ := follows scopes scopes' follow quiet
  obtain ⟨after', others, ranOn, followAfter, raisedOn⟩ :=
    goesOn _ _ holds scopes scopes' after follow passesOn
  rw [Checker.run] at ranOn
  refine ⟨after', (other scopes').reports ++ others, ?_, followAfter, raised.append raisedOn⟩
  simp only [Checker.run, bind, check, ranOn]

/-- It may also be handed on to a step without misnamed identifiers. -/
theorem step_check_bind_last {α α' : Type} {related : α → α' → Prop} {clean : Scopes → Checked α}
    {other : Scopes → Checked α'} {next : α → Checker Unit} {otherNext : α' → Checker Unit}
    (follows : ∀ scopes scopes', ScopesFollow new addressed scopes scopes' →
      Follows new addressed related hits (clean scopes) (other scopes'))
    (goesOn : ∀ value value', related value value' →
      StepFollows new addressed [] (next value) (otherNext value')) :
    StepFollows new addressed hits (check clean >>= next) (check other >>= otherNext) := by
  have whole := step_check_bind follows goesOn
  rwa [List.append_nil] at whole

/-- A step that raises a diagnostic has nothing to be followed. -/
theorem step_report {other : Checker Unit} {cause : Diagnostic.Cause} :
    StepFollows new addressed hits (report cause position) other :=
  fun _ _ _ _ passes => absurd passes not_passes_report

/-- Closing a scope follows, and fails where no scope is open in both. -/
theorem step_pop : StepFollows new addressed [] pop pop := by
  intro scopes scopes' after follow passes
  have closed : scopes.pop = .ok after := by
    unfold Passes Checker.run pop at passes
    cases closed : scopes.pop with
    | error fault =>
      rw [closed] at passes
      cases passes
    | ok outer =>
      rw [closed] at passes
      exact congrArg Except.ok (congrArg Outcome.scopes (Except.ok.inj passes))
  obtain ⟨after', closed', followAfter⟩ := follow.pop closed
  refine ⟨after', [], ?_, followAfter, .nil⟩
  rw [Checker.run, pop, closed']
  rfl

/-- A step in a scope of its own follows if it does there. -/
theorem step_inScope {clean other : Checker Unit}
    (follows : StepFollows new addressed hits clean other) :
    StepFollows new addressed hits (inScope clean) (inScope other) := by
  have opens : StepFollows new addressed [] push push := by
    intro scopes scopes' after follow passes
    obtain rfl := passes_change.mp passes
    exact ⟨scopes'.push, [], rfl, follow.push, .nil⟩
  have closes : StepFollows new addressed (hits ++ []) (do clean; pop) (do other; pop) :=
    step_bind follows fun _ => step_pop
  rw [List.append_nil] at closes
  exact step_bind opens fun _ => closes

/-- A name that is declared where its type is known is declared where less is known of it. -/
theorem step_declare (other : name ≠ new) (follows : SymbolFollows addressed symbol symbol') :
    StepFollows new addressed [] (declare name position symbol)
      (declare name position' symbol') := by
  intro scopes scopes' after follow passes
  obtain ⟨fresh, rfl⟩ := passes_declare.mp passes
  have fresh' : (scopes'.local? name).any Symbol.declared = false := by
    have found := follow.inner name
    generalize scopes.local? name = earlier at found fresh
    generalize scopes'.local? name = earlier' at found ⊢
    cases found with
    | none => rfl
    | some same =>
      rw [Option.any_some, same.declared]
      exact fresh
  have passes' : Passes (declare name position' symbol') scopes' (scopes'.insert name symbol') :=
    passes_declare.mpr ⟨fresh', rfl⟩
  exact ⟨_, [], passes', follow.insert other follows, .nil⟩

/-- The declaration of a name that was entered ahead is reached in both. -/
theorem step_reach (other : name ≠ new) :
    StepFollows new addressed [] (reach name position) (reach name position') := by
  intro scopes scopes' after follow passes
  obtain ⟨symbol, entered, awaited, rfl⟩ := passes_reach.mp passes
  have found := follow.inner name
  rw [entered] at found
  generalize known : scopes'.local? name = earlier' at found
  cases found with
  | some same =>
    rename_i symbol'
    have passes' : Passes (reach name position') scopes'
        (scopes'.insert name { symbol' with declared := true }) :=
      passes_reach.mpr ⟨symbol', known, same.declared.trans awaited, rfl⟩
    exact ⟨_, [], passes', follow.insert other ⟨same.isConst, rfl, same.type⟩, .nil⟩

/-- Written types that are equal up to positions are resolved to the same type. -/
theorem follows_mapM_resolve {registry : Registry} {written written' : Option TypeExpr}
    (same : written'.map TypeExpr.unplaced = written.map TypeExpr.unplaced) :
    Follows new addressed Eq [] (written.mapM registry.resolve)
      (written'.mapM registry.resolve) := by
  cases written with
  | none =>
    cases written' with
    | none => exact follows_pure rfl
    | some => cases same
  | some type =>
    cases written' with
    | none => cases same
    | some type' =>
      rw [Option.mapM_some, Option.mapM_some, map_eq_pure_bind, map_eq_pure_bind]
      refine follows_bind_last (follows_resolve (Option.some.inj same)) fun _ _ equal => ?_
      exact follows_pure (congrArg some equal)

/-- A variable has the stated type, or that of its value, about which less may be known. -/
theorem follows_varType {context context' : Context} {declared declared' : VarDecl}
    {stated : Option Ty} (follow : ContextFollows new addressed context context')
    (var : MisnamedVar new addressed hits declared declared') :
    Follows new addressed (Blurred addressed) hits (varType context declared stated)
      (varType context' declared' stated) := by
  obtain ⟨isPub, isConst, name, type, init, position⟩ := declared
  obtain ⟨isPub', isConst', name', type', init', position'⟩ := declared'
  cases var.init with
  | none =>
    cases stated with
    | none => exact follows_unknownAfter
    | some expected => exact follows_pure (.same expected)
  | some inner =>
    cases stated with
    | none => exact follows_exprType follow inner
    | some expected =>
      refine follows_bind_last (follows_exprType follow inner) fun actual actual' blurred => ?_
      exact follows_bind_last (follows_expectCoercible (.same expected) blurred) fun _ _ _ =>
        follows_pure (.same expected)

variable {surroundings : Surroundings}

/-- The same function encloses the expressions in both. -/
theorem ScopesFollow.context (follow : ScopesFollow new addressed scopes scopes')
    (surroundings : Surroundings) :
    ContextFollows new addressed (surroundings.context scopes) (surroundings.context scopes') :=
  ⟨rfl, follow, rfl⟩

/-- A local variable is declared under its name, which stays. -/
theorem step_localVar {declared declared' : VarDecl}
    (var : MisnamedVar new addressed hits declared declared') :
    StepFollows new addressed hits (localVar surroundings declared)
      (localVar surroundings declared') := by
  refine step_check_bind (fun _ _ _ => follows_mapM_resolve var.type) fun stated _ equal => ?_
  obtain rfl := equal
  refine step_check_bind_last (fun _ _ follow => follows_varType (follow.context surroundings) var)
    fun type type' blurred => ?_
  rw [var.name]
  exact step_declare var.other ⟨var.isConst, rfl, blurred⟩

/-- A condition about which less is known is none that must be reported. -/
theorem follows_conditionFits {type type' : Ty} (blurred : Blurred addressed type type') :
    FollowsUnit new addressed [] (conditionFits position type) (conditionFits position' type') :=
  follows_reportUnless fun boolean => .inl (blurred.mayBeBool boolean)

/-- A condition raises what its expression raises. -/
theorem step_condition {test test' : Expr} (tested : MisnamedExpr new addressed hits test test') :
    StepFollows new addressed hits (condition surroundings test) (condition surroundings test') :=
  step_check fun _ _ follow =>
    follows_bind_last (follows_exprType (follow.context surroundings) tested) fun _ _ blurred =>
      follows_conditionFits blurred

/-- An expression that is checked for its effect raises what it raises. -/
theorem step_effect {value value' : Expr}
    (misnamed : MisnamedExpr new addressed hits value value') :
    StepFollows new addressed hits (effect surroundings value) (effect surroundings value') :=
  step_check fun _ _ follow =>
    follows_ignore (follows_exprType (follow.context surroundings) misnamed)

/-- A step for what is optional follows if the step does. -/
theorem step_optionally {step : Expr → Checker Unit} {optional optional' : Option Expr}
    (given : MisnamedOption new addressed hits optional optional')
    (follows : ∀ value value', MisnamedExpr new addressed hits value value' →
      StepFollows new addressed hits (step value) (step value')) :
    StepFollows new addressed hits (optionally step optional) (optionally step optional') := by
  cases given with
  | none => exact step_pure
  | some inner => exact follows _ _ inner

/-- What is given back raises what its expression raises, or blames a pointer to the unknown type.
-/
theorem step_returnValue {value value' : Option Expr}
    (given : MisnamedOption new addressed hits value value') :
    StepFollows new addressed hits (returnValue surroundings position value)
      (returnValue surroundings position' value') := by
  cases given with
  | none =>
    unfold returnValue
    dsimp only
    split
    · exact step_report
    · exact step_pure
  | some inner =>
    refine step_check fun _ _ follow =>
      follows_bind_last (follows_exprType (follow.context surroundings) inner) fun _ _ blurred => ?_
    split
    · exact follows_of_reports (List.cons_ne_nil _ _)
    · exact follows_expectCoercible (.same _) blurred

mutual

/-- A statement with misnamed identifiers is checked like the statement. -/
theorem step_stmt {inLoop : Bool} {statement statement' : Stmt} {hits : List Position}
    (misnamed : MisnamedStmt new addressed hits statement statement') :
    StepFollows new addressed hits (stmt surroundings inLoop statement)
      (stmt surroundings inLoop statement') := by
  cases statement with
  | block =>
    cases misnamed with
    | block inner => exact step_inScope (step_stmts inner)
  | comptime =>
    cases misnamed with
    | comptime inner => exact step_inScope (step_stmts inner)
  | returns =>
    cases misnamed with
    | returns given => exact step_returnValue given
  | branch =>
    cases misnamed with
    | branch tested inner last =>
      rw [stmt, stmt]
      exact step_bind (step_condition tested) fun _ =>
        step_bind (step_inScope (step_stmts inner)) fun _ => step_optionalStmt last
  | whileLoop =>
    cases misnamed with
    | whileLoop tested inner =>
      rw [stmt, stmt]
      exact step_bind (step_condition tested) fun _ => step_inScope (step_stmts inner)
  | forLoop =>
    cases misnamed with
    | forLoop first tested stepped inner =>
      rw [stmt, stmt]
      refine step_inScope (step_bind (step_optionalStmt first) fun _ => ?_)
      refine step_bind (step_optionally tested fun _ _ => step_condition) fun _ => ?_
      exact step_bind (step_optionally stepped fun _ _ => step_effect) fun _ =>
        step_inScope (step_stmts inner)
  | breakLoop =>
    cases misnamed
    cases inLoop with
    | true => exact step_pure
    | false => exact step_report
  | continueLoop =>
    cases misnamed
    cases inLoop with
    | true => exact step_pure
    | false => exact step_report
  | expr =>
    cases misnamed with
    | expr inner => exact step_effect inner
  | declare =>
    cases misnamed with
    | declare var => exact step_localVar var

/-- So are several statements. -/
theorem step_stmts {inLoop : Bool} {statements statements' : List Stmt} {hits : List Position}
    (misnamed : MisnamedStmts new addressed hits statements statements') :
    StepFollows new addressed hits (stmts surroundings inLoop statements)
      (stmts surroundings inLoop statements') := by
  match statements with
  | [] =>
    cases misnamed
    exact step_pure
  | first :: rest =>
    cases misnamed with
    | cons head tail =>
      rw [stmts, stmts]
      exact step_bind (step_stmt head) fun _ => step_stmts tail

/-- And a statement that may be absent. -/
theorem step_optionalStmt {inLoop : Bool} {optional optional' : Option Stmt}
    {hits : List Position} (misnamed : MisnamedOptionalStmt new addressed hits optional optional') :
    StepFollows new addressed hits (optionalStmt surroundings inLoop optional)
      (optionalStmt surroundings inLoop optional') := by
  match optional with
  | none =>
    cases misnamed
    exact step_pure
  | some statement =>
    cases misnamed with
    | some inner => exact step_stmt inner

end

mutual

/-- Whether a statement surely returns does not depend on the names of identifiers. -/
theorem returns_misnamed {statement statement' : Stmt} {hits : List Position}
    (misnamed : MisnamedStmt new addressed hits statement statement') :
    returns statement' = returns statement := by
  cases statement with
  | block =>
    cases misnamed with
    | block inner => exact anyReturns_misnamed inner
  | comptime =>
    cases misnamed with
    | comptime inner => exact anyReturns_misnamed inner
  | branch _ _ _ otherwise =>
    cases misnamed with
    | branch tested inner last =>
      cases otherwise with
      | none =>
        cases last
        rfl
      | some =>
        cases last with
        | some last => rw [returns, returns, anyReturns_misnamed inner, returns_misnamed last]
  | _ =>
    cases misnamed
    rfl

/-- Nor does it for several statements. -/
theorem anyReturns_misnamed {statements statements' : List Stmt} {hits : List Position}
    (misnamed : MisnamedStmts new addressed hits statements statements') :
    anyReturns statements' = anyReturns statements := by
  match statements with
  | [] =>
    cases misnamed
    rfl
  | first :: rest =>
    cases misnamed with
    | cons head tail =>
      rw [anyReturns, anyReturns, returns_misnamed head, anyReturns_misnamed tail]

end

end SystemsLang.Typing
