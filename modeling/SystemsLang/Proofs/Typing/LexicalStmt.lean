import Mathlib.Data.List.Forall2
import SystemsLang.Proofs.Typing.Confined
import SystemsLang.Proofs.Typing.LexicalExpr

/-!
# Lexical diagnostics of statements

The scopes that the checker changes in place hold what the layers of a site list: the same names,
each bound as its first declaration says, since a further one is reported and not entered (`Shows`).
A statement that is checked in such scopes leaves scopes that hold its own declarations besides, and
its lexical diagnostics are those of its sites, in order (`tells_stmt`). Nothing else of the scopes
and nothing of the registry has a part in this.
-/

namespace SystemsLang.Syntax.Site

open Typing

/-- The lexical diagnostics of a site. -/
def faults (globals : Layer) (site : Site) : List Diagnostic :=
  site.uses.filterMap (faultOf? (site.bound globals)) ++ site.redeclared?.toList ++
    site.strayJump?.toList

end SystemsLang.Syntax.Site

namespace SystemsLang.Typing

open Syntax Checker

variable {α β : Type} {globals innermost : Layer} {layers between after : List Layer}
  {scopes : Scopes} {told more : List Diagnostic} {name : String} {position : Position}
  {symbol : Symbol}

/-- A scope binds the names of a layer as the layer does, and no others. -/
def Binds (scope : Scope) (layer : Layer) : Prop :=
  ∀ name, (scope.lookup name).map Symbol.isConst = layer.lookup name

/-- A scope of a function binds the names of a layer, and all of them are declared. -/
structure Holds (scope : Scope) (layer : Layer) : Prop where
  binds : Binds scope layer
  declared : ∀ name, ∀ symbol ∈ scope.lookup name, symbol.declared = true

/-- The open scopes hold the names of some layers, and the global one binds those of a further
layer. -/
structure Shows (globals : Layer) (layers : List Layer) (scopes : Scopes) : Prop where
  opened : List.Forall₂ Holds scopes.opened layers
  global : Binds scopes.global globals

/-- A name that is put in front of a scope, where the layer does not have it yet, is found there as
it is behind the layer. -/
theorem Binds.cons {scope : Scope} {layer : Layer} (binds : Binds scope layer)
    (fresh : layer.lookup name = none) :
    Binds ((name, symbol) :: scope) (layer ++ [(name, symbol.isConst)]) := by
  intro other
  rw [List.lookup_append, ← binds other]
  by_cases same : other = name
  · subst same
    have absent : scope.lookup other = none := by
      rw [← Option.map_eq_none_iff, binds other, fresh]
    simp [absent]
  · have differs : (other == name) = false := beq_false_of_ne same
    simp [List.lookup_cons, differs]

/-- A name that the layer has is found as before if it is put behind it once more. -/
theorem Binds.again {scope : Scope} {layer : Layer} (binds : Binds scope layer)
    (found : (layer.lookup name).isSome = true) (isConst : Bool) :
    Binds scope (layer ++ [(name, isConst)]) := by
  intro other
  rw [List.lookup_append, binds other]
  by_cases same : other = name
  · subst same
    rw [Option.or_of_isSome found]
  · have differs : (other == name) = false := beq_false_of_ne same
    simp [List.lookup_cons, differs]

namespace Shows

/-- A name stands for what the layers bind it to. -/
theorem bound (shows : Shows globals layers scopes) :
    (fun name => (scopes.lookup? name).map Symbol.isConst) = boundIn (layers ++ [globals]) := by
  funext name
  obtain ⟨opened, global⟩ := scopes
  obtain ⟨holds, binds⟩ := shows
  unfold Scopes.lookup? boundIn
  dsimp only at holds binds ⊢
  induction holds with
  | nil =>
    rw [List.nil_append, List.nil_append, List.findSome?_singleton, List.findSome?_singleton]
    exact binds name
  | cons head tail inductionHypothesis =>
    rw [List.cons_append, List.cons_append, List.findSome?_cons, List.findSome?_cons,
      ← head.binds name]
    cases found : List.lookup name _ with
    | none => exact inductionHypothesis
    | some symbol => rfl

/-- A new scope has a layer without names. -/
theorem push (shows : Shows globals layers scopes) : Shows globals ([] :: layers) scopes.push where
  opened := .cons ⟨fun _ => rfl, fun _ _ found => nomatch found⟩ shows.opened
  global := shows.global

/-- The innermost scope can be closed, and with it its layer is gone. -/
theorem pop (shows : Shows globals (innermost :: layers) scopes) :
    ∃ outer, scopes.pop = .ok outer ∧ Shows globals layers outer := by
  obtain ⟨opened, global⟩ := scopes
  obtain ⟨holds, binds⟩ := shows
  cases holds with
  | cons head tail => exact ⟨_, rfl, tail, binds⟩

/-- A name is declared in the innermost scope if its layer has it. -/
theorem any_local? (shows : Shows globals (innermost :: layers) scopes) (name : String) :
    (scopes.local? name).any Symbol.declared = (innermost.lookup name).isSome := by
  obtain ⟨opened, global⟩ := scopes
  obtain ⟨holds, binds⟩ := shows
  cases holds with
  | cons head tail =>
    rw [← head.binds name, Option.isSome_map]
    unfold Scopes.local?
    dsimp only
    cases found : List.lookup name _ with
    | none => rfl
    | some symbol => exact head.declared name symbol found

/-- A name that is not declared yet goes behind the others. -/
theorem insert (shows : Shows globals (innermost :: layers) scopes)
    (fresh : innermost.lookup name = none) (declared : symbol.declared = true) :
    Shows globals ((innermost ++ [(name, symbol.isConst)]) :: layers)
      (scopes.insert name symbol) := by
  obtain ⟨opened, global⟩ := scopes
  obtain ⟨holds, binds⟩ := shows
  cases holds with
  | cons head tail =>
    refine ⟨.cons ⟨head.binds.cons fresh, fun other found isFound => ?_⟩ tail, binds⟩
    rw [List.lookup_cons] at isFound
    split at isFound
    · exact Option.some.inj isFound ▸ declared
    · exact head.declared other found isFound

/-- A name that is declared already may as well be behind the others once more. -/
theorem again (shows : Shows globals (innermost :: layers) scopes)
    (found : (innermost.lookup name).isSome = true) (isConst : Bool) :
    Shows globals ((innermost ++ [(name, isConst)]) :: layers) scopes := by
  obtain ⟨opened, global⟩ := scopes
  obtain ⟨holds, binds⟩ := shows
  cases holds with
  | cons head tail => exact ⟨.cons ⟨head.binds.again found isConst, head.declared⟩ tail, binds⟩

end Shows

/-- A step that is taken in scopes with some layers ends in scopes with others, and raises the
lexical diagnostics that are given. -/
def Tells (globals : Layer) (layers after : List Layer) (step : Checker Unit)
    (told : List Diagnostic) : Prop :=
  ∀ scopes, Shows globals layers scopes →
    ∃ outcome, step.run scopes = .ok outcome ∧ Shows globals after outcome.scopes ∧
      lexical outcome.reports = told

/-- A step that does nothing tells nothing. -/
theorem tells_pure : Tells globals layers layers (pure ()) [] :=
  fun _ shows => ⟨_, rfl, shows, rfl⟩

/-- Of two steps in sequence the second is taken where the first ends. -/
theorem Tells.bind {first : Checker Unit} {second : Unit → Checker Unit}
    (begins : Tells globals layers between first told)
    (goesOn : Tells globals between after (second ()) more) :
    Tells globals layers after (first >>= second) (told ++ more) := by
  intro scopes shows
  obtain ⟨before, ran, showsBetween, raised⟩ := begins scopes shows
  obtain ⟨behind, ranOn, showsAfter, raisedOn⟩ := goesOn before.scopes showsBetween
  exact ⟨_, run_bind_ok ran ranOn, showsAfter, by rw [lexical_append, raised, raisedOn]⟩

/-- A step that looks at the scopes leaves them as they are. -/
theorem tells_check {step : Scopes → Checked Unit}
    (raises : ∀ scopes, Shows globals layers scopes → lexical (step scopes).reports = told) :
    Tells globals layers layers (check step) told :=
  fun scopes shows => ⟨_, rfl, shows, raises scopes shows⟩

/-- What it finds there is handed on. -/
theorem tells_check_bind {step : Scopes → Checked α} {next : α → Checker Unit}
    (raises : ∀ scopes, Shows globals layers scopes → lexical (step scopes).reports = told)
    (goesOn : ∀ value, Tells globals layers after (next value) more) :
    Tells globals layers after (check step >>= next) (told ++ more) := by
  intro scopes shows
  obtain ⟨behind, ranOn, showsAfter, raisedOn⟩ := goesOn (step scopes).value scopes shows
  have ran : (check step).run scopes = .ok ⟨(step scopes).value, scopes, (step scopes).reports⟩ :=
    rfl
  exact ⟨_, run_bind_ok ran ranOn, showsAfter,
    by rw [lexical_append, raises scopes shows, raisedOn]⟩

/-- A report is told if its cause is lexical. -/
theorem tells_report (cause : Diagnostic.Cause) (position : Position) :
    Tells globals layers layers (report cause position)
      (if cause.isLexical then [⟨cause, position⟩] else []) :=
  tells_check fun _ _ => lexical_report cause position

/-- A step in a scope of its own leaves the layers as they are. -/
theorem Tells.inScope {step : Checker Unit}
    (tells : Tells globals ([] :: layers) (innermost :: layers) step told) :
    Tells globals layers layers (inScope step) told := by
  intro scopes shows
  obtain ⟨outcome, ran, showsLast, raised⟩ := tells scopes.push shows.push
  obtain ⟨outer, popped, showsOuter⟩ := showsLast.pop
  have opens : push.run scopes = .ok ⟨(), scopes.push, []⟩ := rfl
  have closes : pop.run outcome.scopes = .ok ⟨(), outer, []⟩ := by
    rw [Checker.run, Checker.pop, popped]
    rfl
  refine ⟨_, run_bind_ok opens (run_bind_ok ran closes), showsOuter, ?_⟩
  rw [List.nil_append, List.append_nil, raised]

/-- The declaration of a name puts it behind the others of the innermost scope, and is reported if
it was there before. -/
theorem tells_declare (declared : symbol.declared = true) :
    Tells globals (innermost :: layers) ((innermost ++ [(name, symbol.isConst)]) :: layers)
      (declare name position symbol)
      (if (innermost.lookup name).isSome then [⟨.duplicateDeclaration name, position⟩]
        else []) := by
  intro scopes shows
  have earlier := shows.any_local? name
  cases found : innermost.lookup name with
  | none =>
    rw [found] at earlier
    refine ⟨⟨(), scopes.insert name symbol, []⟩, ?_, shows.insert found declared, rfl⟩
    simp [declare, Checker.run, bind, check, change, earlier]
  | some isConst =>
    rw [found] at earlier
    refine ⟨⟨(), scopes, [⟨.duplicateDeclaration name, position⟩]⟩, ?_,
      shows.again (by rw [found]; rfl) symbol.isConst, rfl⟩
    simp [declare, Checker.run, bind, check, report, Checked.report, earlier]

/-- A step for what is optional. -/
theorem tells_optionally {step : α → Checker Unit} {told : α → List Diagnostic}
    (tells : ∀ value, Tells globals layers layers (step value) (told value)) (optional : Option α) :
    Tells globals layers layers (optionally step optional) (optional.toList.flatMap told) := by
  cases optional with
  | none => exact tells_pure
  | some value => simpa [optionally] using tells value

section

variable (surroundings : Surroundings) (loops : Nat)

/-- The faults of an expression are those of the names that it uses. -/
theorem faults_valueAt (value : Expr) :
    (valueAt layers loops value).faults globals =
      value.uses.filterMap (faultOf? (boundIn (layers ++ [globals]))) := by
  simp [valueAt, Site.faults, Site.uses, Site.bound, Site.redeclared?, Site.strayJump?]

/-- A declaration is at fault if its scope has the name already. -/
theorem faults_declared (name : Ident) :
    (Site.mk (innermost :: layers) loops (.declared name)).faults globals =
      if (innermost.lookup name.name).isSome then [duplicateAt name] else [] := by
  cases found : innermost.lookup name.name <;>
    simp [Site.faults, Site.uses, Site.redeclared?, Site.strayJump?, found]

/-- The lexical diagnostics of an expression are those of its site. -/
theorem lexical_value (shows : Shows globals layers scopes) (registry : Registry)
    (enclosing : Option Enclosing) (value : Expr) :
    lexical (exprType ⟨registry, scopes, enclosing⟩ value).reports =
      (valueAt layers loops value).faults globals := by
  rw [faults_valueAt, ← shows.bound]
  exact lexical_exprType _ value

/-- A condition tells the faults of its expression. -/
theorem tells_condition (value : Expr) :
    Tells globals layers layers (condition surroundings value)
      ((valueAt layers loops value).faults globals) := by
  refine tells_check fun scopes shows => ?_
  rw [Checked.reports_bind, lexical_append, Surroundings.context, lexical_value loops shows]
  simp [conditionFits]

/-- An expression that is checked for its effect tells its faults. -/
theorem tells_effect (value : Expr) :
    Tells globals layers layers (effect surroundings value)
      ((valueAt layers loops value).faults globals) :=
  tells_check fun _ shows => lexical_value loops shows _ _ value

/-- A `return` tells the faults of its value, if it has one. -/
theorem tells_returnValue (value : Option Expr) :
    Tells globals layers layers (returnValue surroundings position value)
      (value.toList.flatMap fun value => (valueAt layers loops value).faults globals) := by
  cases value with
  | none =>
    rw [returnValue]
    split
    · exact tells_report _ position
    · exact tells_pure
  | some value =>
    refine tells_check fun scopes shows => ?_
    rw [Checked.reports_bind, lexical_append, Surroundings.context, lexical_value loops shows]
    split <;> simp [lexical_expectCoercible]

/-- Resolving a type that may be left out raises nothing lexical. -/
theorem lexical_mapM_resolve (registry : Registry) (written : Option TypeExpr) :
    lexical (written.mapM registry.resolve).reports = [] := by
  cases written with
  | none => rfl
  | some type => simpa using lexical_resolve registry type

/-- The type of a variable tells of its initializer. -/
theorem lexical_varType (shows : Shows globals layers scopes) (registry : Registry)
    (enclosing : Option Enclosing) (declared : VarDecl) (stated : Option Ty) :
    lexical (varType ⟨registry, scopes, enclosing⟩ declared stated).reports =
      declared.init.toList.flatMap fun value => (valueAt layers loops value).faults globals := by
  unfold varType
  split <;> rename_i given <;> rw [given] <;>
    simp [lexical_value loops shows, lexical_expectCoercible]

/-- A local variable tells the faults of its value and then that of its name, and is bound behind
both. -/
theorem tells_localVar (declared : VarDecl) :
    Tells globals (innermost :: layers)
      ((innermost ++ [(declared.name.name, declared.isConst)]) :: layers)
      (localVar surroundings declared)
      ((declared.init.toList.map (valueAt (innermost :: layers) loops) ++
        [Site.mk (innermost :: layers) loops (.declared declared.name)]).flatMap
          (Site.faults globals)) := by
  have declares (type : Ty) :
      Tells globals (innermost :: layers)
        ((innermost ++ [(declared.name.name, declared.isConst)]) :: layers)
        (declare declared.name.name declared.name.position (varSymbol declared type))
        (Site.faults globals ⟨innermost :: layers, loops, .declared declared.name⟩) := by
    rw [faults_declared]
    exact tells_declare rfl
  rw [List.flatMap_append, List.flatMap_map, List.flatMap_singleton]
  -- The annotation comes first, and tells of nothing.
  change Tells globals _ _ _ ([] ++ (_ ++ _))
  exact tells_check_bind (fun _ _ => lexical_mapM_resolve _ _) fun stated =>
    tells_check_bind (fun _ shows => lexical_varType loops shows _ _ declared stated) declares

end

/-- A jump is told of if it stands in no loop. -/
theorem tells_jump (cause : Diagnostic.Cause) (told : cause.isLexical = true) (loops : Nat) :
    Tells globals layers layers (if (loops != 0) = true then pure () else report cause position)
      (if loops = 0 then [⟨cause, position⟩] else []) := by
  by_cases outside : loops = 0
  · subst outside
    have reported : Tells globals layers layers (report cause position) _ :=
      tells_report cause position
    rwa [told] at reported
  · simpa [outside] using tells_pure

/-- A `break` shows that it stands in no loop. -/
theorem faults_breaks (loops : Nat) :
    (Site.mk layers loops (.breaks position)).faults globals =
      if loops = 0 then [⟨.breakOutsideLoop, position⟩] else [] := by
  cases loops <;> rfl

/-- So does a `continue`. -/
theorem faults_continues (loops : Nat) :
    (Site.mk layers loops (.continues position)).faults globals =
      if loops = 0 then [⟨.continueOutsideLoop, position⟩] else [] := by
  cases loops <;> rfl

mutual

/-- The lexical diagnostics of a statement are those of its sites. -/
theorem tells_stmt (surroundings : Surroundings) (globals innermost : Layer) (outer : List Layer)
    (loops : Nat) (statement : Stmt) :
    Tells globals (innermost :: outer) ((innermost ++ statement.declares) :: outer)
      (stmt surroundings (loops != 0) statement)
      ((statement.sites (innermost :: outer) loops).flatMap (Site.faults globals)) := by
  -- A statement declares at most in the innermost layer. What it declares further inside is gone
  -- with the scope that it is in.
  cases statement with
  | block position body | comptime position body =>
    rw [Stmt.declares, List.append_nil, stmt, Stmt.sites]
    · exact (tells_stmts surroundings globals [] (innermost :: outer) loops body).inScope
    all_goals simp
  | returns position value =>
    rw [Stmt.declares, List.append_nil, stmt, Stmt.sites, List.flatMap_map]
    · exact tells_returnValue surroundings loops value
    all_goals simp
  | branch position test body otherwise =>
    have declares : (Stmt.branch position test body otherwise).declares =
        otherwise.elim [] Stmt.declares := by
      cases otherwise <;> rfl
    rw [declares, stmt, Stmt.sites, List.cons_append, List.flatMap_cons, List.flatMap_append]
    exact (tells_condition surroundings loops test).bind
      ((tells_stmts surroundings globals [] (innermost :: outer) loops body).inScope.bind
        (tells_optionalStmt surroundings globals innermost outer loops otherwise))
  | whileLoop position test body =>
    rw [Stmt.declares, List.append_nil, stmt, Stmt.sites, List.flatMap_cons]
    · exact (tells_condition surroundings loops test).bind
        (tells_stmts surroundings globals [] (innermost :: outer) (loops + 1) body).inScope
    all_goals simp
  | forLoop position init test step body =>
    rw [Stmt.declares, List.append_nil, stmt, Stmt.sites]
    · rw [List.flatMap_append, List.flatMap_append, List.map_append, List.flatMap_append,
        List.flatMap_map, List.flatMap_map, List.append_assoc, List.append_assoc]
      exact ((tells_optionalStmt surroundings globals [] (innermost :: outer) loops init).bind
        ((tells_optionally (tells_condition surroundings loops) test).bind
          ((tells_optionally (tells_effect surroundings loops) step).bind
            (tells_stmts surroundings globals [] _ (loops + 1) body).inScope))).inScope
    all_goals simp
  | breakLoop position =>
    rw [Stmt.declares, List.append_nil, stmt, Stmt.sites, List.flatMap_singleton, faults_breaks]
    · exact tells_jump .breakOutsideLoop rfl loops
    all_goals simp
  | continueLoop position =>
    rw [Stmt.declares, List.append_nil, stmt, Stmt.sites, List.flatMap_singleton,
      faults_continues]
    · exact tells_jump .continueOutsideLoop rfl loops
    all_goals simp
  | expr position value =>
    rw [Stmt.declares, List.append_nil, stmt, Stmt.sites, List.flatMap_singleton]
    · exact tells_effect surroundings loops value
    all_goals simp
  | declare position declared =>
    rw [Stmt.declares, stmt, Stmt.sites]
    exact tells_localVar surroundings loops declared

/-- Those of several statements are the same of all of them. -/
theorem tells_stmts (surroundings : Surroundings) (globals innermost : Layer) (outer : List Layer)
    (loops : Nat) (statements : List Stmt) :
    Tells globals (innermost :: outer) ((innermost ++ statements.flatMap Stmt.declares) :: outer)
      (stmts surroundings (loops != 0) statements)
      ((Stmt.sitesOfAll (innermost :: outer) loops statements).flatMap (Site.faults globals)) := by
  match statements with
  | [] =>
    rw [List.flatMap_nil, List.append_nil]
    exact tells_pure
  | first :: rest =>
    rw [List.flatMap_cons, ← List.append_assoc, stmts, Stmt.sitesOfAll, List.flatMap_append]
    exact (tells_stmt surroundings globals innermost outer loops first).bind
      (tells_stmts surroundings globals (innermost ++ first.declares) outer loops rest)

/-- So are those of a statement that may be absent. -/
theorem tells_optionalStmt (surroundings : Surroundings) (globals innermost : Layer)
    (outer : List Layer) (loops : Nat) (optional : Option Stmt) :
    Tells globals (innermost :: outer) ((innermost ++ optional.elim [] Stmt.declares) :: outer)
      (optionalStmt surroundings (loops != 0) optional)
      ((Stmt.sitesOfOption (innermost :: outer) loops optional).flatMap (Site.faults globals)) := by
  match optional with
  | none =>
    rw [Option.elim_none, List.append_nil]
    exact tells_pure
  | some inner => exact tells_stmt surroundings globals innermost outer loops inner

end

end SystemsLang.Typing
