import SystemsLang.Proofs.Typing.Independent
import SystemsLang.Proofs.Typing.KnownTypes
import SystemsLang.Proofs.Typing.LexicalStmt

/-!
# Lexical diagnostics of declarations

When the second pass comes to a declaration, the global scope has its name already. It is reported
if another declaration of the name was there before; in any case the name is declared from then on,
and nothing else in the global scope changes. The other lexical diagnostics of a declaration are
those of its sites, where the global names are bound as they are in the scope at that time
(`checks_declared`).
-/

namespace SystemsLang.Typing

open Syntax Checker

variable {globals : Layer} {global after : Scope} {registry : Registry} {name : String}
  {position : Position} {symbol : Symbol}

/-- The parameters of a function are declared one after the other. -/
theorem tells_declareParams {params : List Param} {types : List Ty}
    (length : types.length = params.length) (earlier : Layer) :
    Tells globals [earlier] [earlier ++ paramLayer params] (declareParams params types)
      ((paramSites earlier params).flatMap (Site.faults globals)) := by
  induction params generalizing types earlier with
  | nil =>
    rw [paramLayer, List.map_nil, List.append_nil]
    cases types <;> exact tells_pure
  | cons param rest inductionHypothesis =>
    cases types with
    | nil => cases length
    | cons type types =>
      have later := inductionHypothesis (Nat.succ.inj length)
        (earlier ++ [(param.name.name, true)])
      rw [List.append_assoc] at later
      rw [declareParams, paramSites, List.flatMap_cons, faults_declared]
      exact (tells_declare rfl).bind later

/-- What comes behind the name of a function tells of its sites. A return that is missing is nothing
lexical. -/
theorem tells_body {declared : FnDecl} {params : List Ty}
    (length : params.length = declared.params.length) (surroundings : Surroundings)
    (missing : Bool) :
    Tells globals [] [] (do
        inScope do
          declareParams declared.params params
          stmts surroundings false declared.body
        if missing then report (.missingReturn declared.name.name) declared.position)
      ((Decl.fn declared).sites.flatMap (Site.faults globals)) := by
  have body := tells_stmts surroundings globals (paramLayer declared.params) [] 0 declared.body
  have last : Tells globals [] []
      (if missing then report (.missingReturn declared.name.name) declared.position else pure ())
      [] := by
    cases missing
    · exact tells_pure
    · exact tells_report _ declared.position
  rw [Decl.sites, List.flatMap_append, ← List.append_nil (_ ++ _)]
  exact ((tells_declareParams length []).bind body).inScope.bind last

/-- A scope that has the same names bound alike binds them as the same layer does. -/
theorem Binds.congr (binds : Binds global globals)
    (same : ∀ name, (after.lookup name).map Symbol.isConst =
      (global.lookup name).map Symbol.isConst) : Binds after globals :=
  fun name => (same name).trans (binds name)

/-- Between two states of the global scope a declaration was reached: its name is declared then, and
can be assigned to or not as the declaration says if it was so before. -/
structure Reached (declared : Decl) (global after : Scope) : Prop where
  marked : (after.lookup declared.name.name).any Symbol.declared = true
  isConst : (global.lookup declared.name.name).map Symbol.isConst = some declared.isConst →
    (after.lookup declared.name.name).map Symbol.isConst = some declared.isConst
  others : ∀ name, name ≠ declared.name.name → after.lookup name = global.lookup name

/-- What is reported of a name that is reached while it has the given symbol. -/
def alreadyDeclared (name : Ident) (symbol : Symbol) : List Diagnostic :=
  if symbol.declared then [duplicateAt name] else []

/-- A name that is reached is reported if it is declared, and is declared in any case. -/
theorem run_reach_found {name : Ident} (found : global.lookup name.name = some symbol) :
    ∃ after, (reach name.name name.position).run ⟨[], global⟩ =
        .ok ⟨(), ⟨[], after⟩, alreadyDeclared name symbol⟩ ∧
      after.lookup name.name = some { symbol with declared := true } ∧
      ∀ other, other ≠ name.name → after.lookup other = global.lookup other := by
  cases declared : symbol.declared with
  | false =>
    refine ⟨(name.name, { symbol with declared := true }) :: global, ?_, List.lookup_cons_self,
      fun other differs => lookup_cons_of_ne differs _ _⟩
    rw [run_reach found declared, alreadyDeclared, declared]
    rfl
  | true =>
    refine ⟨global, ?_, ?_, fun _ _ => rfl⟩
    · have here : Scopes.local? ⟨[], global⟩ name.name = some symbol := found
      simp [Checker.run, reach, bind, check, report, Checked.report, pure, here, declared,
        alreadyDeclared, duplicateAt]
    · rw [found, ← declared]

/-- A global name that is declared is reported if it was declared before, and has the symbol that it
is declared with otherwise. -/
theorem run_declare_found {name : Ident} {declaring : Symbol}
    (found : global.lookup name.name = some symbol) :
    ∃ after, (declare name.name name.position declaring).run ⟨[], global⟩ =
        .ok ⟨(), ⟨[], after⟩, alreadyDeclared name symbol⟩ ∧
      (after.lookup name.name = some declaring ∨
        symbol.declared = true ∧ after.lookup name.name = some symbol) ∧
      ∀ other, other ≠ name.name → after.lookup other = global.lookup other := by
  have here : Scopes.local? ⟨[], global⟩ name.name = some symbol := found
  cases declared : symbol.declared with
  | false =>
    refine ⟨(name.name, declaring) :: global, ?_, .inl List.lookup_cons_self,
      fun other differs => lookup_cons_of_ne differs _ _⟩
    simp [Checker.run, declare, bind, check, change, pure, here, declared, alreadyDeclared,
      Scopes.insert]
  | true =>
    refine ⟨global, ?_, .inr ⟨rfl, found⟩, fun _ _ => rfl⟩
    simp [Checker.run, declare, bind, check, report, Checked.report, pure, here, declared,
      alreadyDeclared, duplicateAt]

/-- A declaration that is checked ends with its name reached, and its lexical diagnostics are those
of its name and those of its sites. -/
def Checks (registry : Registry) (globals : Layer) (declared : Decl) (global : Scope)
    (symbol : Symbol) : Prop :=
  ∃ after reports,
    (checkEntered registry (registry.entered declared).value).run ⟨[], global⟩ =
        .ok ⟨(), ⟨[], after⟩, reports⟩ ∧
      Reached declared global after ∧
      (lexical reports).Perm (alreadyDeclared declared.name symbol ++
        declared.sites.flatMap (Site.faults globals))

/-- A declaration was reached if its name has a symbol that is declared, and that can be assigned to
or not as the declaration says, unless that was different before. -/
theorem reached_of_found {declared : Decl} {current : Symbol}
    (found : global.lookup declared.name.name = some symbol)
    (now : after.lookup declared.name.name = some current) (marked : current.declared = true)
    (isConst : symbol.isConst = declared.isConst → current.isConst = declared.isConst)
    (others : ∀ other, other ≠ declared.name.name → after.lookup other = global.lookup other) :
    Reached declared global after where
  marked := by
    rw [now]
    exact marked
  isConst := by
    rw [now, found]
    exact fun same => congrArg some (isConst (Option.some.inj same))
  others := others

/-- A repeated declaration is lexical. -/
theorem lexical_alreadyDeclared (name : Ident) (symbol : Symbol) :
    lexical (alreadyDeclared name symbol) = alreadyDeclared name symbol := by
  unfold alreadyDeclared
  split <;> rfl

/-- Checking a struct comes to its declaration and does nothing else. -/
theorem checks_struct (registry : Registry) (declared : StructDecl)
    (found : global.lookup declared.name.name = some symbol) :
    Checks registry globals (.struct declared) global symbol := by
  obtain ⟨after, ran, marked, others⟩ := run_reach_found found
  refine ⟨after, _, ran, reached_of_found found marked rfl id others, ?_⟩
  rw [lexical_alreadyDeclared, Decl.sites, List.flatMap_nil, List.append_nil]
  exact .refl _

/-- Checking a function raises the faults of its parameters and its body. -/
theorem checks_fn (registry : Registry) (declared : FnDecl) (binds : Binds global globals)
    (found : global.lookup declared.name.name = some symbol) :
    Checks registry globals (.fn declared) global symbol := by
  obtain ⟨after, ran, marked, others⟩ := run_reach_found found
  let params := (paramTypes registry declared.params).value
  let result := (registry.resolve declared.returnType).value
  have length : params.length = declared.params.length := by
    unfold params
    rw [paramTypes, value_mapM, List.length_map]
  have same (name : String) : (after.lookup name).map Symbol.isConst =
      (global.lookup name).map Symbol.isConst := by
    by_cases own : name = declared.name.name
    · rw [own, marked, found]
      rfl
    · rw [others name own]
  -- The body sees the global names as they were before the function was reached.
  have shows : Shows globals [] ⟨[], after⟩ := ⟨.nil, binds.congr same⟩
  obtain ⟨outcome, ranRest, -, told⟩ := tells_body length ⟨registry, ⟨declared.name.name, result⟩⟩
    (needsValue result && !anyReturns declared.body) _ shows
  obtain ⟨reports, ranAll⟩ := scopes_fnDecl registry declared params result ran
  have sameReports : reports = alreadyDeclared declared.name symbol ++ outcome.reports :=
    congrArg Outcome.reports (Except.ok.inj (ranAll.symm.trans (run_bind_ok ran ranRest)))
  refine ⟨after, reports, ranAll, reached_of_found found marked rfl id others, ?_⟩
  rw [sameReports, lexical_append, told, lexical_alreadyDeclared]
  exact .refl _

/-- Checking a global variable raises the faults of its value. -/
theorem checks_var (registry : Registry) (declared : VarDecl) (binds : Binds global globals)
    (found : global.lookup declared.name.name = some symbol) :
    Checks registry globals (.var declared) global symbol := by
  let stated := (declared.type.mapM registry.resolve).value
  let checked := varType ⟨registry, ⟨[], global⟩, none⟩ declared stated
  let declares (type : Ty) : Checker Unit :=
    declare declared.name.name declared.name.position (varSymbol declared type)
  obtain ⟨after, ran, here, others⟩ := run_declare_found found
  have typed : (check fun scopes => varType ⟨registry, scopes, none⟩ declared stated).run
      ⟨[], global⟩ = .ok ⟨checked.value, ⟨[], global⟩, checked.reports⟩ := rfl
  have ranNext : (declares checked.value).run ⟨[], global⟩ = _ := ran
  have ranAll : (globalVar registry declared stated).run ⟨[], global⟩ =
      .ok ⟨(), ⟨[], after⟩, checked.reports ++ alreadyDeclared declared.name symbol⟩ :=
    run_bind_ok typed ranNext
  have shows : Shows globals [] ⟨[], global⟩ := ⟨.nil, binds⟩
  have told : lexical checked.reports =
      (Decl.var declared).sites.flatMap (Site.faults globals) := by
    rw [Decl.sites, List.flatMap_map]
    exact lexical_varType 0 shows registry none declared stated
  have reached : Reached (.var declared) global after := by
    rcases here with replaced | ⟨earlier, kept⟩
    · exact reached_of_found found replaced rfl (fun _ => rfl) others
    · exact reached_of_found found kept earlier id others
  refine ⟨after, _, ranAll, reached, ?_⟩
  rw [lexical_append, told, lexical_alreadyDeclared]
  exact List.perm_append_comm

/-- Every declaration whose name the global scope has is checked so. -/
theorem checks_declared (registry : Registry) (declared : Decl) (binds : Binds global globals)
    (found : global.lookup declared.name.name = some symbol) :
    Checks registry globals declared global symbol := by
  cases declared with
  | fn declared => exact checks_fn registry declared binds found
  | var declared => exact checks_var registry declared binds found
  | struct declared => exact checks_struct registry declared found

end SystemsLang.Typing
