import SystemsLang.Proofs.Typing.Agreeing
import SystemsLang.Proofs.Typing.FirstPass
import SystemsLang.Proofs.Typing.SecondPass

/-!
# What the second pass reports

The second pass changes the symbols of the declarations that it reaches, one after the other. As
long as every variable states its type, a name is bound to the same before and after its declaration
is reached, so no declaration sees whether others were reached before it. Hence the pass reports
what each declaration reports by itself, in the global scope as the first pass leaves it
(`run_decls`).
-/

namespace SystemsLang.Typing

open Syntax Checker

variable {registry known known' : Registry} {global global' : Scope} {name : String}
  {position : Position} {symbol : Symbol}

/-- The check of one declaration in the second pass. -/
def checkEntered (registry : Registry) : Entered → Checker Unit
  | .fn declared params result => fnDecl registry declared params result
  | .var declared stated => globalVar registry declared stated
  | .struct declared => reach declared.name.name declared.name.position

/-- Declarations are checked one after the other. -/
theorem decls_cons (registry : Registry) (first : Entered) (rest : List Entered) :
    decls registry (first :: rest) = (do
      checkEntered registry first
      decls registry rest) := by
  cases first <;> rfl

/-- What a declaration reports by itself in a global scope. -/
def reportsIn (registry : Registry) (global : Scope) (entered : Entered) : List Diagnostic :=
  match (checkEntered registry entered).run ⟨[], global⟩ with
  | .ok outcome => outcome.reports
  | .error _ => []

/-- A declaration is still to be reached: its symbol is there as the first pass entered it. -/
def Awaited (global : Scope) (entered : Entered) : Prop :=
  global.lookup entered.name.name = some entered.symbol

/-- A variable states its type. -/
def Entered.Annotated (entered : Entered) : Prop :=
  ∀ declared stated, entered = .var declared stated → stated.isSome = true

/-- A name that is reached becomes declared. -/
theorem run_reach (found : global.lookup name = some symbol)
    (undeclared : symbol.declared = false) :
    (reach name position).run ⟨[], global⟩ =
      .ok ⟨(), ⟨[], (name, { symbol with declared := true }) :: global⟩, []⟩ := by
  have here : Scopes.local? ⟨[], global⟩ name = some symbol := found
  simp [Checker.run, reach, bind, check, change, pure, here, undeclared, Scopes.markDeclared,
    Scopes.insert]

/-- What a variable that states its type reports does not depend on how the scopes came about. -/
theorem run_globalVar (same : known.get? = known'.get?) (frames : frameOf global = frameOf global')
    {declared : VarDecl} {stated : Ty}
    (awaited : Awaited global (.var declared (some stated)))
    (awaitedToo : Awaited global' (.var declared (some stated))) :
    ∃ reports, (globalVar known declared (some stated)).run ⟨[], global⟩ =
        .ok ⟨(), ⟨[], (declared.name.name, varSymbol declared stated) :: global⟩, reports⟩ ∧
      (globalVar known' declared (some stated)).run ⟨[], global'⟩ =
        .ok ⟨(), ⟨[], (declared.name.name, varSymbol declared stated) :: global'⟩, reports⟩ := by
  have alike := context_alike same none ⟨[], global⟩ frames
  have checked : varType ⟨known', ⟨[], global'⟩, none⟩ declared (some stated) =
      varType ⟨known, ⟨[], global⟩, none⟩ declared (some stated) := by
    unfold varType
    simp only [exprType_congr alike]
  have value : (varType ⟨known, ⟨[], global⟩, none⟩ declared (some stated)).value = stated := by
    unfold varType
    cases declared.init <;> rfl
  have here : Scopes.local? ⟨[], global⟩ declared.name.name = _ := awaited
  have there : Scopes.local? ⟨[], global'⟩ declared.name.name = _ := awaitedToo
  refine ⟨(varType ⟨known, ⟨[], global⟩, none⟩ declared (some stated)).reports, ?_, ?_⟩
  · simp [Checker.run, globalVar, declare, bind, check, change, pure, here, value, Scopes.insert,
      Entered.symbol]
  · simp [Checker.run, globalVar, declare, bind, check, change, pure, there, checked, value,
      Scopes.insert, Entered.symbol]

/-- What a function reports is what its body reports in a scope of its own, and a missing return. -/
theorem run_fnDecl {declared : FnDecl} {params : List Ty} {result : Ty} {scopes between : Scopes}
    {reports : List Diagnostic}
    (reached : (reach declared.name.name declared.name.position).run scopes =
      .ok ⟨(), between, []⟩)
    (body : (inScope do
      declareParams declared.params params
      stmts ⟨registry, ⟨declared.name.name, result⟩⟩ false declared.body).run between =
        .ok ⟨(), between, reports⟩) :
    (fnDecl registry declared params result).run scopes =
      .ok ⟨(), between, reports ++ if needsValue result && !anyReturns declared.body then
        [⟨.missingReturn declared.name.name, declared.position⟩] else []⟩ := by
  have last : (if needsValue result && !anyReturns declared.body then
      report (.missingReturn declared.name.name) declared.position else pure ()).run between =
        .ok ⟨(), between, if needsValue result && !anyReturns declared.body then
          [⟨.missingReturn declared.name.name, declared.position⟩] else []⟩ := by
    split <;> rfl
  rw [fnDecl, run_bind_ok reached (run_bind_ok body last)]
  rfl

/-- A declaration that is still to be reached reports the same wherever the same is bound, and what
its name is bound to does not change. -/
theorem run_checkEntered (same : known.get? = known'.get?)
    (frames : frameOf global = frameOf global') {entered : Entered}
    (annotated : entered.Annotated) (awaited : Awaited global entered)
    (awaitedToo : Awaited global' entered) :
    ∃ symbol reports, symbol.binding = entered.symbol.binding ∧
      (checkEntered known entered).run ⟨[], global⟩ =
        .ok ⟨(), ⟨[], (entered.name.name, symbol) :: global⟩, reports⟩ ∧
      (checkEntered known' entered).run ⟨[], global'⟩ =
        .ok ⟨(), ⟨[], (entered.name.name, symbol) :: global'⟩, reports⟩ := by
  cases entered with
  | struct declared =>
    exact ⟨{ (Entered.struct declared).symbol with declared := true }, [], rfl,
      run_reach awaited rfl, run_reach awaitedToo rfl⟩
  | var declared stated =>
    obtain ⟨type, rfl⟩ := Option.isSome_iff_exists.mp (annotated declared stated rfl)
    obtain ⟨reports, ran, ranToo⟩ := run_globalVar same frames awaited awaitedToo
    exact ⟨varSymbol declared type, reports, rfl, ran, ranToo⟩
  | fn declared params result =>
    have body : Agree (do
        declareParams declared.params params
        stmts ⟨known, ⟨declared.name.name, result⟩⟩ false declared.body) (do
        declareParams declared.params params
        stmts ⟨known', ⟨declared.name.name, result⟩⟩ false declared.body) :=
      agree_bind (agree_declareParams _ _) fun _ => agree_stmts same _ false declared.body
    let symbol : Symbol := { (Entered.fn declared params result).symbol with declared := true }
    have rebound {global : Scope} (awaited : Awaited global (.fn declared params result)) :
        frameOf ((declared.name.name, symbol) :: global) = frameOf global :=
      frameOf_rebound awaited rfl
    have bound : frameOf ((declared.name.name, symbol) :: global) =
        frameOf ((declared.name.name, symbol) :: global') := by
      rw [rebound awaited, rebound awaitedToo, frames]
    obtain ⟨reports, ran, ranToo⟩ :=
      run_inScope_agree body ⟨[], (declared.name.name, symbol) :: global⟩ bound
    exact ⟨symbol, _, rfl, run_fnDecl (run_reach awaited rfl) ran,
      run_fnDecl (run_reach awaitedToo rfl) ranToo⟩

/-- A declaration that is still to be reached reports the same in every global scope that binds the
same, and with every registry that has the same structs. -/
theorem reportsIn_congr (same : known.get? = known'.get?)
    (frames : frameOf global = frameOf global') {entered : Entered}
    (annotated : entered.Annotated) (awaited : Awaited global entered)
    (awaitedToo : Awaited global' entered) :
    reportsIn known global entered = reportsIn known' global' entered := by
  obtain ⟨symbol, reports, -, ran, ranToo⟩ :=
    run_checkEntered same frames annotated awaited awaitedToo
  rw [reportsIn, reportsIn, ran, ranToo]

/-- The second pass reports what each declaration reports by itself in the global scope that the
first pass leaves. The scope in which it is reached binds the same, since all variables state their
types; and its own symbol is as it was, since the names are distinct. -/
theorem run_decls {base : Scope} {entered : List Entered}
    (distinct : (entered.map fun declaration => declaration.name.name).Nodup)
    (annotated : ∀ declaration ∈ entered, declaration.Annotated)
    (expected : ∀ declaration ∈ entered, Awaited base declaration)
    (frames : frameOf global = frameOf base)
    (awaited : ∀ declaration ∈ entered, Awaited global declaration) :
    ∃ last, (decls registry entered).run ⟨[], global⟩ =
      .ok ⟨(), last, entered.flatMap (reportsIn registry base)⟩ := by
  induction entered generalizing global with
  | nil => exact ⟨_, rfl⟩
  | cons first rest inductionHypothesis =>
    rw [List.map_cons, List.nodup_cons] at distinct
    obtain ⟨notAgain, distinct⟩ := distinct
    obtain ⟨firstAnnotated, restAnnotated⟩ := List.forall_mem_cons.mp annotated
    obtain ⟨firstExpected, restExpected⟩ := List.forall_mem_cons.mp expected
    obtain ⟨firstAwaited, restAwaited⟩ := List.forall_mem_cons.mp awaited
    obtain ⟨symbol, reports, bound, ran, ranToo⟩ :=
      run_checkEntered (rfl : registry.get? = registry.get?) frames firstAnnotated firstAwaited
        firstExpected
    have alone : reportsIn registry base first = reports := by
      rw [reportsIn, ranToo]
    have still : ∀ other ∈ rest, Awaited ((first.name.name, symbol) :: global) other := by
      intro other member
      have differs : other.name.name ≠ first.name.name := fun same =>
        notAgain (List.mem_map.mpr ⟨other, member, same⟩)
      exact (lookup_cons_of_ne differs symbol global).trans (restAwaited other member)
    obtain ⟨last, ranOn⟩ := inductionHypothesis distinct restAnnotated restExpected
      ((frameOf_rebound firstAwaited bound).trans frames) still
    refine ⟨last, ?_⟩
    rw [decls_cons, List.flatMap_cons, alone, run_bind_ok ran ranOn]

end SystemsLang.Typing
