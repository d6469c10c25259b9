import SystemsLang.Proofs.Typing.KnownTypes
import SystemsLang.Proofs.Typing.TypedStmt

/-!
# The second pass decides whether declarations are in order

A declaration that is reached becomes declared, so a second one of its name does not pass: whatever
the first pass has entered, the names of declarations that pass are distinct. Behind that, the
declarations pass one after the other exactly if they are in order.
-/

namespace SystemsLang.Typing

open Syntax Checker

variable {scopes after : Scopes} {registry : Registry} {global : Scope} {name : String}
  {position : Position} {symbol : Symbol}

/-- What is entered is found in the innermost scope. -/
theorem local?_insert_self (scopes : Scopes) (name : String) (symbol : Symbol) :
    (scopes.insert name symbol).local? name = some symbol := by
  obtain ⟨opened, global⟩ := scopes
  cases opened <;> simp [Scopes.insert, Scopes.local?]

/-- What is entered does not hide other names. -/
theorem local?_insert_of_ne (scopes : Scopes) {other : String} (differs : other ≠ name)
    (symbol : Symbol) : (scopes.insert name symbol).local? other = scopes.local? other := by
  obtain ⟨opened, global⟩ := scopes
  cases opened <;> simp [Scopes.insert, Scopes.local?, lookup_cons_of_ne differs]

/-- The check of a function passes if its name is reached, its body passes in a scope of its own and
it returns where it has to. -/
theorem passes_fnDecl {declared : FnDecl} {params : List Ty} {result : Ty} :
    Passes (fnDecl registry declared params result) scopes after ↔
      Passes (reach declared.name.name declared.name.position) scopes after ∧
        (∃ last, Passes (do
          declareParams declared.params params
          stmts ⟨registry, ⟨declared.name.name, result⟩⟩ false declared.body) after.push last) ∧
        (needsValue result = true → anyReturns declared.body = true) := by
  have confined := confined_bind (confined_declareParams declared.params params) fun _ =>
    confined_stmts ⟨registry, ⟨declared.name.name, result⟩⟩ false declared.body
  rw [fnDecl, passes_bind]
  constructor
  · rintro ⟨between, reached, passes⟩
    obtain ⟨between, inner, returning⟩ := passes_bind.mp passes
    obtain ⟨rfl, body⟩ := (passes_inScope confined).mp inner
    split at returning
    · exact absurd returning not_passes_report
    · rename_i returned
      obtain rfl := passes_pure.mp returning
      refine ⟨reached, body, fun needs => ?_⟩
      simpa [needs] using returned
  · rintro ⟨reached, body, returned⟩
    refine ⟨after, reached, passes_bind.mpr ⟨after, (passes_inScope confined).mpr ⟨rfl, body⟩, ?_⟩⟩
    split
    · rename_i fails
      obtain ⟨needs, missing⟩ := Bool.and_eq_true_iff.mp fails
      simp [returned needs] at missing
    · exact passes_pure.mpr rfl

/-- What a declaration that passes does: its name was not declared and is declared behind it. -/
theorem declares_of_passes {entered : Entered} {rest : List Entered}
    (passes : Passes (decls registry (entered :: rest)) scopes after) :
    ∃ symbol : Symbol, symbol.declared = true ∧
      (scopes.local? entered.name.name).any Symbol.declared = false ∧
      Passes (decls registry rest) (scopes.insert entered.name.name symbol) after := by
  have reached {between : Scopes} {position : Position}
      (passes : Passes (reach entered.name.name position) scopes between) :
      ∃ symbol : Symbol, symbol.declared = true ∧
        (scopes.local? entered.name.name).any Symbol.declared = false ∧
        scopes.insert entered.name.name symbol = between := by
    obtain ⟨symbol, found, undeclared, ends⟩ := passes_reach.mp passes
    refine ⟨_, rfl, ?_, ends⟩
    rw [found]
    exact undeclared
  cases entered with
  | fn declared params result =>
    obtain ⟨between, head, tail⟩ := passes_bind.mp passes
    obtain ⟨symbol, isDeclared, undeclared, rfl⟩ := reached (passes_fnDecl.mp head).1
    exact ⟨symbol, isDeclared, undeclared, tail⟩
  | var declared stated =>
    obtain ⟨between, head, tail⟩ := passes_bind.mp passes
    obtain ⟨-, declaring⟩ := passes_check_bind.mp head
    obtain ⟨undeclared, rfl⟩ := passes_declare.mp declaring
    exact ⟨_, rfl, undeclared, tail⟩
  | struct declared =>
    obtain ⟨between, head, tail⟩ := passes_bind.mp passes
    obtain ⟨symbol, isDeclared, undeclared, rfl⟩ := reached head
    exact ⟨symbol, isDeclared, undeclared, tail⟩

/-- Declarations that pass one after the other have distinct names, none of which was declared. -/
theorem distinct_of_passes {entered : List Entered}
    (passes : Passes (decls registry entered) scopes after) :
    (entered.map fun declaration => declaration.name.name).Nodup ∧
      ∀ declaration ∈ entered,
        (scopes.local? declaration.name.name).any Symbol.declared = false := by
  induction entered generalizing scopes with
  | nil => exact ⟨.nil, fun _ impossible => nomatch impossible⟩
  | cons first rest inductionHypothesis =>
    obtain ⟨symbol, isDeclared, undeclared, tail⟩ := declares_of_passes passes
    obtain ⟨distinct, restUndeclared⟩ := inductionHypothesis tail
    have differs : ∀ other ∈ rest, other.name.name ≠ first.name.name := by
      intro other member same
      have untouched := restUndeclared other member
      rw [same, local?_insert_self] at untouched
      simp [isDeclared] at untouched
    constructor
    · rw [List.map_cons, List.nodup_cons]
      refine ⟨fun again => ?_, distinct⟩
      obtain ⟨other, member, same⟩ := List.mem_map.mp again
      exact differs other member same
    · refine List.forall_mem_cons.mpr ⟨undeclared, fun other member => ?_⟩
      have untouched := restUndeclared other member
      rwa [local?_insert_of_ne _ (differs other member)] at untouched

/-- The symbol of a parameter. -/
def paramSymbol (param : Param) : Symbol :=
  ⟨denoted param.type, .parameter, true, true, param.position⟩

/-- The scopes with the parameters of a function in the innermost. -/
def enterParams (scopes : Scopes) (params : List Param) : Scopes :=
  params.foldl (fun scopes param => scopes.insert param.name.name (paramSymbol param)) scopes

/-- A binding leaves the other names of the innermost scope unbound. -/
theorem fresh_bind {env : Env} (inside : env.frames ≠ []) {other : String} {binding : Binding} :
    (env.bind name binding).Fresh other ↔ env.Fresh other ∧ other ≠ name := by
  obtain ⟨structs, globals, frames, result⟩ := env
  cases frames with
  | nil => exact absurd rfl inside
  | cons innermost outer =>
    by_cases same : other = name
    · simp [Env.Fresh, Env.bind, Frame.bind, same]
    · simp [Env.Fresh, Env.bind, Frame.bind, same]

/-- Parameters pass if their names are distinct and not bound in the innermost scope. -/
theorem passes_declareParams {surroundings : Surroundings} (ready : Ready surroundings scopes)
    {params : List Param}
    (known : ∀ param ∈ params, Known surroundings.registry.get? param.type) :
    Passes (declareParams params (params.map fun param => denoted param.type)) scopes after ↔
      (params.map fun param => param.name.name).Nodup ∧
        (∀ param ∈ params, (surroundings.context scopes).env.Fresh param.name.name) ∧
        enterParams scopes params = after := by
  induction params generalizing scopes with
  | nil => simp [declareParams, enterParams]
  | cons param rest inductionHypothesis =>
    obtain ⟨headKnown, restKnown⟩ := List.forall_mem_cons.mp known
    have entered : Ready surroundings (scopes.insert param.name.name (paramSymbol param)) :=
      ready.insert rfl (closed_denoted headKnown)
    have inside : (surroundings.context scopes).env.frames ≠ [] := by
      simpa [Surroundings.context, Context.env] using ready.inside
    have follows : Passes (declareParams (param :: rest)
        ((param :: rest).map fun param => denoted param.type)) scopes after ↔
        (surroundings.context scopes).env.Fresh param.name.name ∧
          Passes (declareParams rest (rest.map fun param => denoted param.type))
            (scopes.insert param.name.name (paramSymbol param)) after := by
      rw [List.map_cons, declareParams, passes_bind]
      simp only [passes_declare, ready.undeclared_iff]
      constructor
      · rintro ⟨between, ⟨fresh, rfl⟩, passes⟩
        exact ⟨fresh, passes⟩
      · rintro ⟨fresh, passes⟩
        exact ⟨_, ⟨fresh, rfl⟩, passes⟩
    -- Freshness in the scopes behind the parameter is freshness in those before it, and another
    -- name; so all names being fresh one by one amounts to their being distinct.
    have still (other : Param) : (surroundings.context
        (scopes.insert param.name.name (paramSymbol param))).env.Fresh other.name.name ↔
          (surroundings.context scopes).env.Fresh other.name.name ∧
            other.name.name ≠ param.name.name := by
      rw [Surroundings.context, env_insert]
      exact fresh_bind inside
    rw [follows, inductionHypothesis entered restKnown, List.map_cons, List.nodup_cons,
      List.forall_mem_cons, List.mem_map]
    simp only [still]
    constructor
    · rintro ⟨fresh, distinct, restFresh, ends⟩
      refine ⟨⟨?_, distinct⟩, ⟨fresh, fun other member => (restFresh other member).1⟩, ends⟩
      rintro ⟨other, member, same⟩
      exact (restFresh other member).2 same
    · rintro ⟨⟨notAgain, distinct⟩, ⟨fresh, restFresh⟩, ends⟩
      refine ⟨fresh, distinct, fun other member => ⟨restFresh other member, fun same => ?_⟩, ends⟩
      exact notAgain ⟨other, member, same⟩

/-- Declared parameters leave the state between statements. -/
theorem Ready.enterParams {surroundings : Surroundings} (ready : Ready surroundings scopes)
    {params : List Param}
    (known : ∀ param ∈ params, Known surroundings.registry.get? param.type) :
    Ready surroundings (enterParams scopes params) := by
  induction params generalizing scopes with
  | nil => exact ready
  | cons param rest inductionHypothesis =>
    obtain ⟨headKnown, restKnown⟩ := List.forall_mem_cons.mp known
    have closed : Closed surroundings.registry.get? (paramSymbol param).type :=
      closed_denoted headKnown
    exact inductionHypothesis (ready.insert rfl closed) restKnown

/-- A name that no parameter has is not bound among the parameters. -/
theorem paramFrame_of_absent {params : List Param}
    (absent : name ∉ params.map fun param => param.name.name) : paramFrame params name = none := by
  have missed : (params.find? fun param => param.name.name = name) = none := by
    rw [List.find?_eq_none]
    intro param member same
    exact absent (List.mem_map.mpr ⟨param, member, of_decide_eq_true same⟩)
  rw [paramFrame, missed]
  rfl

/-- Parameters are entered into the scope that holds nothing but the earlier ones. -/
theorem frames_enterParams (scope : Scope) (outer : List Scope) (global : Scope)
    {params : List Param} (distinct : (params.map fun param => param.name.name).Nodup) :
    ∃ last, enterParams ⟨scope :: outer, global⟩ params = ⟨last :: outer, global⟩ ∧
      frameOf last = fun name => (paramFrame params name).or (frameOf scope name) := by
  induction params generalizing scope with
  | nil => exact ⟨scope, rfl, rfl⟩
  | cons param rest inductionHypothesis =>
    rw [List.map_cons, List.nodup_cons] at distinct
    obtain ⟨notAgain, distinct⟩ := distinct
    obtain ⟨last, entered, frame⟩ :=
      inductionHypothesis ((param.name.name, paramSymbol param) :: scope) distinct
    refine ⟨last, entered, ?_⟩
    rw [frame]
    funext name
    rw [frameOf_cons]
    by_cases same : name = param.name.name
    · subst same
      rw [paramFrame_of_absent notAgain]
      simp [paramFrame, Frame.bind, paramSymbol, Symbol.binding]
    · have differs : ¬ param.name.name = name := fun equal => same equal.symm
      simp [paramFrame, Frame.bind, same, differs]

/-- A function whose name is reached passes if it is in order. -/
theorem passes_body {surroundings : Surroundings} {declared : FnDecl}
    (ready : Ready surroundings (Scopes.push ⟨[], global⟩))
    (result : surroundings.enclosing.result = denoted declared.returnType)
    (known : ∀ param ∈ declared.params, Known surroundings.registry.get? param.type) :
    (∃ last, Passes (do
      declareParams declared.params (declared.params.map fun param => denoted param.type)
      stmts surroundings false declared.body) (Scopes.push ⟨[], global⟩) last) ↔
      (declared.params.map fun param => param.name.name).Nodup ∧
        ∃ left, StmtsOk Eq false ⟨surroundings.registry.get?, frameOf global,
          [paramFrame declared.params], some (denoted declared.returnType)⟩ declared.body left := by
  have fresh : ∀ param ∈ declared.params,
      (surroundings.context (Scopes.push ⟨[], global⟩)).env.Fresh param.name.name := by
    intro param _ frame isHead
    obtain rfl := Option.some.inj isHead
    rfl
  have entered := ready.enterParams known
  -- The frame of the parameters is the innermost scope only if no name comes twice.
  have env (distinct : (declared.params.map fun param => param.name.name).Nodup) :
      (surroundings.context (enterParams (Scopes.push ⟨[], global⟩) declared.params)).env =
        ⟨surroundings.registry.get?, frameOf global, [paramFrame declared.params],
          some (denoted declared.returnType)⟩ := by
    obtain ⟨last, ends, frame⟩ := frames_enterParams [] [] global distinct
    have alone : frameOf last = paramFrame declared.params := by
      rw [frame]
      funext name
      exact Option.or_none
    rw [Scopes.push, ends, ← alone, ← result]
    rfl
  constructor
  · rintro ⟨last, passes⟩
    obtain ⟨between, params, body⟩ := passes_bind.mp passes
    obtain ⟨distinct, -, rfl⟩ := (passes_declareParams ready known).mp params
    refine ⟨distinct, (surroundings.context last).env, ?_⟩
    rw [← env distinct]
    exact (stmtsOk_of_passes entered false declared.body body).1
  · rintro ⟨distinct, left, ok⟩
    rw [← env distinct] at ok
    obtain ⟨last, body, -⟩ := passes_of_stmtsOk entered false declared.body ok
    exact ⟨last, passes_bind.mpr ⟨_, (passes_declareParams ready known).mpr ⟨distinct, fresh, rfl⟩,
      body⟩⟩

/-- The environment outside of functions. -/
def outside (registry : Registry) (global : Scope) : Env :=
  ⟨registry.get?, frameOf global, [], none⟩

/-- Before some declarations the environment is sound, and their names are there but not declared
yet. -/
structure Awaiting (registry : Registry) (global : Scope) (rest : Program) : Prop where
  sound : (outside registry global).Sound
  entered : ∀ declared ∈ rest, ∃ symbol,
    global.lookup declared.name.name = some symbol ∧ symbol.declared = false

/-- No type expression denotes the unknown type. -/
theorem denoted_ne_unknown (type : TypeExpr) : denoted type ≠ .unknown := by
  cases type with
  | primitive position name =>
    unfold denoted Ty.ofPrimitive
    split <;> simp
  | named | pointer | array | slice | optional | errorUnion => simp [denoted]

/-- A name that is entered again with the same binding is bound as before. -/
theorem frameOf_rebound {earlier : Symbol} (found : global.lookup name = some earlier)
    (same : symbol.binding = earlier.binding) :
    frameOf ((name, symbol) :: global) = frameOf global := by
  rw [frameOf_cons]
  funext other
  by_cases equal : other = name
  · simp [Frame.bind, frameOf, equal, found, same]
  · simp [Frame.bind, equal]

/-- A symbol that becomes declared binds its name as before. -/
theorem frameOf_marked (found : global.lookup name = some symbol) :
    frameOf ((name, { symbol with declared := true }) :: global) = frameOf global :=
  frameOf_rebound found rfl

/-- A global name that is there but not declared yet is reached and becomes declared. -/
theorem passes_reach_iff (found : global.lookup name = some symbol)
    (undeclared : symbol.declared = false) :
    Passes (reach name position) ⟨[], global⟩ after ↔
      ⟨[], (name, { symbol with declared := true }) :: global⟩ = after := by
  have here : Scopes.local? ⟨[], global⟩ name = some symbol := found
  rw [passes_reach]
  constructor
  · rintro ⟨other, isThere, -, ends⟩
    obtain rfl := Option.some.inj (here.symm.trans isThere)
    exact ends
  · intro ends
    exact ⟨symbol, here, undeclared, ends⟩

/-- The scope of a function is opened in a sound environment. -/
theorem Awaiting.ready {rest : Program} (awaiting : Awaiting registry global rest)
    (name : String) {result : Ty} (known : result ≠ .unknown) :
    Ready ⟨registry, ⟨name, result⟩⟩ (Scopes.push ⟨[], global⟩) where
  inside := List.cons_ne_nil _ _
  declared := by
    intro scope member entry inScope
    rw [List.mem_singleton.mp member] at inScope
    cases inScope
  sound := by
    have inner := awaiting.sound.inner
    refine ⟨⟨inner.fields, inner.bindings⟩, ?_⟩
    intro enclosing same
    obtain rfl := Option.some.inj same
    exact known

/-- A function with known types passes if it is in order. -/
theorem passes_fnDecl_iff {rest : Program} {declared : FnDecl}
    (awaiting : Awaiting registry global rest) (stated : Stated registry.get? (.fn declared))
    (found : global.lookup declared.name.name = some symbol)
    (undeclared : symbol.declared = false) :
    Passes (fnDecl registry declared (declared.params.map fun param => denoted param.type)
        (denoted declared.returnType)) ⟨[], global⟩ after ↔
      FnOk Eq registry.get? (frameOf global) declared ∧
        ⟨[], (declared.name.name, { symbol with declared := true }) :: global⟩ = after := by
  obtain ⟨params, result⟩ := stated
  have known := denoted_ne_unknown declared.returnType
  have marked := frameOf_marked found
  have awaitingBody : Awaiting registry
      ((declared.name.name, { symbol with declared := true }) :: global) [] := by
    refine ⟨?_, fun _ impossible => nomatch impossible⟩
    rw [outside, marked]
    exact awaiting.sound
  have body := passes_body (awaitingBody.ready declared.name.name known) rfl params
  rw [passes_fnDecl, passes_reach_iff found undeclared, needsValue_iff known, anyReturns_iff]
  rw [marked] at body
  constructor
  · rintro ⟨rfl, passes, returned⟩
    obtain ⟨distinct, ok⟩ := body.mp passes
    exact ⟨⟨params, result, distinct, ok, returned⟩, rfl⟩
  · rintro ⟨⟨-, -, distinct, ok, returned⟩, rfl⟩
    exact ⟨rfl, body.mpr ⟨distinct, ok⟩, returned⟩

/-- A global variable with a known type or none written passes if it has a type. -/
theorem passes_globalVar_iff {rest : Program} {declared : VarDecl}
    (awaiting : Awaiting registry global rest) (stated : Stated registry.get? (.var declared))
    (found : global.lookup declared.name.name = some symbol)
    (undeclared : symbol.declared = false) :
    Passes (globalVar registry declared (declared.type.map denoted)) ⟨[], global⟩ after ↔
      ∃ type, VarType Eq (outside registry global) declared type ∧
        ⟨[], (declared.name.name, varSymbol declared type) :: global⟩ = after := by
  have sound : (Context.mk registry ⟨[], global⟩ none).Sound :=
    ⟨awaiting.sound, fun _ impossible => nomatch impossible⟩
  have decides (type : Ty) :
      Finds (varType ⟨registry, ⟨[], global⟩, none⟩ declared (declared.type.map denoted)) type ↔
        VarType Eq (outside registry global) declared type := finds_varType sound stated
  have fresh : (Scopes.local? ⟨[], global⟩ declared.name.name).any Symbol.declared = false := by
    have here : Scopes.local? ⟨[], global⟩ declared.name.name = some symbol := found
    rw [here]
    exact undeclared
  rw [globalVar, passes_check_bind, passes_declare]
  constructor
  · rintro ⟨quiet, -, ends⟩
    exact ⟨_, (decides _).mp ⟨quiet, rfl⟩, ends⟩
  · rintro ⟨type, typed, ends⟩
    obtain ⟨quiet, rfl⟩ := (decides type).mpr typed
    exact ⟨quiet, fresh, ends⟩

/-- What a declaration changes under its own name leaves the further declarations to come. -/
theorem Awaiting.tail {first : Decl} {rest : Program}
    (awaiting : Awaiting registry global (first :: rest))
    (distinct : ((first :: rest).map fun declared => declared.name.name).Nodup) (symbol : Symbol)
    (sound : (outside registry ((first.name.name, symbol) :: global)).Sound) :
    Awaiting registry ((first.name.name, symbol) :: global) rest := by
  rw [List.map_cons, List.nodup_cons] at distinct
  refine ⟨sound, fun other member => ?_⟩
  have differs : other.name.name ≠ first.name.name := fun same =>
    distinct.1 (List.mem_map.mpr ⟨other, member, same⟩)
  rw [lookup_cons_of_ne differs]
  exact awaiting.entered other (List.mem_cons_of_mem _ member)

/-- Declarations with distinct names and known types pass one after the other if they are in
order. -/
theorem passes_decls_iff {rest : Program}
    (distinct : (rest.map fun declared => declared.name.name).Nodup)
    (awaiting : Awaiting registry global rest)
    (stated : ∀ declared ∈ rest, Stated registry.get? declared)
    (structs : ∀ declared ∈ structDecls rest, StructOk registry.get? declared) :
    (∃ after, Passes (decls registry (rest.map enteredOf)) ⟨[], global⟩ after) ↔
      DeclsOk Eq registry.get? (frameOf global) rest := by
  induction rest generalizing global with
  | nil => exact ⟨fun _ => .nil, fun _ => ⟨_, passes_pure.mpr rfl⟩⟩
  | cons first rest inductionHypothesis =>
    obtain ⟨headStated, restStated⟩ := List.forall_mem_cons.mp stated
    obtain ⟨symbol, found, undeclared⟩ := awaiting.entered first List.mem_cons_self
    have distinctRest : (rest.map fun declared => declared.name.name).Nodup :=
      (List.nodup_cons.mp distinct).2
    have marked := frameOf_marked found
    have awaitingRest := awaiting.tail distinct { symbol with declared := true } (by
      rw [outside, marked]
      exact awaiting.sound)
    cases first with
    | fn declared =>
      have decides := inductionHypothesis distinctRest awaitingRest restStated structs
      rw [marked] at decides
      constructor
      · rintro ⟨after, passes⟩
        obtain ⟨between, head, tail⟩ := passes_bind.mp passes
        obtain ⟨ok, rfl⟩ := (passes_fnDecl_iff awaiting headStated found undeclared).mp head
        exact .fn ok (decides.mp ⟨after, tail⟩)
      · intro ok
        cases ok with
        | fn ok restOk =>
          obtain ⟨after, tail⟩ := decides.mpr restOk
          have head := (passes_fnDecl_iff awaiting headStated found undeclared).mpr ⟨ok, rfl⟩
          exact ⟨after, passes_bind.mpr ⟨_, head, tail⟩⟩
    | struct declared =>
      obtain ⟨structOk, restStructs⟩ := List.forall_mem_cons.mp structs
      have decides := inductionHypothesis distinctRest awaitingRest restStated restStructs
      rw [marked] at decides
      constructor
      · rintro ⟨after, passes⟩
        obtain ⟨between, head, tail⟩ := passes_bind.mp passes
        obtain rfl := (passes_reach_iff found undeclared).mp head
        exact .struct structOk (decides.mp ⟨after, tail⟩)
      · intro ok
        cases ok with
        | struct ok restOk =>
          obtain ⟨after, tail⟩ := decides.mpr restOk
          exact ⟨after, passes_bind.mpr ⟨_, (passes_reach_iff found undeclared).mpr rfl, tail⟩⟩
    -- A function or a struct leaves the global frame as it is. A variable has its own type from
    -- here on, so the induction goes on in another frame.
    | var declared =>
      have decides {type : Ty} (typed : VarType Eq (outside registry global) declared type) :
          (∃ after, Passes (decls registry (rest.map enteredOf))
            ⟨[], (declared.name.name, varSymbol declared type) :: global⟩ after) ↔
          DeclsOk Eq registry.get?
            ((frameOf global).bind declared.name.name ⟨type, declared.isConst⟩) rest := by
        have frame : frameOf ((declared.name.name, varSymbol declared type) :: global) =
            (frameOf global).bind declared.name.name ⟨type, declared.isConst⟩ := frameOf_cons _ _ _
        have closed : Closed registry.get? type := typed.closed awaiting.sound
        have sound : (outside registry
            ((declared.name.name, varSymbol declared type) :: global)).Sound := by
          rw [outside, frame]
          exact awaiting.sound.bind closed
        rw [← frame]
        exact inductionHypothesis distinctRest (awaiting.tail distinct _ sound) restStated structs
      constructor
      · rintro ⟨after, passes⟩
        obtain ⟨between, head, tail⟩ := passes_bind.mp passes
        obtain ⟨type, typed, rfl⟩ :=
          (passes_globalVar_iff awaiting headStated found undeclared).mp head
        exact .var typed ((decides typed).mp ⟨after, tail⟩)
      · intro ok
        cases ok with
        | var typed restOk =>
          obtain ⟨after, tail⟩ := (decides typed).mpr restOk
          have head := (passes_globalVar_iff awaiting headStated found undeclared).mpr
            ⟨_, typed, rfl⟩
          exact ⟨after, passes_bind.mpr ⟨_, head, tail⟩⟩

end SystemsLang.Typing
