import SystemsLang.Proofs.Typing.SessionProgram

/-!
# The points of a session

A session over a program, taken apart into the points that it goes through. A point is the session
so far with the jobs that are still to be done (`Config`); to go on is to take the first job, which
changes the session and may leave jobs of its own in its place (`Config.next`). What a step of a
session keeps to itself until it ends, such as the type of a parameter that is yet to be declared or
the function that is set aside meanwhile, is part of the jobs, so nothing that is known at a point
is out of sight.

A program leads to a point after any number of jobs, and after some number of them nothing is left
to do: the session is then the one that checking the program ends in (`exists_points`).
-/

namespace SystemsLang.Typing.Session

open Syntax

/-- What is still to be done. The jobs of the first pass come first, with what was found out for
those behind them. -/
inductive Job
  | names (rest : Program) (defined : List StructDecl)
  | enter (name : Ident) (type : Ty) (role : Role) (isConst : Bool)
  | fields (rest : List StructDecl)
  | setFields (name : String) (fields : Fields)
  | globals (rest : Program) (signatures : List Signature) (annotations : List (Option Ty))
  | decls (rest : Program) (signatures : List Signature) (annotations : List (Option Ty))
  | reach (name : Ident)
  | declare (name : Ident) (symbol : Symbol)
  | params (params : List Param) (types : List Ty)
  | inFunction (enclosing : Enclosing) (statements : List Stmt)
  | leaveFunction (enclosing : Option Enclosing) (loopDepth : Nat)
  | ending (declared : FnDecl) (result : Ty)
  | openScope
  | closeScope
  | enterLoop
  | leaveLoop
  | stmts (statements : List Stmt)
  | stmt (statement : Stmt)
  | condition (value : Expr)
  | effect (value : Expr)
  | annotated (declared : VarDecl) (stated : Option Ty)

/-- Defines a struct without fields, and tells whether there was none of that name. -/
def define (name : String) : Run Bool := do
  match (← get).registry.define? name with
  | some extended =>
    modify fun session => { session with registry := extended }
    return true
  | none => return false

/-- Resolves the signature of a function. -/
def resolveSignature (declared : FnDecl) : Run Signature := do
  let params ← reading fun context => paramTypes context.registry declared.params
  let result ← reading fun context => context.registry.resolve declared.returnType
  return ⟨params, result⟩

/-- Enters a function, and sets aside what encloses it. -/
def enterFunction (enclosing : Enclosing) : Run (Option Enclosing × Nat) := do
  let outer ← get
  set { outer with enclosing := some enclosing, loopDepth := 0 }
  return (outer.enclosing, outer.loopDepth)

/-- Takes up again what encloses a function. -/
def leaveFunction (enclosing : Option Enclosing) (loopDepth : Nat) : Run Unit :=
  modify fun session => { session with enclosing := enclosing, loopDepth := loopDepth }

/-- Enters a loop. -/
def enterLoop : Run Unit :=
  modify fun session => { session with loopDepth := session.loopDepth + 1 }

/-- Checks that a function that has to give back a value does so. -/
def ending (declared : FnDecl) (result : Ty) : Run Unit :=
  if needsValue result && !anyReturns declared.body then
    raise (Checked.report (.missingReturn declared.name.name) declared.position)
  else pure ()

namespace Job

/-- A job for what is optional. -/
def optional {α : Type} (job : α → Job) (value : Option α) : List Job :=
  (value.map job).toList

/-- Jobs in a scope of their own. -/
def inScope (jobs : List Job) : List Job :=
  openScope :: (jobs ++ [closeScope])

/-- Jobs inside one loop more. -/
def inLoop (jobs : List Job) : List Job :=
  enterLoop :: (jobs ++ [leaveLoop])

/-- A block. -/
def block (body : List Stmt) : List Job :=
  inScope [stmts body]

/-- A function, once its name was reached. -/
def function (declared : FnDecl) (signature : Signature) : List Job :=
  inScope [params declared.params signature.params,
    inFunction ⟨declared.name.name, signature.result⟩ declared.body] ++
  [ending declared signature.result]

/-- The symbol of a parameter. -/
def paramSymbol (param : Param) (type : Ty) : Symbol :=
  ⟨type, .parameter, true, true, param.position⟩

/-- Takes a job, and gives the jobs that it leaves. -/
def step (program : Program) : Job → Run (List Job)
  | names [] defined => pure [fields defined, globals program [] []]
  | names (.struct declared :: rest) defined => do
    let isNew ← define declared.name.name
    return if isNew then
        [enter declared.name (.struct declared.name.name) .struct true,
          names rest (defined ++ [declared])]
      else [names rest defined]
  | names (.fn _ :: rest) defined => pure [names rest defined]
  | names (.var _ :: rest) defined => pure [names rest defined]
  | enter name type role isConst => do
    Session.enter name type role isConst
    return []
  | fields [] => pure []
  | fields (declared :: rest) => do
    let found ← reading fun context => fieldTypes context.registry [] declared.fields
    return [setFields declared.name.name found, fields rest]
  | setFields name found => do
    Session.setFields name found
    return []
  | globals [] signatures annotations => pure [decls program signatures annotations]
  | globals (.fn declared :: rest) signatures annotations => do
    let signature ← resolveSignature declared
    return [enter declared.name (.function signature.params signature.result) .function true,
      globals rest (signatures ++ [signature]) annotations]
  | globals (.var declared :: rest) signatures annotations => do
    let stated ← reading fun context => declared.type.mapM context.registry.resolve
    return [enter declared.name (stated.getD .unknown) .var declared.isConst,
      globals rest signatures (annotations ++ [stated])]
  | globals (.struct _ :: rest) signatures annotations =>
    pure [globals rest signatures annotations]
  | decls [] _ _ => pure []
  | decls (.fn declared :: rest) (signature :: signatures) annotations =>
    pure (reach declared.name :: (function declared signature ++
      [decls rest signatures annotations]))
  | decls (.fn _ :: _) [] _ => throw .signatureMissing
  | decls (.var declared :: rest) signatures (stated :: annotations) =>
    pure [annotated declared stated, decls rest signatures annotations]
  | decls (.var _ :: _) _ [] => throw .annotationMissing
  | decls (.struct declared :: rest) signatures annotations =>
    pure [reach declared.name, decls rest signatures annotations]
  | reach name => do
    onScopes (Checker.reach name.name name.position)
    return []
  | declare name symbol => do
    onScopes (Checker.declare name.name name.position symbol)
    return []
  | params (param :: rest) (type :: types) =>
    pure [declare param.name (paramSymbol param type), params rest types]
  | params _ _ => pure []
  | inFunction enclosing statements => do
    let outer ← enterFunction enclosing
    return [stmts statements, leaveFunction outer.1 outer.2]
  | leaveFunction enclosing loopDepth => do
    Session.leaveFunction enclosing loopDepth
    return []
  | ending declared result => do
    Session.ending declared result
    return []
  | openScope => do
    onScopes Checker.push
    return []
  | closeScope => do
    onScopes Checker.pop
    return []
  | enterLoop => do
    Session.enterLoop
    return []
  | leaveLoop => do
    Session.leaveLoop
    return []
  | stmts [] => pure []
  | stmts (first :: rest) => pure [stmt first, stmts rest]
  | stmt (.block _ body) => pure (block body)
  | stmt (.comptime _ body) => pure (block body)
  | stmt (.returns position value) => do
    returnValue position value
    return []
  | stmt (.branch _ test body otherwise) =>
    pure (condition test :: (block body ++ optional stmt otherwise))
  | stmt (.whileLoop _ test body) => pure (condition test :: inLoop (block body))
  | stmt (.forLoop _ init test step body) =>
    pure (inScope (optional stmt init ++ (optional condition test ++
      (optional effect step ++ inLoop (block body)))))
  | stmt (.breakLoop position) => do
    jump .breakOutsideLoop position
    return []
  | stmt (.continueLoop position) => do
    jump .continueOutsideLoop position
    return []
  | stmt (.expr _ value) => pure [effect value]
  | stmt (.declare _ declared) => do
    let stated ← reading fun context => declared.type.mapM context.registry.resolve
    return [annotated declared stated]
  | condition value => do
    Session.condition value
    return []
  | effect value => do
    Session.effect value
    return []
  | annotated declared stated => do
    let type ← varType declared stated
    return [declare declared.name (varSymbol declared type)]

end Job

/-- A point of a session: the session so far and the jobs that are still to be done. -/
structure Config where
  session : Session
  todo : List Job

/-- Goes on to the next point by taking the first job. With nothing left to do the session stays as
it is. -/
def Config.next (program : Program) (config : Config) : Except Panic Config :=
  match config.todo with
  | [] => .ok config
  | job :: rest => do
    let (jobs, after) ← job.step program config.session
    return ⟨after, jobs ++ rest⟩

/-- Goes on for the given number of jobs. -/
def Config.ahead (program : Program) : Nat → Config → Except Panic Config
  | 0, config => .ok config
  | count + 1, config => config.next program >>= ahead program count

/-- The point that a session over a program has reached after the given number of jobs. -/
def pointAt (program : Program) (count : Nat) : Except Panic Config :=
  Config.ahead program count ⟨initial, [.names program []]⟩

variable {program : Program} {α : Type}

/-- Going on for several jobs is going on for the first of them and then for the rest. -/
theorem ahead_add (first second : Nat) (config : Config) :
    config.ahead program (first + second) =
      config.ahead program first >>= Config.ahead program second := by
  induction first generalizing config with
  | zero =>
    rw [Nat.zero_add]
    rfl
  | succ first inductionHypothesis =>
    have same : Config.ahead program (first + second) =
        fun config => config.ahead program first >>= Config.ahead program second :=
      funext inductionHypothesis
    rw [Nat.succ_add, Config.ahead, Config.ahead, same, bind_assoc]

/-- Where nothing is left to do the session stays. -/
theorem ahead_done (count : Nat) (session : Session) :
    Config.ahead program count ⟨session, []⟩ = .ok ⟨session, []⟩ := by
  induction count with
  | zero => rfl
  | succ count inductionHypothesis => exact inductionHypothesis

/-- One point leads to another. -/
def Leads (program : Program) (first second : Config) : Prop :=
  ∃ count, first.ahead program count = .ok second

/-- With no job done a point leads to itself. -/
theorem Leads.refl (config : Config) : Leads program config config :=
  ⟨0, rfl⟩

/-- Jobs may be done in two parts. -/
theorem Leads.trans {first second third : Config} (head : Leads program first second)
    (tail : Leads program second third) : Leads program first third := by
  obtain ⟨count, ran⟩ := head
  obtain ⟨more, ranOn⟩ := tail
  refine ⟨count + more, ?_⟩
  rw [ahead_add, ran]
  exact ranOn

/-- A job leads to the jobs that it leaves, in front of the others. -/
theorem Leads.step {job : Job} {session after : Session} {jobs : List Job}
    (taken : job.step program session = .ok (jobs, after)) (rest : List Job) :
    Leads program ⟨session, job :: rest⟩ ⟨after, jobs ++ rest⟩ := by
  refine ⟨1, ?_⟩
  have next : Config.next program ⟨session, job :: rest⟩ = .ok ⟨after, jobs ++ rest⟩ := by
    rw [Config.next]
    dsimp only
    rw [taken]
    rfl
  rw [Config.ahead, next]
  rfl

/-- The jobs do what the step does, whatever is still to be done behind them. -/
def Performs (program : Program) (jobs : List Job) (run : Run Unit) : Prop :=
  ∀ session after, run session = .ok ((), after) →
    ∀ rest, Leads program ⟨session, jobs ++ rest⟩ ⟨after, rest⟩

namespace Performs

variable {jobs more : List Job} {job : Job} {run behind : Run Unit}

/-- No jobs do nothing. -/
theorem nil : Performs program [] (pure ()) := by
  rintro session after ⟨⟩ rest
  exact .refl _

/-- The result of a step in sequence is that of the second in the session that the first left. -/
theorem exists_of_bind {first : Run α} {second : α → Run Unit} {session after : Session}
    (ran : (first >>= second) session = .ok ((), after)) :
    ∃ value between, first session = .ok (value, between) ∧
      second value between = .ok ((), after) := by
  cases ranFirst : first session with
  | error panic =>
    rw [run_bind_error ranFirst] at ran
    cases ran
  | ok result =>
    obtain ⟨value, between⟩ := result
    rw [run_bind ranFirst] at ran
    exact ⟨value, between, rfl, ran⟩

/-- Tasks one after the other do one step after the other. -/
theorem append (head : Performs program jobs run) (tail : Performs program more behind) :
    Performs program (jobs ++ more) (run >>= fun _ => behind) := by
  intro session after ran rest
  obtain ⟨⟨⟩, between, ranFirst, ranOn⟩ := exists_of_bind ran
  rw [List.append_assoc]
  exact (head session between ranFirst (more ++ rest)).trans (tail between after ranOn rest)

/-- Jobs are done one behind another. -/
theorem cons (head : Performs program [job] run) (tail : Performs program jobs behind) :
    Performs program (job :: jobs) (run >>= fun _ => behind) :=
  head.append tail

/-- A job that begins as a step does, and leaves jobs that do the rest of it. -/
theorem step {first : Run α} {later : α → List Job} {second : α → Run Unit}
    (taken : job.step program = first >>= fun value => pure (later value))
    (performs : ∀ value, Performs program (later value) (second value)) :
    Performs program [job] (first >>= second) := by
  intro session after ran rest
  obtain ⟨value, between, ranFirst, ranOn⟩ := exists_of_bind ran
  have left : job.step program session = .ok (later value, between) := by
    rw [taken]
    exact run_bind ranFirst _
  exact (Leads.step left rest).trans (performs value between after ranOn rest)

/-- A job that only leaves others. -/
theorem leave (taken : job.step program = pure jobs) (performs : Performs program jobs run) :
    Performs program [job] run := by
  have whole : Performs program [job] ((pure () : Run Unit) >>= fun _ => run) :=
    step (taken.trans (pure_bind () fun _ => pure jobs).symm) fun _ => performs
  rwa [pure_bind] at whole

/-- A job that does a step and leaves nothing. -/
theorem done (taken : job.step program = run >>= fun _ => pure []) :
    Performs program [job] run := by
  have whole : Performs program [job] (run >>= fun _ => pure ()) := step taken fun _ => nil
  rwa [bind_pure_unit] at whole

end Performs

section Statements

variable {jobs : List Job} {run : Run Unit}

/-- A job for what is optional does nothing if it is not there. -/
theorem performs_optional {job : α → Job} {run : α → Run Unit}
    (performs : ∀ value, Performs program [job value] (run value)) (value : Option α) :
    Performs program (Job.optional job value) (optionally run value) := by
  cases value with
  | none => exact .nil
  | some value => exact performs value

/-- Jobs in a scope of their own do what the step does in one. -/
theorem Performs.inScope (inside : Performs program jobs run) :
    Performs program (Job.inScope jobs) (inScope run) :=
  .cons (.done rfl) (inside.append (.done rfl))

/-- Jobs inside a loop do what the step does inside one. -/
theorem Performs.inLoop (inside : Performs program jobs run) :
    Performs program (Job.inLoop jobs) (inLoop run) :=
  .cons (.done rfl) (inside.append (.done rfl))

/-- One job checks a global variable. -/
theorem performs_annotated (declared : VarDecl) (stated : Option Ty) :
    Performs program [.annotated declared stated] (annotatedVar declared stated) :=
  .step rfl fun _ => .done rfl

/-- One job checks a condition. -/
theorem performs_condition (value : Expr) :
    Performs program [.condition value] (condition value) :=
  .done rfl

/-- One job checks an expression for its effect. -/
theorem performs_effect (value : Expr) : Performs program [.effect value] (effect value) :=
  .done rfl

mutual

/-- A statement as a job is checked as it is in a session. -/
theorem performs_stmt (statement : Stmt) :
    Performs program [.stmt statement] (stmt statement) := by
  cases statement with
  | block position body | comptime position body =>
    exact .leave rfl (performs_stmts body).inScope
  | returns position value | breakLoop position | continueLoop position => exact .done rfl
  | branch position test body otherwise =>
    refine .leave rfl ((performs_condition test).cons ?_)
    exact (performs_stmts body).inScope.append (performs_optionalStmt otherwise)
  | whileLoop position test body =>
    exact .leave rfl ((performs_condition test).cons (performs_stmts body).inScope.inLoop)
  | forLoop position init test step body =>
    refine .leave rfl (Performs.inScope ?_)
    refine (performs_optionalStmt init).append ?_
    refine (performs_optional performs_condition test).append ?_
    refine (performs_optional performs_effect step).append ?_
    exact (performs_stmts body).inScope.inLoop
  | expr position value => exact .leave rfl (performs_effect value)
  | declare position declared => exact .step rfl fun stated => performs_annotated declared stated

/-- So are several statements. -/
theorem performs_stmts (statements : List Stmt) :
    Performs program [.stmts statements] (stmts statements) := by
  match statements with
  | [] => exact .leave rfl .nil
  | first :: rest => exact .leave rfl ((performs_stmt first).cons (performs_stmts rest))

/-- So is a statement that may be absent. -/
theorem performs_optionalStmt (statement : Option Stmt) :
    Performs program (Job.optional .stmt statement) (optionalStmt statement) := by
  match statement with
  | none => exact .nil
  | some inner => exact performs_stmt inner

end

end Statements

/-- A step that leaves the scopes alone leaves the session alone. -/
theorem onScopes_pure (value : α) : onScopes (pure value) = pure value :=
  funext fun session => (follows_pure value session rfl).symm

/-- Each parameter is declared by a job of its own. -/
theorem performs_params (params : List Param) (types : List Ty) :
    Performs program [.params params types] (onScopes (declareParams params types)) := by
  induction params generalizing types with
  | nil =>
    rw [declareParams.eq_def, onScopes_pure]
    exact .leave rfl .nil
  | cons param params inductionHypothesis =>
    cases types with
    | nil =>
      rw [declareParams.eq_def, onScopes_pure]
      exact .leave rfl .nil
    | cons type types =>
      rw [declareParams, ← onScopes_bind]
      exact .leave rfl (.cons (.done rfl) (inductionHypothesis types))

/-- The body of a function as a job is checked inside the function. -/
theorem performs_inFunction (enclosing : Enclosing) (statements : List Stmt) :
    Performs program [.inFunction enclosing statements]
      (inFunction enclosing (stmts statements)) := by
  have apart : inFunction enclosing (stmts statements) =
      enterFunction enclosing >>= fun outer =>
        stmts statements >>= fun _ => leaveFunction outer.1 outer.2 := by
    simp only [inFunction, enterFunction, bind_assoc, pure_bind]
    rfl
  rw [apart]
  exact .step rfl fun outer => (performs_stmts statements).cons (.done rfl)

/-- The jobs for a function come to its declaration, declare its parameters and check its body. -/
theorem performs_function (declared : FnDecl) (signature : Signature) :
    Performs program (.reach declared.name :: Job.function declared signature)
      (fnDecl declared signature) := by
  refine .cons (.done rfl) (.append (.inScope ?_) (.done rfl))
  exact (performs_params declared.params signature.params).cons (performs_inFunction _ _)

/-- The second pass as a job does what it does in a session. -/
theorem performs_decls (declarations : Program) (signatures : List Signature)
    (annotations : List (Option Ty)) :
    Performs program [.decls declarations signatures annotations]
      (decls declarations signatures annotations) := by
  induction declarations generalizing signatures annotations with
  | nil => exact .leave rfl .nil
  | cons declaration rest inductionHypothesis =>
    cases declaration with
    | fn declared =>
      cases signatures with
      | nil =>
        rintro session after ⟨⟩
      | cons signature signatures =>
        refine .leave rfl ?_
        exact (performs_function declared signature).append (inductionHypothesis _ _)
    | var declared =>
      cases annotations with
      | nil =>
        rintro session after ⟨⟩
      | cons stated annotations =>
        exact .leave rfl ((performs_annotated declared stated).cons (inductionHypothesis _ _))
    | struct declared => exact .leave rfl (.cons (.done rfl) (inductionHypothesis _ _))

/-- The fields of each struct are resolved by one job and set by another. -/
theorem performs_fields (defined : List StructDecl) :
    Performs program [.fields defined] (defineFields defined) := by
  induction defined with
  | nil => exact .leave rfl .nil
  | cons declared rest inductionHypothesis =>
    exact .step rfl fun found => .cons (.done rfl) inductionHypothesis

/-- Functions and variables are entered as they are in a session, and the second pass follows with
what was found out about them. -/
theorem performs_globals (declarations : Program) (signatures : List Signature)
    (annotations : List (Option Ty)) :
    Performs program [.globals declarations signatures annotations]
      (enterDecls declarations >>= fun found =>
        decls program (signatures ++ found.1) (annotations ++ found.2)) := by
  induction declarations generalizing signatures annotations with
  | nil =>
    rw [enterDecls, pure_bind, List.append_nil, List.append_nil]
    exact .leave rfl (performs_decls program signatures annotations)
  | cons declaration rest inductionHypothesis =>
    cases declaration with
    | fn declared =>
      have apart : enterDecls (.fn declared :: rest) =
          resolveSignature declared >>= fun signature =>
            enter declared.name (.function signature.params signature.result) .function true >>=
              fun _ => enterDecls rest >>= fun found =>
                pure (signature :: found.1, found.2) := by
        simp only [enterDecls, resolveSignature, bind_assoc, pure_bind]
      rw [apart, bind_assoc]
      refine .step rfl fun signature => ?_
      have behind := inductionHypothesis (signatures ++ [signature]) annotations
      simp only [bind_assoc, pure_bind, List.append_assoc, List.singleton_append] at behind ⊢
      exact .cons (.done rfl) behind
    | var declared =>
      rw [enterDecls, bind_assoc]
      refine .step rfl fun stated => ?_
      have behind := inductionHypothesis signatures (annotations ++ [stated])
      simp only [bind_assoc, pure_bind, List.append_assoc, List.singleton_append] at behind ⊢
      exact .cons (.done rfl) behind
    | struct declared => exact .leave rfl (inductionHypothesis signatures annotations)

/-- What follows once all structs have names. -/
def behindNames (program : Program) (defined : List StructDecl) : Run Unit := do
  defineFields defined
  let found ← enterDecls program
  decls program found.1 found.2

/-- Names are given to the structs as in a session, and the rest follows with the structs that were
defined. -/
theorem performs_names (declarations : Program) (defined : List StructDecl) :
    Performs program [.names declarations defined]
      (defineStructs declarations >>= fun found => behindNames program (defined ++ found)) := by
  induction declarations generalizing defined with
  | nil =>
    rw [defineStructs, pure_bind, List.append_nil]
    exact .leave rfl ((performs_fields defined).cons (performs_globals program [] []))
  | cons declaration rest inductionHypothesis =>
    cases declaration with
    | fn declared | var declared => exact .leave rfl (inductionHypothesis defined)
    | struct declared =>
      have apart : defineStructs (.struct declared :: rest) =
          define declared.name.name >>= fun isNew =>
            if isNew then
              enter declared.name (.struct declared.name.name) .struct true >>= fun _ =>
                defineStructs rest >>= fun found => pure (declared :: found)
            else defineStructs rest := by
        rw [defineStructs, define, bind_assoc]
        refine bind_congr fun session => ?_
        cases session.registry.define? declared.name.name with
        | none => rfl
        | some extended => simp only [bind_assoc, pure_bind, if_true]
      rw [apart, bind_assoc]
      refine .step rfl fun isNew => ?_
      cases isNew with
      | false => exact inductionHypothesis defined
      | true =>
        have behind := inductionHypothesis (defined ++ [declared])
        simp only [if_true, bind_assoc, pure_bind, List.append_assoc, List.singleton_append]
          at behind ⊢
        exact .cons (.done rfl) behind

/-- A session over a program goes through points, one after the other, to one where nothing is left
to do. There it has the diagnostics of the program. -/
theorem exists_points (program : Program) :
    ∃ count last, pointAt program count = .ok ⟨last, []⟩ ∧ raised program = .ok last.reports := by
  obtain ⟨last, ran, raises⟩ := run_program program
  have whole : Session.program program =
      defineStructs program >>= fun found => behindNames program ([] ++ found) := rfl
  rw [whole] at ran
  obtain ⟨count, reached⟩ := performs_names program [] initial last ran []
  exact ⟨count, last, reached, raises⟩

/-- There is a point after any number of jobs. -/
theorem exists_pointAt (program : Program) (count : Nat) :
    ∃ config, pointAt program count = .ok config := by
  -- A panic on the way would keep the session from its end.
  obtain ⟨enough, last, reached, -⟩ := exists_points program
  have beyond : pointAt program (count + enough) = .ok ⟨last, []⟩ := by
    rw [Nat.add_comm, pointAt, ahead_add, ← pointAt, reached]
    exact ahead_done count last
  rw [pointAt, ahead_add] at beyond
  cases here : pointAt program count with
  | error panic =>
    rw [pointAt] at here
    rw [here] at beyond
    cases beyond
  | ok config => exact ⟨config, rfl⟩

end SystemsLang.Typing.Session
