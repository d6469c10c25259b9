import SystemsLang.Proofs.Typing.Confined
import SystemsLang.Proofs.Typing.Views

/-!
# Steps inside a function see bindings only

What the global scope holds is seen by the statements of a function body only as far as it binds
names. In another global scope that binds the same, and with another registry that has the same
structs, each step ends in the same open scopes and with the same diagnostics. So checking the body
of a function does not tell how the scopes came about in which it is checked.
-/

namespace SystemsLang.Typing

open Syntax Checker

variable {α β : Type}

/-- Two steps that are confined to the innermost scope and do the same there, the second in scopes
with another global scope that binds the same. -/
def Agree (first second : Checker α) : Prop :=
  ∀ scopes : Scopes, scopes.opened ≠ [] → ∀ global, frameOf scopes.global = frameOf global →
    ∃ outcome, first.run scopes = .ok outcome ∧ Beside scopes outcome.scopes ∧
      second.run ⟨scopes.opened, global⟩ =
        .ok { outcome with scopes := ⟨outcome.scopes.opened, global⟩ }

/-- A step that does nothing agrees with itself. -/
theorem agree_pure (value : α) : Agree (pure value) (pure value) :=
  fun _ inside _ _ => ⟨_, rfl, .refl inside, rfl⟩

/-- Steps that look at the scopes agree if they find the same. -/
theorem agree_check {first second : Scopes → Checked α}
    (same : ∀ scopes global, frameOf scopes.global = frameOf global →
      second ⟨scopes.opened, global⟩ = first scopes) : Agree (check first) (check second) := by
  intro scopes inside global frames
  refine ⟨_, rfl, .refl inside, ?_⟩
  rw [Checker.run, check, same scopes global frames]

/-- Steps in sequence agree if both parts do. -/
theorem agree_bind {first second : Checker α} {next next' : α → Checker β}
    (agree : Agree first second) (follows : ∀ value, Agree (next value) (next' value)) :
    Agree (first >>= next) (second >>= next') := by
  intro scopes inside global frames
  obtain ⟨before, ran, beside, ranToo⟩ := agree scopes inside global frames
  have still : frameOf before.scopes.global = frameOf global := by rw [beside.global, frames]
  obtain ⟨behind, ranOn, besideOn, ranOnToo⟩ :=
    follows before.value before.scopes beside.inside global still
  exact ⟨_, run_bind_ok ran ranOn, beside.trans besideOn, run_bind_ok ranToo ranOnToo⟩

/-- A report looks at no scope. -/
theorem agree_report (cause : Diagnostic.Cause) (position : Position) :
    Agree (report cause position) (report cause position) :=
  agree_check fun _ _ _ => rfl

/-- A symbol goes into the innermost scope, which is not the global one. -/
theorem agree_insert (name : String) (symbol : Symbol) :
    Agree (change fun scopes => scopes.insert name symbol)
      (change fun scopes => scopes.insert name symbol) := by
  intro scopes inside global frames
  refine ⟨_, rfl, .insert inside name symbol, ?_⟩
  obtain ⟨opened, _⟩ := scopes
  cases opened with
  | nil => exact absurd rfl inside
  | cons innermost outer => rfl

/-- One of two steps agrees with the step that is taken on the same condition. -/
theorem agree_ite {condition : Prop} [Decidable condition] {yes yes' no no' : Checker α}
    (whenTrue : Agree yes yes') (whenFalse : Agree no no') :
    Agree (if condition then yes else no) (if condition then yes' else no') := by
  split
  · exact whenTrue
  · exact whenFalse

/-- Steps that agree, each in a scope of its own, raise the same diagnostics and leave the scopes as
they were, also where no other scope is open. -/
theorem run_inScope_agree {first second : Checker Unit} (agree : Agree first second)
    (scopes : Scopes) {global : Scope} (frames : frameOf scopes.global = frameOf global) :
    ∃ reports, (inScope first).run scopes = .ok ⟨(), scopes, reports⟩ ∧
      (inScope second).run ⟨scopes.opened, global⟩ =
        .ok ⟨(), ⟨scopes.opened, global⟩, reports⟩ := by
  obtain ⟨outcome, ran, beside, ranToo⟩ :=
    agree scopes.push (List.cons_ne_nil _ _) global frames
  have besideToo : Beside (Scopes.push ⟨scopes.opened, global⟩)
      ⟨outcome.scopes.opened, global⟩ := ⟨beside.inside, beside.outer, rfl⟩
  have opens : Scopes.push ⟨scopes.opened, global⟩ = ⟨scopes.push.opened, global⟩ := rfl
  rw [Checker.run] at ran ranToo
  refine ⟨outcome.reports, ?_, ?_⟩
  · simp [Checker.run, inScope, push, pop, change, bind, ran, beside.pop, Except.map]
  · simp [Checker.run, inScope, push, pop, change, bind, opens, ranToo, besideToo.pop, Except.map]

/-- Steps that agree do so in a scope of their own. -/
theorem agree_inScope {first second : Checker Unit} (agree : Agree first second) :
    Agree (inScope first) (inScope second) := by
  intro scopes inside global frames
  obtain ⟨reports, ran, ranToo⟩ := run_inScope_agree agree scopes frames
  exact ⟨_, ran, .refl inside, ranToo⟩

/-- Whether a name is declared already depends on the innermost scope only. -/
theorem agree_declare (name : String) (position : Position) (symbol : Symbol) :
    Agree (declare name position symbol) (declare name position symbol) := by
  have earlier : Agree (check fun scopes => pure (scopes.local? name))
      (check fun scopes => pure (scopes.local? name)) := by
    intro scopes inside global frames
    refine ⟨_, rfl, .refl inside, ?_⟩
    obtain ⟨opened, _⟩ := scopes
    cases opened with
    | nil => exact absurd rfl inside
    | cons innermost outer => rfl
  exact agree_bind earlier fun _ => agree_ite (agree_report _ _) (agree_insert name symbol)

/-- A step for what is optional agrees if it does for what is there. -/
theorem agree_optionally {first second : α → Checker Unit}
    (agree : ∀ value, Agree (first value) (second value)) (optional : Option α) :
    Agree (optionally first optional) (optionally second optional) := by
  cases optional with
  | none => exact agree_pure ()
  | some value => exact agree value

variable {known known' : Registry}

section Parts

variable (same : known.get? = known'.get?) (enclosing : Enclosing)
include same

/-- Contexts in scopes whose global scopes bind the same stand for the same. -/
theorem context_alike (enclosing : Option Enclosing) (scopes : Scopes) {global : Scope}
    (frames : frameOf scopes.global = frameOf global) :
    Context.Alike ⟨known', ⟨scopes.opened, global⟩, enclosing⟩ ⟨known, scopes, enclosing⟩ where
  env := by
    unfold Context.env
    rw [frames, same]
  enclosing := rfl

/-- A local variable has the same type and is declared in the same scope. -/
theorem agree_localVar (declared : VarDecl) :
    Agree (localVar ⟨known, enclosing⟩ declared) (localVar ⟨known', enclosing⟩ declared) := by
  have resolved : known'.resolve = known.resolve :=
    funext fun type => resolve_congr (has_congr same.symm) type
  refine agree_bind (agree_check fun _ _ _ => ?_) fun stated =>
    agree_bind (agree_check fun scopes global frames => ?_) fun _ => agree_declare _ _ _
  · rw [resolved]
  · have alike := context_alike same (some enclosing) scopes frames
    unfold varType
    simp only [Surroundings.context, exprType_congr alike]

/-- A condition is checked alike. -/
theorem agree_condition (value : Expr) :
    Agree (condition ⟨known, enclosing⟩ value) (condition ⟨known', enclosing⟩ value) := by
  refine agree_check fun scopes global frames => ?_
  have alike := context_alike same (some enclosing) scopes frames
  simp only [Surroundings.context, exprType_congr alike]

/-- An expression that is checked for its effect is checked alike. -/
theorem agree_effect (value : Expr) :
    Agree (effect ⟨known, enclosing⟩ value) (effect ⟨known', enclosing⟩ value) := by
  refine agree_check fun scopes global frames => ?_
  have alike := context_alike same (some enclosing) scopes frames
  simp only [Surroundings.context, exprType_congr alike]

/-- What is given back is checked against the same result. -/
theorem agree_returnValue (position : Position) (value : Option Expr) :
    Agree (returnValue ⟨known, enclosing⟩ position value)
      (returnValue ⟨known', enclosing⟩ position value) := by
  cases value with
  | some value =>
    refine agree_check fun scopes global frames => ?_
    have alike := context_alike same (some enclosing) scopes frames
    simp only [Surroundings.context, exprType_congr alike]
  | none => exact agree_ite (agree_report _ _) (agree_pure ())

end Parts

mutual

/-- Checking a statement agrees with checking it where the same is bound. -/
theorem agree_stmt (same : known.get? = known'.get?) (enclosing : Enclosing) (inLoop : Bool)
    (statement : Stmt) :
    Agree (stmt ⟨known, enclosing⟩ inLoop statement)
      (stmt ⟨known', enclosing⟩ inLoop statement) := by
  cases statement with
  | block position body | comptime position body =>
    exact agree_inScope (agree_stmts same enclosing inLoop body)
  | returns position value => exact agree_returnValue same enclosing position value
  | branch position test body otherwise =>
    rw [stmt, stmt]
    exact agree_bind (agree_condition same enclosing test) fun _ =>
      agree_bind (agree_inScope (agree_stmts same enclosing inLoop body)) fun _ =>
        agree_optionalStmt same enclosing inLoop otherwise
  | whileLoop position test body =>
    rw [stmt, stmt]
    exact agree_bind (agree_condition same enclosing test) fun _ =>
      agree_inScope (agree_stmts same enclosing true body)
  | forLoop position init test step body =>
    rw [stmt, stmt]
    exact agree_inScope <| agree_bind (agree_optionalStmt same enclosing inLoop init) fun _ =>
      agree_bind (agree_optionally (agree_condition same enclosing) test) fun _ =>
      agree_bind (agree_optionally (agree_effect same enclosing) step) fun _ =>
      agree_inScope (agree_stmts same enclosing true body)
  | breakLoop position | continueLoop position =>
    exact agree_ite (agree_pure ()) (agree_report _ _)
  | expr position value => exact agree_effect same enclosing value
  | declare position declared => exact agree_localVar same enclosing declared

/-- So do several. -/
theorem agree_stmts (same : known.get? = known'.get?) (enclosing : Enclosing) (inLoop : Bool)
    (statements : List Stmt) :
    Agree (stmts ⟨known, enclosing⟩ inLoop statements)
      (stmts ⟨known', enclosing⟩ inLoop statements) := by
  match statements with
  | [] => exact agree_pure ()
  | first :: rest =>
    rw [stmts, stmts]
    exact agree_bind (agree_stmt same enclosing inLoop first) fun _ =>
      agree_stmts same enclosing inLoop rest

/-- And so does one that may be absent. -/
theorem agree_optionalStmt (same : known.get? = known'.get?) (enclosing : Enclosing)
    (inLoop : Bool) (optional : Option Stmt) :
    Agree (optionalStmt ⟨known, enclosing⟩ inLoop optional)
      (optionalStmt ⟨known', enclosing⟩ inLoop optional) := by
  match optional with
  | none => exact agree_pure ()
  | some inner => exact agree_stmt same enclosing inLoop inner

end

/-- Parameters are declared in the same scope. -/
theorem agree_declareParams (params : List Param) (types : List Ty) :
    Agree (declareParams params types) (declareParams params types) := by
  induction params generalizing types with
  | nil => exact agree_pure ()
  | cons param params inductionHypothesis =>
    cases types with
    | nil => exact agree_pure ()
    | cons type types =>
      exact agree_bind (agree_declare _ _ _) fun _ => inductionHypothesis types

end SystemsLang.Typing
