import SystemsLang.Proofs.Typing.Grounded
import SystemsLang.Proofs.Typing.Points

/-!
# No point of a session knows a struct that is not there

At every point of a session over a program all types are grounded: those of symbols in all scopes,
of signatures, of fields, of what the current function gives back, of the diagnostics so far, and
those that are kept for what is still to be done. Structs get their names before anything else, so
every job finds the names there that it resolves; it keeps the session grounded and all structs
(`keeps_step`), and the jobs that it leaves know grounded types only. The fields of a struct have
names of their own.

So a type that is found for an expression at any point has its structs in the registry, and members
of a struct are never looked up in one that was not defined (`no_dangling_structs`).
-/

namespace SystemsLang.Typing

open Syntax

variable {registry further : Registry}

/-- A registry has all structs that it has itself. -/
theorem Registry.Grows.refl (registry : Registry) : registry.Grows registry :=
  fun _ there => there

/-- Two steps that lose no struct lose none together. -/
theorem Registry.Grows.trans {last : Registry} (first : registry.Grows further)
    (second : further.Grows last) : registry.Grows last :=
  fun name there => second name (first name there)

/-- With an entry more for a struct all structs are still there. -/
theorem Registry.grows_cons (structs : List (String × Fields)) (struct : String)
    (fields : Fields) : Registry.Grows ⟨structs⟩ ⟨(struct, fields) :: structs⟩ := by
  intro name there
  rw [has, get?] at there ⊢
  rw [List.lookup_cons]
  split
  · rfl
  · exact there

/-- An entry for a struct makes it be there. -/
theorem Registry.has_cons (structs : List (String × Fields)) (name : String) (fields : Fields) :
    Registry.has ⟨(name, fields) :: structs⟩ name = true := by
  simp [has, get?]

/-- A grounded cause stays grounded when structs are added. -/
theorem Diagnostic.Cause.Grounded.mono {cause : Diagnostic.Cause}
    (grounded : cause.Grounded registry) (grows : registry.Grows further) :
    cause.Grounded further :=
  fun type shown => (grounded type shown).mono grows

/-- The fields that a struct is declared with have grounded types, and names of their own: one whose
name another field had before it is left out. -/
theorem grounded_fieldTypes (registry : Registry) (earlier : Fields) (fields : List Field)
    (grounded : ∀ field ∈ earlier, field.2.Grounded registry)
    (distinct : (earlier.map Prod.fst).Nodup) :
    (fieldTypes registry earlier fields).Grounded registry fun found =>
      (∀ field ∈ found, field.2.Grounded registry) ∧ (found.map Prod.fst).Nodup := by
  induction fields generalizing earlier with
  | nil => exact .pure ⟨grounded, distinct⟩
  | cons field rest inductionHypothesis =>
    rw [fieldTypes]
    refine (grounded_resolve registry field.type).bind fun type resolved => ?_
    split
    · refine (Checked.Grounded.report (by simp)).bind fun _ _ => ?_
      exact inductionHypothesis earlier grounded distinct
    · rename_i absent
      have unused : field.name.name ∉ earlier.map Prod.fst := by
        intro used
        obtain ⟨entry, member, same⟩ := List.mem_map.mp used
        exact absent (List.lookup_isSome_iff.mpr ⟨entry, member, beq_iff_eq.mpr same.symm⟩)
      refine inductionHypothesis _ ?_ ?_
      · simpa [or_imp, forall_and, resolved] using grounded
      · rw [List.map_append]
        refine List.nodup_append.mpr ⟨distinct, by simp, ?_⟩
        rintro name member _ last rfl
        have same : name = field.name.name := List.mem_singleton.mp last
        exact unused (same ▸ member)

namespace Scopes.Grounded

variable {scopes : Scopes} {name : String} {symbol : Symbol}

/-- Symbols with grounded types keep them when structs are added. -/
theorem mono (grounded : scopes.Grounded registry) (grows : registry.Grows further) :
    scopes.Grounded further :=
  fun scope there entry member => (grounded scope there entry member).mono grows

/-- A new scope has no symbols, so it adds no type. -/
theorem push (grounded : scopes.Grounded registry) : scopes.push.Grounded registry := by
  intro scope there entry member
  obtain rfl | there := List.mem_cons.mp there
  · cases member
  · exact grounded scope there entry member

/-- The scopes outside of the innermost one hold symbols that were in scope before. -/
theorem pop {outer : Scopes} (grounded : scopes.Grounded registry)
    (popped : scopes.pop = .ok outer) : outer.Grounded registry := by
  unfold Scopes.pop at popped
  split at popped
  · cases popped
  · rename_i innermost rest opened
    obtain rfl := Except.ok.inj popped
    intro scope there
    refine grounded scope ?_
    rw [opened]
    exact List.mem_cons_of_mem _ there

/-- A symbol of a grounded type can go into the innermost scope. -/
theorem insert (grounded : scopes.Grounded registry) (own : symbol.type.Grounded registry) :
    (scopes.insert name symbol).Grounded registry := by
  obtain ⟨opened, global⟩ := scopes
  cases opened with
  | nil =>
    simp only [Scopes.Grounded, Scopes.insert, List.nil_append, List.forall_mem_cons]
      at grounded ⊢
    exact ⟨⟨own, grounded.1⟩, grounded.2⟩
  | cons innermost outer =>
    simp only [Scopes.Grounded, Scopes.insert, List.cons_append, List.forall_mem_cons]
      at grounded ⊢
    exact ⟨⟨own, grounded.1⟩, grounded.2⟩

/-- A symbol that the innermost scope holds has a grounded type. -/
theorem local? (grounded : scopes.Grounded registry) (found : scopes.local? name = some symbol) :
    symbol.type.Grounded registry := by
  obtain ⟨opened, global⟩ := scopes
  cases opened with
  | nil => exact grounded global List.mem_cons_self _ (mem_of_lookup found)
  | cons innermost outer => exact grounded innermost List.mem_cons_self _ (mem_of_lookup found)

/-- Marking a name as declared leaves the types of all symbols. -/
theorem markDeclared (grounded : scopes.Grounded registry) :
    (scopes.markDeclared name).Grounded registry := by
  unfold Scopes.markDeclared
  split
  · rename_i symbol found
    have own : symbol.type.Grounded registry := grounded.local? found
    exact grounded.insert own
  · exact grounded

/-- A name of a grounded type can be entered, whatever its role is. -/
theorem enter {ident : Ident} {type : Ty} {role : Role} {isConst : Bool}
    (grounded : scopes.Grounded registry) (own : type.Grounded registry) :
    (scopes.enter ident type role isConst).Grounded registry := by
  unfold Scopes.enter
  split
  · exact grounded
  · exact grounded.insert own

end Scopes.Grounded

/-- A step that keeps scopes grounded, and shows grounded types only. -/
def Checker.Grounded {α : Type} (registry : Registry) (step : Checker α) : Prop :=
  ∀ scopes outcome, scopes.Grounded registry → step.run scopes = .ok outcome →
    outcome.scopes.Grounded registry ∧ ∀ report ∈ outcome.reports, report.cause.Grounded registry

namespace Checker.Grounded

variable {α : Type}

/-- A change that keeps the symbols in scope grounded reports nothing that is not. -/
theorem change {step : Scopes → Scopes}
    (keeps : ∀ scopes, scopes.Grounded registry → (step scopes).Grounded registry) :
    Grounded registry (Checker.change step) := by
  rintro scopes _ grounded ⟨⟩
  exact ⟨keeps scopes grounded, by simp⟩

/-- Reporting a grounded cause leaves the scopes as they are. -/
theorem report {cause : Diagnostic.Cause} (grounded : cause.Grounded registry)
    (position : Position) : Grounded registry (Checker.report cause position) := by
  rintro scopes _ known ⟨⟩
  exact ⟨known, (Checked.Grounded.report grounded).reports⟩

/-- Looking at the scopes first changes nothing. -/
theorem looking {found : Scopes → α} {next : α → Checker Unit}
    (grounded : ∀ value, Grounded registry (next value)) :
    Grounded registry ((Checker.check fun scopes => pure (found scopes)) >>= next) := by
  intro scopes outcome known ran
  have ranOn : (next (found scopes)).run scopes = .ok outcome := by
    rw [Checker.run] at ran ⊢
    rw [← ran]
    simp only [bind, Checker.check, Checked.value_pure, Checked.reports_pure, List.nil_append]
    cases next (found scopes) scopes <;> rfl
  exact grounded (found scopes) scopes outcome known ranOn

/-- Opening a scope keeps the symbols in scope grounded. -/
theorem push : Grounded registry Checker.push :=
  change fun _ grounded => grounded.push

/-- Closing a scope keeps the symbols in scope grounded; the innermost scope of all is not closed.
-/
theorem pop : Grounded registry Checker.pop := by
  intro scopes outcome grounded ran
  rw [Checker.run, Checker.pop] at ran
  cases popped : scopes.pop with
  | error fault =>
    rw [popped] at ran
    cases ran
  | ok outer =>
    rw [popped] at ran
    obtain rfl := Except.ok.inj ran
    exact ⟨grounded.pop popped, by simp⟩

/-- Declaring a name of a grounded type keeps the symbols grounded, also where the name is taken. -/
theorem declare {symbol : Symbol} (own : symbol.type.Grounded registry) (name : String)
    (position : Position) : Grounded registry (Checker.declare name position symbol) := by
  refine looking fun earlier => ?_
  split
  · exact report (by simp) position
  · exact change fun scopes grounded => grounded.insert own

/-- Coming to a declaration keeps the symbols grounded, whichever way the name is found. -/
theorem reach (registry : Registry) (name : String) (position : Position) :
    Grounded registry (Checker.reach name position) := by
  refine looking fun earlier => ?_
  split
  · exact change fun scopes grounded => grounded.markDeclared
  · exact report (by simp) position

end Checker.Grounded

/-- The type of a variable is the one that is stated or that its initializer has. -/
theorem grounded_varType {context : Context} (grounded : context.Grounded) (declared : VarDecl)
    {stated : Option Ty} (known : ∀ type ∈ stated, type.Grounded context.registry) :
    (varType context declared stated).Grounded context.registry
      (Ty.Grounded context.registry) := by
  unfold varType
  split
  · rename_i expected init _
    have expectedGrounded := known expected rfl
    refine (grounded_exprType grounded init).bind fun actual found => ?_
    exact (grounded_expectCoercible expectedGrounded found).bind fun _ _ => .pure expectedGrounded
  · exact .pure (known _ rfl)
  · exact grounded_exprType grounded _
  · exact .unknownAfter (by simp)

/-- What an annotation denotes is grounded, if there is one. -/
theorem grounded_stated (registry : Registry) (written : Option TypeExpr) :
    (written.mapM registry.resolve : Checked (Option Ty)).Grounded registry
      fun stated => ∀ type ∈ stated, type.Grounded registry := by
  cases written with
  | none => exact .pure (by simp)
  | some written =>
    exact (grounded_resolve registry written).bind fun type resolved =>
      .pure (by simpa using resolved)

namespace Session

/-- All that a session knows is grounded, and the fields of each struct have names of their own. -/
structure Grounded (session : Session) : Prop where
  context : session.context.Grounded
  names : ∀ struct ∈ session.registry.structs, (struct.2.map Prod.fst).Nodup
  reports : ∀ report ∈ session.reports, report.cause.Grounded session.registry

/-- The types in a signature. -/
def Signature.types (signature : Signature) : List Ty :=
  signature.params ++ [signature.result]

/-- The types that are kept for a job. -/
@[simp] def Job.types : Job → List Ty
  | enter _ type _ _ | ending _ type => [type]
  | setFields _ found => found.map Prod.snd
  | globals _ signatures annotations | decls _ signatures annotations =>
    signatures.flatMap Signature.types ++ annotations.filterMap id
  | declare _ symbol => [symbol.type]
  | params _ types => types
  | inFunction enclosing _ => [enclosing.result]
  | leaveFunction enclosing _ => enclosing.toList.map Enclosing.result
  | annotated _ stated => stated.toList
  | _ => []

/-- The names of the fields that are kept for a struct. -/
@[simp] def Job.fieldNames : Job → List String
  | setFields _ found => found.map Prod.fst
  | _ => []

/-- The types that are kept for a job are grounded, and fields that are kept for a struct have names
of their own. -/
structure Job.Grounded (registry : Registry) (job : Job) : Prop where
  types : ∀ type ∈ job.types, type.Grounded registry
  names : job.fieldNames.Nodup

/-- Both parts of what a grounded job is, for the simplifier. -/
@[simp] theorem Job.grounded_iff {job : Job} :
    job.Grounded registry ↔
      (∀ type ∈ job.types, type.Grounded registry) ∧ job.fieldNames.Nodup :=
  ⟨fun grounded => ⟨grounded.types, grounded.names⟩, fun both => ⟨both.1, both.2⟩⟩

/-- What is kept of the declarations of a program: signatures, and annotations if there are any. -/
theorem forall_mem_kept {signatures : List Signature} {annotations : List (Option Ty)} :
    (∀ type ∈ signatures.flatMap Signature.types ++ annotations.filterMap id,
        type.Grounded registry) ↔
      (∀ signature ∈ signatures, ∀ type ∈ signature.types, type.Grounded registry) ∧
        ∀ stated ∈ annotations, ∀ type ∈ stated, type.Grounded registry := by
  rw [List.forall_mem_append, List.forall_mem_flatMap, List.forall_mem_filterMap]
  rfl

/-- The types that are kept for several jobs are grounded. -/
@[simp] def Jobs.Grounded (registry : Registry) (jobs : List Job) : Prop :=
  ∀ job ∈ jobs, job.Grounded registry

/-- What a job keeps stays grounded when structs are added. -/
theorem Job.Grounded.mono {job : Job} (grounded : job.Grounded registry)
    (grows : registry.Grows further) : job.Grounded further :=
  ⟨fun type kept => (grounded.types type kept).mono grows, grounded.names⟩

/-- A session with further diagnostics of grounded types. -/
theorem Grounded.raising {session : Session} (grounded : session.Grounded)
    {reports : List Diagnostic}
    (more : ∀ report ∈ reports, report.cause.Grounded session.registry) :
    (session.raising reports).Grounded where
  context := grounded.context
  names := grounded.names
  reports := fun report member =>
    (List.mem_append.mp member).elim (grounded.reports report) (more report)

/-- A session with an entry more for a struct. -/
theorem Grounded.entering {session : Session} (grounded : session.Grounded) (name : String)
    {fields : Fields} (types : ∀ field ∈ fields, field.2.Grounded session.registry)
    (distinct : (fields.map Prod.fst).Nodup) :
    ({ session with registry := ⟨(name, fields) :: session.registry.structs⟩ } :
      Session).Grounded := by
  have grows : session.registry.Grows ⟨(name, fields) :: session.registry.structs⟩ :=
    Registry.grows_cons session.registry.structs name fields
  refine ⟨⟨grounded.context.symbols.mono grows, ?_, ?_⟩, ?_, ?_⟩
  · refine List.forall_mem_cons.mpr ⟨fun field member => (types field member).mono grows, ?_⟩
    exact fun struct there field member =>
      (grounded.context.fields struct there field member).mono grows
  · exact fun enclosing inside => (grounded.context.result enclosing inside).mono grows
  · exact List.forall_mem_cons.mpr ⟨distinct, grounded.names⟩
  · exact fun report member => (grounded.reports report member).mono grows

/-- A session in another function and inside other loops. -/
theorem Grounded.moving {session : Session} (grounded : session.Grounded)
    {enclosing : Option Enclosing} (loopDepth : Nat)
    (result : ∀ inside ∈ enclosing, inside.result.Grounded session.registry) :
    ({ session with enclosing, loopDepth } : Session).Grounded :=
  ⟨⟨grounded.context.symbols, grounded.context.fields, result⟩, grounded.names, grounded.reports⟩

/-- From a grounded session the step leads to a grounded one, no struct is lost, and what the step
gives is as it has to be for the structs that are there behind it. -/
def Keeps {α : Type} (holds : Registry → α → Prop) (session : Session) (step : Run α) : Prop :=
  ∀ value after, step session = .ok (value, after) →
    after.Grounded ∧ session.registry.Grows after.registry ∧ holds after.registry value

namespace Keeps

variable {α β : Type} {session : Session} {holds : Registry → α → Prop}
  {holdsLater : Registry → β → Prop}

/-- A step that does nothing keeps a grounded session. -/
theorem pure {value : α} (grounded : session.Grounded) (good : holds session.registry value) :
    Keeps holds session (Pure.pure value) := by
  rintro _ _ ⟨⟩
  exact ⟨grounded, .refl _, good⟩

/-- Steps one behind another: the later one starts from a session that has all earlier structs. -/
theorem bind {first : Run α} {second : α → Run β} (head : Keeps holds session first)
    (tail : ∀ value (after : Session), after.Grounded → session.registry.Grows after.registry →
      holds after.registry value → Keeps holdsLater after (second value)) :
    Keeps holdsLater session (first >>= second) := by
  intro result last ran
  cases ranFirst : first session with
  | error panic =>
    rw [run_bind_error ranFirst] at ran
    cases ran
  | ok reached =>
    obtain ⟨value, between⟩ := reached
    rw [run_bind ranFirst] at ran
    obtain ⟨grounded, grows, good⟩ := head value between ranFirst
    obtain ⟨groundedLast, growsOn, goodLast⟩ :=
      tail value between grounded grows good result last ran
    exact ⟨groundedLast, grows.trans growsOn, goodLast⟩

/-- A step that leaves what follows from its result. -/
theorem leaving {first : Run α} {later : α → β} (head : Keeps holds session first)
    (follows : ∀ value further, session.registry.Grows further → holds further value →
      holdsLater further (later value)) :
    Keeps holdsLater session (first >>= fun value => Pure.pure (later value)) :=
  head.bind fun value _ grounded grows good => pure grounded (follows value _ grows good)

/-- Looking something up in the context gives what is grounded, with grounded reports. -/
theorem reading {found : Context → Checked α} (grounded : session.Grounded)
    (good : (found session.context).Grounded session.registry (holds session.registry)) :
    Keeps holds session (reading found) := by
  rintro _ _ ⟨⟩
  exact ⟨grounded.raising good.reports, .refl _, good.value⟩

/-- A step on the scopes leaves the registry, so it keeps what it keeps for the scopes. -/
theorem onScopes {step : Checker Unit} (grounded : session.Grounded)
    (keeps : step.Grounded session.registry) :
    Keeps (fun _ _ => True) session (onScopes step) := by
  intro value after ran
  cases ranStep : step.run session.scopes with
  | error fault =>
    rw [run_onScopes_error ranStep] at ran
    cases ran
  | ok outcome =>
    rw [run_onScopes ranStep] at ran
    obtain ⟨-, rfl⟩ := Prod.mk.inj (Except.ok.inj ran)
    obtain ⟨scopes, reports⟩ := keeps session.scopes outcome grounded.context.symbols ranStep
    have changed : ({ session with scopes := outcome.scopes } : Session).Grounded :=
      ⟨⟨scopes, grounded.context.fields, grounded.context.result⟩, grounded.names,
        grounded.reports⟩
    exact ⟨changed.raising reports, .refl _, trivial⟩

/-- The session is looked at first. -/
theorem looking {next : Session → Run β} (keeps : Keeps holdsLater session (next session)) :
    Keeps holdsLater session (get >>= next) :=
  keeps

end Keeps

section Jobs

variable {session : Session} {α : Type}

/-- A step of which only the diagnostics matter. -/
theorem Keeps.raise {found : Checked Unit} (grounded : session.Grounded)
    (good : found.Grounded session.registry fun _ => True) :
    Keeps (fun _ _ => True) session (raise found) := by
  rw [raise_eq_reading]
  exact .reading grounded good

/-- A step that leaves no jobs. -/
theorem Keeps.done {step : Run Unit} (keeps : Keeps (fun _ _ => True) session step) :
    Keeps Jobs.Grounded session (step >>= fun _ => Pure.pure []) :=
  keeps.leaving fun _ _ _ _ => by simp

/-- The type that is found for an expression is grounded. -/
theorem keeps_expr (grounded : session.Grounded) (value : Expr) :
    Keeps (fun registry type => type.Grounded registry) session (expr value) := by
  rw [expr_eq_reading]
  exact .reading grounded (grounded_exprType grounded.context value)

/-- Checking an expression for its effect keeps the session grounded. -/
theorem keeps_effect (grounded : session.Grounded) (value : Expr) :
    Keeps (fun _ _ => True) session (effect value) :=
  (keeps_expr grounded value).leaving fun _ _ _ _ => trivial

/-- A condition that is no `bool` is reported with the type that it has, and that is grounded. -/
theorem keeps_condition (grounded : session.Grounded) (value : Expr) :
    Keeps (fun _ _ => True) session (condition value) := by
  refine (keeps_expr grounded value).bind fun type after groundedAfter _ found => ?_
  exact .raise groundedAfter (.reportIf (by simpa using found))

/-- What is given back is compared with the result of the function that is being checked. -/
theorem keeps_returnValue (grounded : session.Grounded) (position : Position)
    (value : Option Expr) : Keeps (fun _ _ => True) session (returnValue position value) := by
  refine .looking ?_
  cases inside : session.enclosing with
  | none => exact .pure grounded trivial
  | some enclosing =>
    have result : enclosing.result.Grounded session.registry :=
      grounded.context.result enclosing inside
    cases value with
    | some value =>
      refine (keeps_expr grounded value).bind fun actual after groundedAfter grows found => ?_
      split
      · exact .raise groundedAfter (.report (by simp))
      · exact .raise groundedAfter (grounded_expectCoercible (result.mono grows) found)
    | none =>
      dsimp only [givenBack]
      split
      · exact .raise grounded (.report (by simp))
      · exact .pure grounded trivial

/-- A jump outside of loops is reported, and in a loop nothing happens. -/
theorem keeps_jump (grounded : session.Grounded) {cause : Diagnostic.Cause}
    (shows : cause.Grounded session.registry) (position : Position) :
    Keeps (fun _ _ => True) session (jump cause position) := by
  refine .looking ?_
  split
  · exact .raise grounded (.report shows)
  · exact .pure grounded trivial

/-- A function without the `return` that it needs is reported by name, with no type. -/
theorem keeps_ending (grounded : session.Grounded) (declared : FnDecl) (result : Ty) :
    Keeps (fun _ _ => True) session (ending declared result) := by
  unfold ending
  split
  · exact .raise grounded (.report (by simp))
  · exact .pure grounded trivial

/-- What encloses a function is kept while the function is checked. -/
theorem keeps_enterFunction (grounded : session.Grounded) {enclosing : Enclosing}
    (result : enclosing.result.Grounded session.registry) :
    Keeps (fun registry outer => ∀ inside ∈ outer.1, inside.result.Grounded registry) session
      (enterFunction enclosing) := by
  rintro _ _ ⟨⟩
  exact ⟨grounded.moving 0 (by simpa using result), .refl _, grounded.context.result⟩

/-- Going back to the enclosing function takes up the result that was there before. -/
theorem keeps_leaveFunction (grounded : session.Grounded) {enclosing : Option Enclosing}
    (result : ∀ inside ∈ enclosing, inside.result.Grounded session.registry) (loopDepth : Nat) :
    Keeps (fun _ _ => True) session (leaveFunction enclosing loopDepth) := by
  rintro _ _ ⟨⟩
  exact ⟨grounded.moving loopDepth result, .refl _, trivial⟩

/-- Entering a loop changes only how many loops there are around. -/
theorem keeps_enterLoop (grounded : session.Grounded) :
    Keeps (fun _ _ => True) session enterLoop := by
  rintro _ _ ⟨⟩
  exact ⟨grounded.moving (session.loopDepth + 1) grounded.context.result, .refl _, trivial⟩

/-- Leaving a loop changes only how many loops there are around. -/
theorem keeps_leaveLoop (grounded : session.Grounded) :
    Keeps (fun _ _ => True) session leaveLoop := by
  intro value after ran
  unfold leaveLoop at ran
  split at ran
  · cases ran
  · rename_i depth _
    obtain ⟨-, rfl⟩ := Prod.mk.inj (Except.ok.inj ran)
    exact ⟨grounded.moving depth grounded.context.result, .refl _, trivial⟩

/-- A struct that is defined has no fields yet. -/
theorem keeps_define (grounded : session.Grounded) (name : String) :
    Keeps (fun registry isNew => isNew = true → registry.has name = true) session
      (define name) := by
  refine .looking ?_
  cases defined : session.registry.define? name with
  | none => exact .pure grounded (by simp)
  | some extended =>
    rintro _ _ ⟨⟩
    unfold Registry.define? at defined
    split at defined
    · cases defined
    · obtain rfl := Option.some.inj defined
      exact ⟨grounded.entering name (by simp) (by simp), Registry.grows_cons _ name [],
        fun _ => Registry.has_cons _ name []⟩

/-- A struct can be given fields of grounded types and with names of their own. -/
theorem keeps_setFields (grounded : session.Grounded) (name : String) {fields : Fields}
    (types : ∀ field ∈ fields, field.2.Grounded session.registry)
    (distinct : (fields.map Prod.fst).Nodup) :
    Keeps (fun _ _ => True) session (setFields name fields) := by
  intro value after ran
  unfold setFields Registry.setFields at ran
  split at ran
  · cases ran
  · rename_i extended set
    obtain ⟨-, rfl⟩ := Prod.mk.inj (Except.ok.inj ran)
    split at set
    · obtain rfl := Except.ok.inj set
      exact ⟨grounded.entering name types distinct, Registry.grows_cons _ name fields, trivial⟩
    · cases set

/-- All types of a signature are grounded, those of its parameters and of its result. -/
theorem keeps_resolveSignature (grounded : session.Grounded) (declared : FnDecl) :
    Keeps (fun registry signature => ∀ type ∈ signature.types, type.Grounded registry) session
      (resolveSignature declared) := by
  have params : (paramTypes session.registry declared.params).Grounded session.registry
      fun types => ∀ type ∈ types, type.Grounded session.registry :=
    .mapM fun param _ => grounded_resolve session.registry param.type
  have head : Keeps (fun registry types => ∀ type ∈ types, Ty.Grounded registry type) session
      (reading fun context => paramTypes context.registry declared.params) :=
    .reading grounded params
  refine head.bind fun types after groundedAfter _ known => ?_
  have tail : Keeps (fun registry type => Ty.Grounded registry type) after
      (reading fun context => context.registry.resolve declared.returnType) :=
    .reading groundedAfter (grounded_resolve after.registry declared.returnType)
  refine tail.leaving fun result further grows resolved => ?_
  simp only [Signature.types, List.mem_append, List.mem_singleton, or_imp, forall_and,
    forall_eq]
  exact ⟨fun type member => (known type member).mono grows, resolved⟩

/-- A variable has the type that is stated or the one of its value, and both are grounded. -/
theorem keeps_varType (grounded : session.Grounded) (declared : VarDecl) {stated : Option Ty}
    (known : ∀ type ∈ stated, type.Grounded session.registry) :
    Keeps (fun registry type => type.Grounded registry) session (varType declared stated) := by
  rw [varType_eq_reading]
  exact .reading grounded (grounded_varType grounded.context declared known)

/-- The type that is stated for a variable is grounded, if one is. -/
theorem keeps_stated (grounded : session.Grounded) (declared : VarDecl) :
    Keeps (fun registry stated => ∀ type ∈ stated, type.Grounded registry) session
      (reading fun context => declared.type.mapM context.registry.resolve) :=
  .reading grounded (grounded_stated session.registry declared.type)

variable (program : Program)

/-- A struct is only entered as a symbol when the registry has it already. -/
theorem keeps_step_names (grounded : session.Grounded) (rest : Program)
    (defined : List StructDecl) :
    Keeps Jobs.Grounded session (Job.step program (.names rest defined)) := by
  cases rest with
  | nil => exact .pure grounded (by simp)
  | cons declaration rest =>
    cases declaration with
    | fn declared | var declared => exact .pure grounded (by simp)
    | struct declared =>
      refine (keeps_define grounded declared.name.name).leaving fun isNew further _ there => ?_
      cases isNew with
      | false => simp
      | true => simp [there]

/-- The fields of a struct are resolved before they are kept for it. -/
theorem keeps_step_fields (grounded : session.Grounded) (rest : List StructDecl) :
    Keeps Jobs.Grounded session (Job.step program (.fields rest)) := by
  cases rest with
  | nil => exact .pure grounded (by simp)
  | cons declared rest =>
    have found : Keeps (fun registry found => (∀ field ∈ found, field.2.Grounded registry) ∧
        (found.map Prod.fst).Nodup) session
        (reading fun context => fieldTypes context.registry [] declared.fields) :=
      .reading grounded (grounded_fieldTypes session.registry [] declared.fields (by simp)
        (by simp))
    refine found.leaving fun fields further _ good => ?_
    exact List.forall_mem_cons.mpr ⟨⟨List.forall_mem_map.mpr good.1, good.2⟩, by simp⟩

/-- What is resolved for a function or a global is kept for the pass over its body or value. -/
theorem keeps_step_globals (grounded : session.Grounded) (rest : Program)
    {signatures : List Signature} {annotations : List (Option Ty)}
    (kept : (Job.globals rest signatures annotations).Grounded session.registry) :
    Keeps Jobs.Grounded session (Job.step program (.globals rest signatures annotations)) := by
  cases rest with
  | nil => exact .pure grounded (List.forall_mem_singleton.mpr ⟨kept.types, kept.names⟩)
  | cons declaration rest =>
    cases declaration with
    | fn declared =>
      refine (keeps_resolveSignature grounded declared).leaving
        fun signature further grows good => ?_
      obtain ⟨known, others⟩ := forall_mem_kept.mp (kept.mono grows).types
      obtain ⟨params, result⟩ := List.forall_mem_append.mp good
      have own : (Ty.function signature.params signature.result).Grounded further :=
        Ty.grounded_function.mpr ⟨params, result _ List.mem_cons_self⟩
      have all : (Job.globals rest (signatures ++ [signature]) annotations).Grounded further := by
        refine ⟨forall_mem_kept.mpr ⟨?_, others⟩, List.nodup_nil⟩
        exact List.forall_mem_append.mpr ⟨known, List.forall_mem_singleton.mpr good⟩
      exact List.forall_mem_cons.mpr ⟨by simpa using own, List.forall_mem_singleton.mpr all⟩
    | var declared =>
      refine (keeps_stated grounded declared).leaving fun stated further grows good => ?_
      obtain ⟨known, others⟩ := forall_mem_kept.mp (kept.mono grows).types
      have own : (stated.getD .unknown).Grounded further := by
        cases stated with
        | none => exact Ty.grounded_unknown
        | some type => exact good type rfl
      have all : (Job.globals rest signatures (annotations ++ [stated])).Grounded further := by
        refine ⟨forall_mem_kept.mpr ⟨known, ?_⟩, List.nodup_nil⟩
        exact List.forall_mem_append.mpr ⟨others, List.forall_mem_singleton.mpr good⟩
      exact List.forall_mem_cons.mpr ⟨by simpa using own, List.forall_mem_singleton.mpr all⟩
    | struct declared =>
      exact .pure grounded (List.forall_mem_singleton.mpr ⟨kept.types, kept.names⟩)

/-- What is kept for a function is its signature. -/
theorem grounded_function (declared : FnDecl) {signature : Signature}
    (known : ∀ type ∈ signature.types, type.Grounded registry) :
    Jobs.Grounded registry (Job.function declared signature) := by
  obtain ⟨params, result⟩ := List.forall_mem_append.mp known
  have given : signature.result.Grounded registry := result _ List.mem_cons_self
  simpa [Job.function, Job.inScope, given] using params

/-- Checking a declaration takes what the earlier pass has kept for it. -/
theorem keeps_step_decls (grounded : session.Grounded) (rest : Program)
    {signatures : List Signature} {annotations : List (Option Ty)}
    (kept : (Job.decls rest signatures annotations).Grounded session.registry) :
    Keeps Jobs.Grounded session (Job.step program (.decls rest signatures annotations)) := by
  obtain ⟨known, stated⟩ := forall_mem_kept.mp kept.types
  cases rest with
  | nil => exact .pure grounded (by simp)
  | cons declaration rest =>
    cases declaration with
    | fn declared =>
      cases signatures with
      | nil => rintro _ _ ⟨⟩
      | cons signature signatures =>
        refine .pure grounded ?_
        obtain ⟨own, later⟩ := List.forall_mem_cons.mp known
        have others : (Job.decls rest signatures annotations).Grounded session.registry :=
          ⟨forall_mem_kept.mpr ⟨later, stated⟩, List.nodup_nil⟩
        refine List.forall_mem_cons.mpr ⟨by simp, List.forall_mem_append.mpr ?_⟩
        exact ⟨grounded_function declared own, List.forall_mem_singleton.mpr others⟩
    | var declared =>
      cases annotations with
      | nil => rintro _ _ ⟨⟩
      | cons annotation annotations =>
        refine .pure grounded ?_
        obtain ⟨own, later⟩ := List.forall_mem_cons.mp stated
        have others : (Job.decls rest signatures annotations).Grounded session.registry :=
          ⟨forall_mem_kept.mpr ⟨known, later⟩, List.nodup_nil⟩
        exact List.forall_mem_cons.mpr ⟨by simpa using own, List.forall_mem_singleton.mpr others⟩
    | struct declared =>
      have others : (Job.decls rest signatures annotations).Grounded session.registry :=
        ⟨kept.types, kept.names⟩
      exact .pure grounded
        (List.forall_mem_cons.mpr ⟨by simp, List.forall_mem_singleton.mpr others⟩)

/-- Of a statement nothing is kept but the annotation of a variable. -/
theorem keeps_step_stmt (grounded : session.Grounded) (statement : Stmt) :
    Keeps Jobs.Grounded session (Job.step program (.stmt statement)) := by
  cases statement with
  | block position body | comptime position body =>
    exact .pure grounded (by simp [Job.block, Job.inScope])
  | returns position value => exact (keeps_returnValue grounded position value).done
  | branch position test body otherwise =>
    exact .pure grounded (by simp [Job.block, Job.inScope, Job.optional, or_imp, forall_and])
  | whileLoop position test body =>
    exact .pure grounded (by simp [Job.block, Job.inScope, Job.inLoop])
  | forLoop position init test step body =>
    refine .pure grounded ?_
    simp [Job.block, Job.inScope, Job.inLoop, Job.optional, or_imp, forall_and]
  | breakLoop position | continueLoop position =>
    exact (keeps_jump grounded (by simp) position).done
  | expr position value => exact .pure grounded (by simp)
  | declare position declared =>
    refine (keeps_stated grounded declared).leaving fun stated further _ good => ?_
    simpa using good

/-- Every job keeps a session grounded, and leaves only jobs that know grounded types. -/
theorem keeps_step (grounded : session.Grounded) {job : Job}
    (kept : job.Grounded session.registry) :
    Keeps Jobs.Grounded session (job.step program) := by
  cases job with
  | names rest defined => exact keeps_step_names program grounded rest defined
  | enter name type role isConst =>
    have own : type.Grounded session.registry := by simpa using kept
    have keeps : Keeps (fun _ _ => True) session (Session.enter name type role isConst) :=
      .onScopes grounded (.change fun scopes known => known.enter own)
    exact keeps.done
  | fields rest => exact keeps_step_fields program grounded rest
  | setFields name found =>
    have types := List.forall_mem_map.mp kept.types
    exact (keeps_setFields grounded name types kept.names).done
  | globals rest signatures annotations => exact keeps_step_globals program grounded rest kept
  | decls rest signatures annotations => exact keeps_step_decls program grounded rest kept
  | reach name =>
    have keeps := Keeps.onScopes grounded (.reach session.registry name.name name.position)
    exact keeps.done
  | declare name symbol =>
    have own : symbol.type.Grounded session.registry := by simpa using kept
    have keeps := Keeps.onScopes grounded (.declare own name.name name.position)
    exact keeps.done
  | params params types =>
    cases params with
    | nil => exact .pure grounded (by simp)
    | cons param params =>
      cases types with
      | nil => exact .pure grounded (by simp)
      | cons type types => exact .pure grounded (by simpa [Job.paramSymbol] using kept)
  | inFunction enclosing statements =>
    have result : enclosing.result.Grounded session.registry := by simpa using kept
    refine (keeps_enterFunction grounded result).leaving fun outer further _ around => ?_
    simpa using around
  | leaveFunction enclosing loopDepth =>
    have result : ∀ inside ∈ enclosing, inside.result.Grounded session.registry := by
      simpa using kept
    exact (keeps_leaveFunction grounded result loopDepth).done
  | ending declared result => exact (keeps_ending grounded declared result).done
  | openScope => exact (Keeps.onScopes grounded .push).done
  | closeScope => exact (Keeps.onScopes grounded .pop).done
  | enterLoop => exact (keeps_enterLoop grounded).done
  | leaveLoop => exact (keeps_leaveLoop grounded).done
  | stmts statements =>
    cases statements with
    | nil | cons first rest => exact .pure grounded (by simp)
  | stmt statement => exact keeps_step_stmt program grounded statement
  | condition value => exact (keeps_condition grounded value).done
  | effect value => exact (keeps_effect grounded value).done
  | annotated declared stated =>
    have known : ∀ type ∈ stated, type.Grounded session.registry := by simpa using kept
    refine (keeps_varType grounded declared known).leaving fun type further _ found => ?_
    simpa [varSymbol] using found

end Jobs

/-- All that is known at a point is grounded: what the session knows, and what is kept for the jobs
that are still to be done. -/
structure Config.Grounded (config : Config) : Prop where
  session : config.session.Grounded
  todo : Jobs.Grounded config.session.registry config.todo

variable {program : Program}

/-- Before anything was checked nothing is known. -/
theorem grounded_start (program : Program) :
    Config.Grounded ⟨initial, [.names program []]⟩ where
  session :=
    { context := ⟨by simp [Scopes.Grounded, initial, context, Scopes.empty],
        by simp [initial, context, Registry.empty], by simp [initial, context]⟩
      names := by simp [initial, Registry.empty]
      reports := by simp [initial] }
  todo := by simp

/-- From one point to the next everything stays grounded. -/
theorem Config.Grounded.next {config next : Config} (grounded : config.Grounded)
    (reached : config.next program = .ok next) : next.Grounded := by
  obtain ⟨session, todo⟩ := config
  cases todo with
  | nil =>
    obtain rfl := Except.ok.inj reached
    exact grounded
  | cons job rest =>
    -- The jobs behind the first were resolved with fewer structs; none of those is lost.
    obtain ⟨first, others⟩ := List.forall_mem_cons.mp grounded.todo
    rw [Config.next] at reached
    dsimp only at reached
    cases ran : job.step program session with
    | error panic =>
      rw [ran] at reached
      cases reached
    | ok result =>
      obtain ⟨jobs, after⟩ := result
      rw [ran] at reached
      obtain rfl := Except.ok.inj reached
      obtain ⟨groundedAfter, grows, left⟩ :=
        keeps_step program grounded.session first jobs after ran
      refine ⟨groundedAfter, List.forall_mem_append.mpr ⟨left, fun later member => ?_⟩⟩
      exact (others later member).mono grows

/-- So it stays over any number of jobs. -/
theorem Config.Grounded.ahead {config last : Config} (grounded : config.Grounded) {count : Nat}
    (reached : config.ahead program count = .ok last) : last.Grounded := by
  induction count generalizing config with
  | zero =>
    obtain rfl := Except.ok.inj reached
    exact grounded
  | succ count inductionHypothesis =>
    rw [Config.ahead] at reached
    cases ran : config.next program with
    | error panic =>
      rw [ran] at reached
      cases reached
    | ok next =>
      rw [ran] at reached
      exact inductionHypothesis (grounded.next ran) reached

/-- A session over a program is at a point after any number of jobs, and at each point everything
is grounded: the types of symbols, signatures and fields, the result of the current function, the
types in diagnostics, and what is kept for jobs to come; and no struct has two fields of one name.
Whatever expression is checked there has a grounded type, with grounded types in its diagnostics,
and members are looked up only in structs that have been defined. The session goes through all
points up to one where nothing is left to do, with the diagnostics of the program. -/
theorem no_dangling_structs (program : Program) :
    (∀ count, ∃ config, pointAt program count = .ok config ∧ config.Grounded ∧
      (∀ value, (exprType config.session.context value).Grounded config.session.registry
        (Ty.Grounded config.session.registry)) ∧
      ∀ object name, memberBase (exprType config.session.context object).value = .struct name →
        ∃ fields, config.session.registry.get? name = some fields) ∧
    ∃ count last, pointAt program count = .ok ⟨last, []⟩ ∧
      raised program = .ok last.reports := by
  refine ⟨fun count => ?_, exists_points program⟩
  obtain ⟨config, reached⟩ := exists_pointAt program count
  have grounded := (grounded_start program).ahead reached
  exact ⟨config, reached, grounded, grounded_exprType grounded.session.context,
    fun object name base => exists_fields_of_member grounded.session.context base⟩

end Session

end SystemsLang.Typing
