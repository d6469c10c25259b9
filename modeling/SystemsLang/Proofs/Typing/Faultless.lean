import SystemsLang.Proofs.Typing.Confined

/-!
# Checking never ends in a fault

A fault is a mistake of the checker and not of the program: closing the global scope, or giving
fields to a struct that is not defined. Neither happens, whatever the program is. Every scope that
is closed was opened for statements that leave it open, and fields are given to the structs of the
registry only, which gains structs and never loses one.
-/

namespace SystemsLang.Typing

open Syntax Checker

variable {registry : Registry} {scopes : Scopes} {program : Program} {name : String}

/-- A step that ends without a fault in whatever scopes it is taken. -/
def Ends {α : Type} (step : Checker α) : Prop :=
  ∀ scopes, ∃ outcome, step.run scopes = .ok outcome

variable {α β : Type}

/-- A step that does nothing ends. -/
theorem ends_pure (value : α) : Ends (pure value) :=
  fun _ => ⟨_, rfl⟩

/-- A step that looks at the scopes ends. -/
theorem ends_check (step : Scopes → Checked α) : Ends (check step) :=
  fun _ => ⟨_, rfl⟩

/-- A step that changes the scopes ends. -/
theorem ends_change (step : Scopes → Scopes) : Ends (change step) :=
  fun _ => ⟨_, rfl⟩

/-- Of two steps in sequence the second is taken where the first ends. -/
theorem ends_bind {first : Checker α} {second : α → Checker β} (ends : Ends first)
    (follows : ∀ value, Ends (second value)) : Ends (first >>= second) := by
  intro scopes
  obtain ⟨before, ran⟩ := ends scopes
  obtain ⟨behind, ranOn⟩ := follows before.value before.scopes
  rw [Checker.run] at ran ranOn
  exact ⟨{ behind with reports := before.reports ++ behind.reports },
    by simp only [Checker.run, bind, ran, ranOn]⟩

/-- A step that changes nothing below the innermost scope ends in a scope of its own. -/
theorem ends_inScope {step : Checker Unit} (confined : Confined step) : Ends (inScope step) := by
  intro scopes
  obtain ⟨reports, ran⟩ := run_inScope confined scopes
  exact ⟨_, ran⟩

/-- The declaration of a name ends. -/
theorem ends_declare (name : String) (position : Position) (symbol : Symbol) :
    Ends (declare name position symbol) := by
  refine ends_bind (ends_check _) fun earlier => ?_
  split
  · exact ends_check _
  · exact ends_change _

/-- Reaching the declaration of a name ends. -/
theorem ends_reach (name : String) (position : Position) : Ends (reach name position) := by
  refine ends_bind (ends_check _) fun earlier => ?_
  split
  · exact ends_change _
  · exact ends_check _

/-- The check of a function ends: only the scope of its body is opened and closed. -/
theorem ends_fnDecl (registry : Registry) (declared : FnDecl) (params : List Ty) (result : Ty) :
    Ends (fnDecl registry declared params result) := by
  have body : Confined (do
      declareParams declared.params params
      stmts ⟨registry, ⟨declared.name.name, result⟩⟩ false declared.body) :=
    confined_bind (confined_declareParams declared.params params) fun _ =>
      confined_stmts _ false declared.body
  refine ends_bind (ends_reach _ _) fun _ => ends_bind (ends_inScope body) fun _ => ?_
  split
  · exact ends_check _
  · exact ends_pure ()

/-- The second pass ends. -/
theorem ends_decls (registry : Registry) (entered : List Entered) :
    Ends (decls registry entered) := by
  induction entered with
  | nil => exact ends_pure ()
  | cons first rest inductionHypothesis =>
    cases first with
    | fn declared params result =>
      exact ends_bind (ends_fnDecl registry declared params result) fun _ => inductionHypothesis
    | var declared stated =>
      have head : Ends (globalVar registry declared stated) :=
        ends_bind (ends_check _) fun _ => ends_declare _ _ _
      exact ends_bind head fun _ => inductionHypothesis
    | struct declared => exact ends_bind (ends_reach _ _) fun _ => inductionHypothesis

/-- A struct with one more entry in front is defined if it was or if it has the name of the
entry. -/
theorem has_cons {structs : List (String × Fields)} {entry : String × Fields} :
    Registry.has ⟨entry :: structs⟩ name = true ↔
      name = entry.1 ∨ Registry.has ⟨structs⟩ name = true := by
  unfold Registry.has Registry.get?
  rw [List.lookup_cons]
  by_cases same : name = entry.1
  · simp [same]
  · have differs : (name == entry.1) = false := beq_false_of_ne same
    simp [same, differs]

/-- A registry with a new struct has that struct and those it had before. -/
theorem has_of_define? {extended : Registry} {struct : String}
    (defined : registry.define? struct = some extended) :
    extended.has name = true ↔ name = struct ∨ registry.has name = true := by
  unfold Registry.define? at defined
  split at defined
  · cases defined
  · obtain rfl := Option.some.inj defined
    exact has_cons

/-- A struct that is defined stays defined while the structs of a program are. -/
theorem has_defineStructs (program : Program) (known : registry.has name = true) :
    (defineStructs registry scopes program).1.has name = true := by
  induction program generalizing registry scopes with
  | nil => exact known
  | cons declared rest inductionHypothesis =>
    cases declared with
    | fn | var => exact inductionHypothesis known
    | struct declared =>
      rw [defineStructs]
      dsimp only
      cases defined : registry.define? declared.name.name with
      | none => exact inductionHypothesis known
      | some extended => exact inductionHypothesis ((has_of_define? defined).mpr (.inr known))

/-- The structs that get fields are defined. -/
theorem has_of_mem_defineStructs {declared : StructDecl}
    (member : declared ∈ (defineStructs registry scopes program).2.2) :
    (defineStructs registry scopes program).1.has declared.name.name = true := by
  induction program generalizing registry scopes with
  | nil => cases member
  | cons first rest inductionHypothesis =>
    cases first with
    | fn | var => exact inductionHypothesis member
    | struct first =>
      rw [defineStructs] at member ⊢
      dsimp only at member ⊢
      cases defined : registry.define? first.name.name with
      | none =>
        rw [defined] at member
        exact inductionHypothesis member
      | some extended =>
        rw [defined] at member
        rcases List.mem_cons.mp member with rfl | member
        · exact has_defineStructs rest ((has_of_define? defined).mpr (.inl rfl))
        · exact inductionHypothesis member

/-- Structs that are defined can be given their fields. -/
theorem defineFields_ends {defined : List StructDecl}
    (known : ∀ declared ∈ defined, registry.has declared.name.name = true) :
    ∃ found, defineFields registry defined = .ok found := by
  induction defined generalizing registry with
  | nil => exact ⟨_, rfl⟩
  | cons declared rest inductionHypothesis =>
    obtain ⟨head, others⟩ := List.forall_mem_cons.mp known
    let fields := (fieldTypes registry [] declared.fields).value
    have set : registry.setFields declared.name.name fields =
        .ok ⟨(declared.name.name, fields) :: registry.structs⟩ := if_pos head
    have still : ∀ other ∈ rest,
        Registry.has ⟨(declared.name.name, fields) :: registry.structs⟩ other.name.name = true :=
      fun other member => has_cons.mpr (.inr (others other member))
    obtain ⟨found, ran⟩ := inductionHypothesis still
    refine ⟨(found.1, (fieldTypes registry [] declared.fields).reports ++ found.2), ?_⟩
    rw [defineFields]
    dsimp only [bind, Except.bind]
    rw [set]
    dsimp only
    rw [ran]
    rfl

/-- The structs of a program that were defined are given their fields. -/
theorem defineFields_defineStructs (program : Program) :
    ∃ found, defineFields (defineStructs Registry.empty Scopes.empty program).1
      (defineStructs Registry.empty Scopes.empty program).2.2 = .ok found :=
  defineFields_ends fun _ member => has_of_mem_defineStructs member

/-- The diagnostics of a program, from what either pass ends in. -/
theorem raised_of_passes {fieldReports : List Diagnostic} {outcome : Outcome Unit}
    (defines : defineFields (defineStructs Registry.empty Scopes.empty program).1
      (defineStructs Registry.empty Scopes.empty program).2.2 = .ok (registry, fieldReports))
    (ran : (decls registry (enterDecls registry
        (defineStructs Registry.empty Scopes.empty program).2.1 program).value.2).run
      (enterDecls registry (defineStructs Registry.empty Scopes.empty program).2.1
        program).value.1 = .ok outcome) :
    raised program = .ok (fieldReports ++
      (enterDecls registry (defineStructs Registry.empty Scopes.empty program).2.1
        program).reports ++ outcome.reports) := by
  unfold raised
  dsimp only [bind, Except.bind]
  rw [defines]
  dsimp only
  rw [ran]
  rfl

/-- Whatever the program is, checking it ends with diagnostics and not in a fault. -/
theorem raised_ends (program : Program) : ∃ reports, raised program = .ok reports := by
  obtain ⟨⟨registry, fieldReports⟩, defines⟩ := defineFields_defineStructs program
  let entered := enterDecls registry (defineStructs Registry.empty Scopes.empty program).2.1 program
  obtain ⟨outcome, ran⟩ := ends_decls registry entered.value.2 entered.value.1
  exact ⟨_, raised_of_passes defines ran⟩

/-- The same of the diagnostics in reading order. -/
theorem check_ends (program : Program) : ∃ reports, program.check = .ok reports := by
  obtain ⟨reports, ran⟩ := raised_ends program
  exact ⟨Diagnostic.inOrder reports, by rw [Program.check, ran]; rfl⟩

end SystemsLang.Typing
