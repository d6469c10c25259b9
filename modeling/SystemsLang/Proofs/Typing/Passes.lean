import SystemsLang.Proofs.Typing.Confined
import SystemsLang.Proofs.Typing.TypedExpr

/-!
# Steps that pass

A step on the open scopes passes if it ends without a fault and raises no diagnostic; then only the
scopes in which it ends are of interest. Each way of putting steps together passes exactly if the
parts do, one after the other. A declaration passes if its name is not declared yet in the innermost
scope, and what it does to the scopes is what a new binding does to the environment.
-/

namespace SystemsLang.Typing

open Syntax Checker

/-- A step that is taken in some scopes ends in others and raises no diagnostic. -/
def Passes (step : Checker Unit) (scopes after : Scopes) : Prop :=
  step.run scopes = .ok ⟨(), after, []⟩

variable {scopes after : Scopes} {name : String} {position : Position} {symbol : Symbol}

/-- Nothing at all passes and leaves the scopes as they are. -/
@[simp] theorem passes_pure : Passes (pure ()) scopes after ↔ scopes = after := by
  unfold Passes
  constructor
  · intro passes
    exact congrArg Outcome.scopes (Except.ok.inj passes)
  · rintro rfl
    rfl

/-- Two steps pass if the first does and the second does in the scopes where the first ends. -/
@[simp] theorem passes_bind {first : Checker Unit} {second : Unit → Checker Unit} :
    Passes (first >>= second) scopes after ↔
      ∃ between, Passes first scopes between ∧ Passes (second ()) between after := by
  unfold Passes Checker.run
  constructor
  · intro passes
    simp only [bind] at passes
    cases before : first scopes with
    | error fault =>
      rw [before] at passes
      cases passes
    | ok between =>
      rw [before] at passes
      cases behind : second between.value between.scopes with
      | error fault =>
        simp [behind] at passes
      | ok last =>
        simp only [behind] at passes
        have same := Except.ok.inj passes
        have quiet : between.reports = [] ∧ last.reports = [] :=
          List.append_eq_nil_iff.mp (congrArg Outcome.reports same)
        have ends : last.scopes = after := congrArg Outcome.scopes same
        refine ⟨between.scopes, ?_, ?_⟩
        · rw [← quiet.1]
        · rw [behind, ← ends, ← quiet.2]
  · rintro ⟨between, before, behind⟩
    simp only [bind, before, behind, List.append_nil]

/-- A step that looks at the scopes passes if it raises no diagnostic. -/
@[simp] theorem passes_check {step : Scopes → Checked Unit} :
    Passes (check step) scopes after ↔ (step scopes).reports = [] ∧ scopes = after := by
  unfold Passes
  constructor
  · intro passes
    have same := Except.ok.inj passes
    exact ⟨congrArg Outcome.reports same, congrArg Outcome.scopes same⟩
  · rintro ⟨quiet, rfl⟩
    rw [Checker.run, check, quiet]

/-- What a step finds in the scopes is handed on to the next if it raises no diagnostic. -/
@[simp] theorem passes_check_bind {α : Type} {step : Scopes → Checked α}
    {next : α → Checker Unit} :
    Passes (check step >>= next) scopes after ↔
      (step scopes).reports = [] ∧ Passes (next (step scopes).value) scopes after := by
  unfold Passes Checker.run check
  simp only [bind]
  cases ends : next (step scopes).value scopes with
  | error fault => simp
  | ok outcome =>
    obtain ⟨-, last, reports⟩ := outcome
    simp [and_left_comm]

/-- A step that only changes the scopes passes. -/
@[simp] theorem passes_change {step : Scopes → Scopes} :
    Passes (change step) scopes after ↔ step scopes = after := by
  unfold Passes
  constructor
  · intro passes
    exact congrArg Outcome.scopes (Except.ok.inj passes)
  · rintro rfl
    rfl

/-- A step that raises a diagnostic does not pass. -/
@[simp] theorem not_passes_report {cause : Diagnostic.Cause} :
    ¬ Passes (report cause position) scopes after := by
  rw [report, passes_check]
  exact fun passes => reports_report cause passes.1

/-- Where a confined step passes, it changes nothing below the innermost scope. -/
theorem Confined.beside {step : Checker Unit} (confined : Confined step)
    (inside : scopes.opened ≠ []) (passes : Passes step scopes after) : Beside scopes after := by
  obtain ⟨outcome, ran, beside⟩ := confined scopes inside
  have same : outcome = ⟨(), after, []⟩ := Except.ok.inj (ran.symm.trans passes)
  rwa [same] at beside

/-- A confined step in a scope of its own passes if it does in the new scope, and leaves the scopes
as they were. -/
theorem passes_inScope {step : Checker Unit} (confined : Confined step) :
    Passes (inScope step) scopes after ↔ scopes = after ∧ ∃ last, Passes step scopes.push last := by
  have closes {last : Scopes} (passes : Passes step scopes.push last) :
      Passes (inScope step) scopes scopes := by
    have beside : Beside scopes.push last := confined.beside (List.cons_ne_nil _ _) passes
    have closed : Passes pop last scopes := by
      unfold Passes Checker.run pop
      rw [beside.pop]
      rfl
    exact passes_bind.mpr ⟨scopes.push, passes_change.mpr rfl,
      passes_bind.mpr ⟨last, passes, closed⟩⟩
  constructor
  · intro passes
    obtain ⟨opened, opens, ran⟩ := passes_bind.mp passes
    obtain rfl := passes_change.mp opens
    obtain ⟨last, inner, -⟩ := passes_bind.mp ran
    have same := Except.ok.inj (passes.symm.trans (closes inner))
    exact ⟨(congrArg Outcome.scopes same).symm, last, inner⟩
  · rintro ⟨rfl, last, passes⟩
    exact closes passes

/-- A name is declared if it is not declared yet. -/
theorem passes_declare :
    Passes (declare name position symbol) scopes after ↔
      (scopes.local? name).any Symbol.declared = false ∧ scopes.insert name symbol = after := by
  rw [declare, passes_check_bind, Checked.value_pure, Checked.reports_pure]
  split
  · rename_i earlier
    simp [earlier]
  · rename_i fresh
    simp [fresh]

/-- The declaration of a name is reached if the name is there and not declared yet. -/
theorem passes_reach :
    Passes (reach name position) scopes after ↔
      ∃ symbol, scopes.local? name = some symbol ∧ symbol.declared = false ∧
        scopes.insert name { symbol with declared := true } = after := by
  rw [reach, passes_check_bind, Checked.value_pure, Checked.reports_pure]
  cases found : scopes.local? name with
  | none => simp
  | some symbol =>
    cases declared : symbol.declared <;> simp [declared, Scopes.markDeclared, found]

end SystemsLang.Typing
