import SystemsLang.Typing.Checked
import SystemsLang.Typing.Scopes

/-!
# Steps that change scopes

Checking statements declares names, so it runs on the open scopes and gives back the scopes that the
next statement is checked in, together with the diagnostics it raised. Such a step could also end in
a fault.
-/

namespace SystemsLang.Typing

/-- What a step leaves: its result, the scopes after it and the diagnostics it raised. -/
structure Outcome (α : Type) where
  value : α
  scopes : Scopes
  reports : List Diagnostic

/-- A step that runs on the open scopes. -/
def Checker (α : Type) : Type :=
  Scopes → Except Fault (Outcome α)

namespace Checker

variable {α β : Type}

/-- The outcome of a step on the given scopes. -/
def run (step : Checker α) (scopes : Scopes) : Except Fault (Outcome α) :=
  step scopes

instance : Monad Checker where
  pure value := fun scopes => .ok ⟨value, scopes, []⟩
  bind first second := fun scopes =>
    match first scopes with
    | .error fault => .error fault
    | .ok before =>
      match second before.value before.scopes with
      | .error fault => .error fault
      | .ok after => .ok { after with reports := before.reports ++ after.reports }

/-- A step followed by one that only hands its result on is that step. -/
theorem id_map (step : Checker α) : id <$> step = step := by
  funext scopes
  simp only [Functor.map, Function.comp]
  cases step scopes with
  | error fault => rfl
  | ok outcome => simp

/-- In a sequence of three steps it does not matter which two are put together first. -/
theorem bind_assoc {γ : Type} (first : Checker α) (second : α → Checker β)
    (third : β → Checker γ) :
    first >>= second >>= third = first >>= fun value => second value >>= third := by
  funext scopes
  simp only [bind]
  cases first scopes with
  | error fault => rfl
  | ok before =>
    cases reached : second before.value before.scopes with
    | error fault => simp [reached]
    | ok between =>
      simp only [reached, List.append_assoc]
      cases third between.value between.scopes <;> rfl

instance : LawfulMonad Checker :=
  LawfulMonad.mk' Checker id_map
    (fun value next => by
      funext scopes
      simp only [bind, pure]
      cases next value scopes with
      | error fault => rfl
      | ok outcome => simp)
    bind_assoc

/-- A step that looks at the scopes and leaves them as they are. -/
def check (step : Scopes → Checked α) : Checker α := fun scopes =>
  .ok ⟨(step scopes).value, scopes, (step scopes).reports⟩

/-- A step that only changes the scopes. -/
def change (step : Scopes → Scopes) : Checker Unit := fun scopes =>
  .ok ⟨(), step scopes, []⟩

/-- Raises one diagnostic. -/
def report (cause : Diagnostic.Cause) (position : Position) : Checker Unit :=
  check fun _ => Checked.report cause position

/-- Opens a scope. -/
def push : Checker Unit :=
  change Scopes.push

/-- Closes the innermost scope. -/
def pop : Checker Unit := fun scopes =>
  scopes.pop.map fun outer => ⟨(), outer, []⟩

/-- Runs a step in a scope of its own. -/
def inScope (step : Checker Unit) : Checker Unit := do
  push
  step
  pop

/-- Declares a name in the innermost scope. If it was declared there before, that is reported at the
given position and nothing is declared. -/
def declare (name : String) (position : Position) (symbol : Symbol) : Checker Unit := do
  let earlier ← check fun scopes => pure (scopes.local? name)
  if earlier.any Symbol.declared then report (.duplicateDeclaration name) position
  else change fun scopes => scopes.insert name symbol

/-- Reaches the declaration of a name that was entered ahead of it. If another declaration of the
name was reached before, that is reported at the given position. -/
def reach (name : String) (position : Position) : Checker Unit := do
  let earlier ← check fun scopes => pure (scopes.local? name)
  if earlier.any fun symbol => !symbol.declared then
    change fun scopes => scopes.markDeclared name
  else report (.duplicateDeclaration name) position

end Checker

end SystemsLang.Typing
