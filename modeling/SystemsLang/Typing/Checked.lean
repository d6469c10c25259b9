import SystemsLang.Typing.Diagnostic

/-!
# Results with diagnostics

Checking never stops at an error. What is checked has a result in any case, and with it come the
diagnostics that were raised on the way, in the order in which they were raised.
-/

namespace SystemsLang.Typing

/-- A result and the diagnostics raised on the way to it. -/
structure Checked (α : Type) where
  value : α
  reports : List Diagnostic

namespace Checked

variable {α β : Type}

instance : Monad Checked where
  pure value := ⟨value, []⟩
  bind first second :=
    let next := second first.value
    ⟨next.value, first.reports ++ next.reports⟩

@[simp] theorem value_pure (value : α) : (pure value : Checked α).value = value := rfl

@[simp] theorem reports_pure (value : α) : (pure value : Checked α).reports = [] := rfl

@[simp] theorem value_bind (first : Checked α) (second : α → Checked β) :
    (first >>= second).value = (second first.value).value := rfl

/-- Of two steps in sequence, the diagnostics of the first come first. -/
@[simp] theorem reports_bind (first : Checked α) (second : α → Checked β) :
    (first >>= second).reports = first.reports ++ (second first.value).reports := rfl

/-- What is found out is a value and the diagnostics that it raises. -/
@[ext] theorem ext {first second : Checked α} (values : first.value = second.value)
    (reports : first.reports = second.reports) : first = second := by
  cases first
  cases second
  simp_all

instance : LawfulMonad Checked :=
  LawfulMonad.mk' Checked
    (fun _ => by ext1 <;> simp [Functor.map])
    (fun _ _ => by ext1 <;> simp)
    (fun _ _ _ => by ext1 <;> simp)

/-- Raises one diagnostic. -/
def report (cause : Diagnostic.Cause) (position : Position) : Checked Unit :=
  ⟨(), [⟨cause, position⟩]⟩

/-- Raises one diagnostic if the condition holds. -/
def reportIf (condition : Bool) (cause : Diagnostic.Cause) (position : Position) :
    Checked Unit :=
  if condition then report cause position else pure ()

/-- Raises a diagnostic in the place of a type. -/
def unknownAfter (cause : Diagnostic.Cause) (position : Position) : Checked Ty := do
  report cause position
  return .unknown

/-- Steps one after the other, for their diagnostics alone. -/
def sequence (steps : List (Checked Unit)) : Checked Unit :=
  ⟨(), steps.flatMap Checked.reports⟩

/-- A step taken for its diagnostics alone. -/
def ignore (step : Checked α) : Checked Unit :=
  ⟨(), step.reports⟩

end Checked

end SystemsLang.Typing
