import Mathlib.Data.Nat.Basic
import Mathlib.Logic.Equiv.Basic
import SystemsLang.Proofs.Typing.Faultless
import SystemsLang.Proofs.Typing.RelabeledProgram

/-!
# The checker treats names as opaque

A renaming is a relabeling that moves nothing: it gives names other names, different ones to
different names, and keeps the two that the checker knows, the target of a discard and the length of
an array. The diagnostics of a renamed program are those of the program with the names in them
renamed, at the same positions and in the same order (`check_renamed`).

They are raised so (`Relabeling.raised_program`). That they are reported so as well is because a
stable sort by positions does not look at the causes; the same goes for every relabeling that keeps
the reading order (`Relabeling.check_program`).
-/

namespace SystemsLang.Typing

open Syntax

/-- A relabeling that leaves everything in its place. -/
structure Renaming extends Relabeling where
  stays : ∀ position, place position = position

/-- Two names stand for one another, neither of which has a meaning of its own. -/
def Renaming.exchange (first second : String) (discards : "_" ≠ first ∧ "_" ≠ second)
    (lengths : "len" ≠ first ∧ "len" ≠ second) : Renaming where
  name := Equiv.swap first second
  place := id
  injective := (Equiv.swap first second).injective
  discard := Equiv.swap_apply_of_ne_of_ne discards.1 discards.2
  length := Equiv.swap_apply_of_ne_of_ne lengths.1 lengths.2
  stays _ := rfl

namespace Relabeling

variable (labels : Relabeling)

/-- A relabeling keeps the reading order if no two positions change their order. -/
def KeepsOrder : Prop :=
  ∀ first second, (labels.place first).notAfter (labels.place second) = first.notAfter second

variable {labels}

/-- Where the reading order is kept, sorting by it commutes with the relabeling. -/
theorem inOrder_map (keeps : labels.KeepsOrder) (diagnostics : List Diagnostic) :
    Diagnostic.inOrder (diagnostics.map labels.diagnostic) =
      (Diagnostic.inOrder diagnostics).map labels.diagnostic := by
  refine (List.map_mergeSort fun first _ second _ => ?_).symm
  exact (keeps first.position second.position).symm

/-- Where the reading order is kept, a relabeled program has the diagnostics of the program,
relabeled, or ends in the same fault. -/
theorem check_program (keeps : labels.KeepsOrder) (program : Program) :
    (labels.program program).check = program.check.map (List.map labels.diagnostic) := by
  rw [Program.check, Program.check, raised_program]
  cases raised program with
  | error fault => rfl
  | ok reports => exact congrArg Except.ok (inOrder_map keeps reports)

end Relabeling

/-- The check of a renamed program ends as that of the program does, with the same diagnostics at
the same positions and in the same order, in which every name is renamed. -/
theorem check_renamed (names : Renaming) (program : Program) :
    ∃ reports, program.check = .ok reports ∧
      (names.program program).check = .ok (reports.map fun diagnostic =>
        ⟨names.cause diagnostic.cause, diagnostic.position⟩) := by
  have keeps : names.KeepsOrder := fun first second => by
    rw [names.stays, names.stays]
  obtain ⟨reports, checked⟩ := check_ends program
  refine ⟨reports, checked, ?_⟩
  rw [Relabeling.check_program keeps, checked]
  refine congrArg Except.ok (List.map_congr_left fun diagnostic _ => ?_)
  rw [Relabeling.diagnostic, names.stays]

/-- A struct and a constant of its type that is null. -/
def misfitting (type constant : String) : Program :=
  [.struct ⟨false, ⟨type, ⟨1, 7⟩⟩, [], ⟨1, 1⟩⟩,
    .var ⟨false, true, ⟨constant, ⟨2, 7⟩⟩, some (.named ⟨2, 10⟩ type), some (.null ⟨2, 14⟩),
      ⟨2, 1⟩⟩]

/-- Where the struct and the constant exchange their names, the struct is reported by its new
name. -/
theorem check_renamed_misfitting :
    (misfitting "S" "c").check = .ok [⟨.typeMismatch (.struct "S") .null, ⟨2, 14⟩⟩] ∧
      (misfitting "c" "S").check = .ok [⟨.typeMismatch (.struct "c") .null, ⟨2, 14⟩⟩] := by
  have checked : (misfitting "S" "c").check =
      .ok [⟨.typeMismatch (.struct "S") .null, ⟨2, 14⟩⟩] := by decide +kernel
  obtain ⟨reports, ran, ranRenamed⟩ :=
    check_renamed (.exchange "S" "c" (by decide) (by decide)) (misfitting "S" "c")
  obtain rfl := Except.ok.inj (checked.symm.trans ran)
  exact ⟨checked, ranRenamed⟩

end SystemsLang.Typing
