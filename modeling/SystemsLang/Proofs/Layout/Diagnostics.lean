import SystemsLang.Analysis
import SystemsLang.Proofs.Layout.RoundTrip
import SystemsLang.Proofs.Typing.Unplacing

/-!
# The diagnostics of a layout

The program that is parsed from a layout is the one that was laid out, but for the positions, and
programs that are equal up to positions are reported with the same causes. So laying a text out does
not change what is wrong with it, and least of all whether something is.
-/

namespace SystemsLang.Layout

open Syntax Typing

variable {source text : String} {options : Options} {again program : Program}
  {reports : List Diagnostic}

/-- A text that is a program without diagnostics is valid. -/
theorem analysis_of_check_nil (parsed : Program.ofSource source = .ok program)
    (checked : program.check = .ok []) : Analysis.ofSource source = .ok (.valid program) := by
  rw [Analysis.ofSource, parsed]
  dsimp only
  rw [checked]
  rfl

/-- A text that is a program with diagnostics is invalid. -/
theorem analysis_of_check_ne_nil (parsed : Program.ofSource source = .ok program)
    (checked : program.check = .ok reports) (reported : reports ≠ []) :
    Analysis.ofSource source = .ok (.invalid program reports) := by
  rw [Analysis.ofSource, parsed]
  dsimp only
  rw [checked]
  cases reports with
  | nil => exact absurd rfl reported
  | cons first rest => rfl

/-- Laying out does not change the diagnostics. If the layout of a text is parsed, then checking it
reports the same causes as checking the text, each as often, and both texts are valid or both are
invalid. -/
theorem causes_check_formatSource (formatted : formatSource source options = .ok text)
    (parsedAgain : Program.ofSource text = .ok again) :
    ∃ program reports reportsAgain, Program.ofSource source = .ok program ∧
      program.check = .ok reports ∧ again.check = .ok reportsAgain ∧
      (reportsAgain.map Diagnostic.cause).Perm (reports.map Diagnostic.cause) ∧
      (Analysis.ofSource source = .ok (.valid program) ∧
          Analysis.ofSource text = .ok (.valid again) ∨
        Analysis.ofSource source = .ok (.invalid program reports) ∧
          Analysis.ofSource text = .ok (.invalid again reportsAgain)) := by
  obtain ⟨program, parsed, rfl⟩ := parsed_of_formatSource formatted
  have same : again.unplaced = program.unplaced := by
    rcases ofSource_format.2 program options (spellable_of_ofSource parsed) with
      ⟨found, parsedFound, same⟩ | ⟨token, failed⟩
    · rw [parsedAgain] at parsedFound
      exact Except.ok.inj parsedFound ▸ same
    · rw [parsedAgain] at failed
      cases failed
  obtain ⟨reports, reportsAgain, checked, checkedAgain, causes⟩ := causes_check_of_unplaced same
  refine ⟨program, reports, reportsAgain, parsed, checked, checkedAgain, causes, ?_⟩
  have asMany : reportsAgain.length = reports.length := by
    simpa using causes.length_eq
  by_cases quiet : reports = []
  · have quietAgain : reportsAgain = [] := by
      rw [← List.length_eq_zero_iff, asMany, quiet]
      rfl
    exact .inl ⟨analysis_of_check_nil parsed (quiet ▸ checked),
      analysis_of_check_nil parsedAgain (quietAgain ▸ checkedAgain)⟩
  · have reported : reportsAgain ≠ [] := by
      intro quietAgain
      rw [← List.length_eq_zero_iff, ← asMany, quietAgain] at quiet
      exact quiet rfl
    exact .inr ⟨analysis_of_check_ne_nil parsed checked quiet,
      analysis_of_check_ne_nil parsedAgain checkedAgain reported⟩

/-- The layout of a constant whose value is not defined. -/
def undefinedValue : Program :=
  [.var ⟨false, true, ⟨"x", ⟨1, 7⟩⟩, none, some (.ident ⟨1, 11⟩ "y"), ⟨1, 1⟩⟩]

/-- Laying such a constant out does not change that. -/
theorem causes_check_formatSource_undefinedValue :
    formatSource "const x=y;" {} = .ok "const x = y;\n" ∧
      Program.ofSource "const x = y;\n" = .ok undefinedValue ∧
      ∃ program reports reportsAgain, Program.ofSource "const x=y;" = .ok program ∧
        program.check = .ok reports ∧ undefinedValue.check = .ok reportsAgain ∧
        (reportsAgain.map Diagnostic.cause).Perm (reports.map Diagnostic.cause) ∧
        (Analysis.ofSource "const x=y;" = .ok (.valid program) ∧
            Analysis.ofSource "const x = y;\n" = .ok (.valid undefinedValue) ∨
          Analysis.ofSource "const x=y;" = .ok (.invalid program reports) ∧
            Analysis.ofSource "const x = y;\n" = .ok (.invalid undefinedValue reportsAgain)) := by
  have formatted : formatSource "const x=y;" {} = .ok "const x = y;\n" := by decide +kernel
  have parsedAgain : Program.ofSource "const x = y;\n" = .ok undefinedValue := by decide +kernel
  exact ⟨formatted, parsedAgain, causes_check_formatSource formatted parsedAgain⟩

end SystemsLang.Layout
