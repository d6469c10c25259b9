import SystemsLang.Parser.Program
import SystemsLang.Typing.Program

/-!
# Analysing a source text

A text is parsed and, if that succeeds, checked. So an analysis has one of three outcomes: there is
no program, there is one with diagnostics, or there is one without.
-/

namespace SystemsLang

open Syntax Typing

/-- What becomes of a source text. -/
inductive Analysis
  | unparsable (error : ParseError)
  | invalid (program : Program) (diagnostics : List Diagnostic)
  | valid (program : Program)

namespace Analysis

/-- Parses and checks a text. -/
def ofSource (source : String) : Except Fault Analysis :=
  match Program.ofSource source with
  | .error error => .ok (unparsable error)
  | .ok program => do
    match ← program.check with
    | [] => return valid program
    | diagnostics => return invalid program diagnostics

/-- The name of an outcome in reports. -/
def outcomeName : Analysis → String
  | unparsable _ => "Unparsable"
  | invalid .. => "Invalid"
  | valid _ => "Valid"

/-- Whether the text is a program without diagnostics. -/
def isValid : Analysis → Bool
  | valid _ => true
  | _ => false

/-- The program, if the text could be parsed. -/
def program? : Analysis → Option Program
  | unparsable _ => none
  | invalid program _ => some program
  | valid program => some program

/-- What is reported, each message behind its position. -/
def messages : Analysis → List String
  | unparsable error => [error.located]
  | invalid _ diagnostics => diagnostics.map Diagnostic.located
  | valid _ => []

end Analysis

end SystemsLang
