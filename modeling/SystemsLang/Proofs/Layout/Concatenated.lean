import SystemsLang.Proofs.Layout.RoundTrip
import SystemsLang.Proofs.Parsing.Respaced
import SystemsLang.Proofs.Scanning.Restarts

/-!
# Texts one below the other

Two texts that are read as programs are read as one program if the second is put below the first:
the declarations of the first, and then those of the second, further down by the lines that the
first takes up. If both have declarations, the layout of the whole is that of the first, an empty
line, and that of the second (`ofSource_append_newline`).

Scanning starts again at the line break, since a program leaves no string literal open. That the
parser starts again between two declarations is seen on its grammar, in which nothing is shared
between declarations: derivations of two programs make a derivation of both, on no more levels than
one of them needs.
-/

namespace SystemsLang

open Token (lexemes)

namespace Layout

open Syntax (Program)

/-- Texts of lines are put one below the other like the lines. -/
theorem renderAll_append (unit : String) (lines others : List Text.Line) :
    Text.Line.renderAll unit (lines ++ others) =
      Text.Line.renderAll unit lines ++ Text.Line.renderAll unit others := by
  rw [Text.Line.renderAll, List.map_append, String.join_append]
  rfl

/-- Between the lines of two programs stands an empty line. -/
theorem programLines_append {program other : Program} (nonempty : program ≠ [])
    (otherNonempty : other ≠ []) :
    programLines (program ++ other) =
      programLines program ++ ⟨0, []⟩ :: programLines other := by
  obtain ⟨otherFirst, otherRest, rfl⟩ := List.exists_cons_of_ne_nil otherNonempty
  unfold programLines
  induction program with
  | nil => exact absurd rfl nonempty
  | cons first rest inductionHypothesis =>
    cases rest with
    | nil => simp [List.intercalate_cons_cons]
    | cons second later =>
      have behind := inductionHypothesis (List.cons_ne_nil second later)
      simp only [List.cons_append, List.map_cons] at behind ⊢
      rw [List.intercalate_cons_cons, behind, List.intercalate_cons_cons]
      simp

/-- The layout of two programs in one. -/
theorem format_append {program other : Program} (nonempty : program ≠ [])
    (otherNonempty : other ≠ []) (options : Options) :
    (program ++ other).format options =
      program.format options ++ "\n" ++ other.format options := by
  have emptyLine : Text.Line.renderAll options.unit [Line.toText ⟨0, []⟩] = "\n" := rfl
  rw [Program.format, programLines_append nonempty otherNonempty, List.map_append, List.map_cons,
    renderAll_append, ← List.singleton_append, renderAll_append, emptyLine, ← String.append_assoc]
  rfl

end Layout

namespace Syntax

/-- A program that stands a number of lines further down. -/
def Program.below (lines : Nat) (program : Program) : Program :=
  (Typing.Relabeling.moving (Position.below lines)).program program

end Syntax

namespace Grammar

open Syntax

/-- Two programs one behind the other. -/
theorem DerivesProgram.append {short : Bool} {tokens others : List Token}
    {program other : Program} {levels more : Nat}
    (first : DerivesProgram short tokens program levels)
    (second : DerivesProgram short others other more) :
    DerivesProgram short (tokens ++ others) (program ++ other) (max levels more) := by
  induction first with
  | nil => rwa [Nat.zero_max]
  | cons head _ inductionHypothesis =>
    rw [List.append_assoc, Nat.max_assoc]
    exact .cons head inductionHypothesis

variable {source : String} {program : Program}

/-- A text that is read as a program leaves no string literal open: its last lexeme is the semicolon
or the brace that ends the last declaration. -/
theorem closed_of_ofSource (parsed : Program.ofSource source = .ok program) :
    ∀ token ∈ lexemes source, token.kind ≠ .unterminatedString := by
  obtain ⟨levels, -, derived⟩ := derives_of_ofSource parsed
  refine Token.closed_of_getLast? fun token ends => ?_
  rcases Parser.ends_program derived ends with kind | kind <;>
  · rw [kind]
    decide

/-- A program is read further down from tokens that stand further down. -/
theorem ofTokens_below (lines : Nat) (parsed : Program.ofSource source = .ok program) :
    Program.ofTokens ((Token.scan source).map (Token.moved (Position.below lines))) =
      .ok (program.below lines) := by
  obtain ⟨same, parsedSame, movedParsed⟩ | ⟨cause, token, -, failed, -⟩ :=
    Program.ofTokens_moved (Position.below lines) (Token.closed_scan source)
  · cases parsed.symm.trans parsedSame
    exact movedParsed
  · cases parsed.symm.trans failed

/-- These tokens spell it. -/
theorem derives_below (lines : Nat) (parsed : Program.ofSource source = .ok program) :
    ∃ levels, levels ≤ maxDepth ∧
      DerivesProgram false ((lexemes source).map (Token.moved (Position.below lines)))
        (program.below lines) levels := by
  have parsedBelow := ofTokens_below lines parsed
  obtain ⟨place, scanned⟩ := Token.scan_eq source
  rw [scanned, List.map_append, List.map_singleton] at parsedBelow
  refine derives_of_ofTokens_append (fun token member => ?_) parsedBelow
  obtain ⟨lexeme, found, rfl⟩ := List.mem_map.mp member
  have sound : lexeme.kind ≠ .ending := Token.kind_ne_ending_of_mem_lexemes found
  exact sound

/-- Without positions it is the same program. -/
theorem unplaced_below (lines : Nat) (parsed : Program.ofSource source = .ok program) :
    (program.below lines).unplaced = program.unplaced := by
  have closed := Token.closed_scan source
  have closedBelow : Token.Closed
      ((Token.scan source).map (Token.moved (Position.below lines))) := by
    obtain ⟨place, last⟩ := closed
    exact ⟨_, by rw [List.getLast?_map, last]; rfl⟩
  have sameTokens : ((Token.scan source).map (Token.moved (Position.below lines))).map
        (Token.moved fun _ => Position.start) =
      (Token.scan source).map (Token.moved fun _ => Position.start) := by
    rw [List.map_map]
    rfl
  have again := unplaced_of_ofTokens closedBelow (ofTokens_below lines parsed)
  rw [sameTokens, unplaced_of_ofTokens closed parsed] at again
  exact (Except.ok.inj again).symm

end Grammar

namespace Layout

open Syntax

/-- Two texts that are read as programs, one below the other, are read as one program: the
declarations of the first, and those of the second as many lines further down as the first text and
the line break behind it take up. If both have declarations, the layout is that of the first, an
empty line, and that of the second. -/
theorem ofSource_append_newline {first second : String} {program other : Program}
    (parsed : Program.ofSource first = .ok program)
    (otherParsed : Program.ofSource second = .ok other) :
    Program.ofSource (first ++ "\n" ++ second) =
        .ok (program ++ other.below (first.toList.count '\n' + 1)) ∧
      (program ≠ [] → other ≠ [] → ∀ options,
        formatSource (first ++ "\n" ++ second) options = do
          return (← formatSource first options) ++ "\n" ++ (← formatSource second options)) := by
  have whole : Program.ofSource (first ++ "\n" ++ second) =
      .ok (program ++ other.below (first.toList.count '\n' + 1)) := by
    obtain ⟨levels, fits, derived⟩ := Grammar.derives_of_ofSource parsed
    obtain ⟨more, moreFits, derivedBelow⟩ :=
      Grammar.derives_below (first.toList.count '\n' + 1) otherParsed
    have scanned := Token.scan_append_newline second (Grammar.closed_of_ofSource parsed)
    obtain ⟨place, marked⟩ := Token.scan_eq second
    rw [marked, List.map_append, List.map_singleton, ← List.append_assoc] at scanned
    rw [Program.ofSource, scanned]
    exact (Grammar.ofTokens_of_derives (derived.append derivedBelow) _).1
      (Nat.max_le.mpr ⟨fits, moreFits⟩)
  refine ⟨whole, fun nonempty otherNonempty options => ?_⟩
  have belowNonempty : other.below (first.toList.count '\n' + 1) ≠ [] := by
    rw [Program.below, Typing.Relabeling.program]
    exact mt List.map_eq_nil_iff.mp otherNonempty
  have sameLayout : (other.below (first.toList.count '\n' + 1)).format options =
      other.format options :=
    format_eq_of_unplaced (Grammar.unplaced_below _ otherParsed)
  rw [formatSource, whole, formatSource, parsed, formatSource, otherParsed]
  refine congrArg Except.ok ?_
  rw [format_append nonempty belowNonempty, sameLayout]

/-- A function below a variable, in front of which and behind which there are comments. -/
theorem ofSource_append_newline_comments :
    Program.ofSource "var x = 1; // one" =
        .ok [.var ⟨false, false, ⟨"x", ⟨1, 5⟩⟩, none, some (.number ⟨1, 9⟩ "1"), ⟨1, 1⟩⟩] ∧
      Program.ofSource "// two\nfn f() void {}" =
        .ok [.fn ⟨false, none, ⟨"f", ⟨2, 4⟩⟩, [], .primitive ⟨2, 8⟩ "void", [], ⟨2, 1⟩⟩] ∧
      Program.ofSource ("var x = 1; // one" ++ "\n" ++ "// two\nfn f() void {}") =
        .ok [.var ⟨false, false, ⟨"x", ⟨1, 5⟩⟩, none, some (.number ⟨1, 9⟩ "1"), ⟨1, 1⟩⟩,
          .fn ⟨false, none, ⟨"f", ⟨3, 4⟩⟩, [], .primitive ⟨3, 8⟩ "void", [], ⟨3, 1⟩⟩] ∧
      ∀ options,
        formatSource ("var x = 1; // one" ++ "\n" ++ "// two\nfn f() void {}") options = do
          return (← formatSource "var x = 1; // one" options) ++ "\n" ++
            (← formatSource "// two\nfn f() void {}" options) := by
  have parsed : Program.ofSource "var x = 1; // one" =
      .ok [.var ⟨false, false, ⟨"x", ⟨1, 5⟩⟩, none, some (.number ⟨1, 9⟩ "1"), ⟨1, 1⟩⟩] := by
    decide +kernel
  have otherParsed : Program.ofSource "// two\nfn f() void {}" =
      .ok [.fn ⟨false, none, ⟨"f", ⟨2, 4⟩⟩, [], .primitive ⟨2, 8⟩ "void", [], ⟨2, 1⟩⟩] := by
    decide +kernel
  obtain ⟨whole, layout⟩ := ofSource_append_newline parsed otherParsed
  exact ⟨parsed, otherParsed, whole, layout (List.cons_ne_nil _ _) (List.cons_ne_nil _ _)⟩

end Layout

end SystemsLang
