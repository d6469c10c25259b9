import Mathlib.Data.Nat.Basic
import SystemsLang.Proofs.Parsing.CompleteProgram
import SystemsLang.Proofs.Parsing.SoundProgram
import SystemsLang.Proofs.Scanning.Lexemes

/-!
# The parser accepts its grammar

The two directions are put together here. A text whose lexemes spell a program is read as that
program if there is room for the levels of the derivation, and otherwise nesting is reported to be
too deep; a text that is read as a program has lexemes that spell it. The limit on nesting is not
part of the grammar, so no token list spells two programs: with enough room both are what the
parser gives.
-/

namespace SystemsLang.Grammar

open Token (lexemes)
open Syntax

variable {source : String} {tokens : List Token} {program : Program} {levels : Nat}

/-- Tokens that spell a program, with an end marker behind them, are read as that program exactly if
there is room. -/
theorem ofTokens_of_derives (derived : DerivesProgram false tokens program levels)
    (place : Position) :
    (levels ≤ maxDepth → Program.ofTokens (tokens ++ [⟨.ending, "", place⟩]) = .ok program) ∧
      (maxDepth < levels → ∃ token,
        Program.ofTokens (tokens ++ [⟨.ending, "", place⟩]) =
          .error ⟨.nestingTooDeep, token⟩) := by
  have reads : Parser.Reads (Parser.program maxDepth)
      (Token.endingOf (tokens ++ [⟨.ending, "", place⟩])) levels maxDepth
      (tokens ++ [⟨.ending, "", place⟩]) program [⟨.ending, "", place⟩] :=
    Parser.reads_program derived rfl
  constructor
  · intro fits
    rw [Program.ofTokens, Parser.parse, reads.fits fits]
    rfl
  · intro exceeds
    obtain ⟨token, failed⟩ := reads.exceeds exceeds
    exact ⟨token, by rw [Program.ofTokens, Parser.parse, failed]; rfl⟩

/-- A text whose lexemes spell a program is read as that program exactly if there is room. -/
theorem ofSource_of_derives (derived : DerivesProgram false (lexemes source) program levels) :
    (levels ≤ maxDepth → Program.ofSource source = .ok program) ∧
      (maxDepth < levels →
        ∃ token, Program.ofSource source = .error ⟨.nestingTooDeep, token⟩) := by
  obtain ⟨place, scanned⟩ := Token.scan_eq source
  rw [Program.ofSource, scanned]
  exact ofTokens_of_derives derived place

/-- If lexemes with an end marker behind them are split before an end marker, they are split before
that one. -/
theorem eq_of_append_ending {marker : Token} {taken rest : List Token} {ending : Token}
    (sound : ∀ token ∈ tokens, token.kind ≠ .ending) (split : tokens ++ [marker] = taken ++ rest)
    (ends : (Parser.next ending rest).kind = .ending)
    (last : ∀ token, taken.getLast? = some token → token.kind ≠ .ending)
    (isMarker : marker.kind = .ending) : taken = tokens := by
  rcases List.append_eq_append_iff.mp split with ⟨after, rfl, marked⟩ | ⟨after, rfl, rfl⟩
  · cases after with
    | nil => exact List.append_nil tokens
    | cons first after =>
      obtain ⟨rfl, none⟩ := List.cons.inj marked
      obtain ⟨rfl, -⟩ := List.append_eq_nil_iff.mp none.symm
      exact absurd isMarker (last _ (by simp))
  · cases after with
    | nil => exact (List.append_nil taken).symm
    | cons first after => exact absurd ends (sound first (by simp))

/-- What is read as a program spells it, on no more levels than there are, and an end marker stops
the parser. -/
theorem derives_of_ofTokens (parsed : Program.ofTokens tokens = .ok program) :
    ∃ taken rest levels, tokens = taken ++ rest ∧
      (Parser.next (Token.endingOf tokens) rest).kind = .ending ∧ levels ≤ maxDepth ∧
      DerivesProgram false taken program levels := by
  rw [Program.ofTokens, Parser.parse] at parsed
  cases outcome : (Parser.program maxDepth).run (Token.endingOf tokens) tokens with
  | error error =>
    rw [outcome] at parsed
    cases parsed
  | ok result =>
    obtain ⟨value, rest⟩ := result
    rw [outcome] at parsed
    cases parsed
    have stops := Parser.stops_program rfl outcome
    obtain ⟨taken, rfl, levels, derived⟩ := Parser.sound_program _ _ _ _ rfl outcome
    have reads : Parser.Reads (Parser.program maxDepth) _ levels maxDepth (taken ++ rest) value
        rest := Parser.reads_program derived stops
    refine ⟨taken, rest, levels, rfl, stops, Nat.le_of_not_lt fun exceeds => ?_, derived⟩
    obtain ⟨token, failed⟩ := reads.exceeds exceeds
    rw [outcome] at failed
    cases failed

/-- If no other token is an end marker, a program is read up to the end marker behind the tokens. -/
theorem derives_of_ofTokens_append (sound : ∀ token ∈ tokens, token.kind ≠ .ending)
    {place : Position}
    (parsed : Program.ofTokens (tokens ++ [⟨.ending, "", place⟩]) = .ok program) :
    ∃ levels, levels ≤ maxDepth ∧ DerivesProgram false tokens program levels := by
  obtain ⟨taken, rest, levels, split, stops, fits, derived⟩ := derives_of_ofTokens parsed
  have lastSound {token : Token} (ends : taken.getLast? = some token) : token.kind ≠ .ending := by
    rcases Parser.ends_program derived ends with kind | kind <;>
    · rw [kind]
      decide
  have whole : taken = tokens := eq_of_append_ending sound split stops (fun _ => lastSound) rfl
  exact ⟨levels, fits, whole ▸ derived⟩

/-- A text that is read as a program has lexemes that spell it, on no more levels than there are. -/
theorem derives_of_ofSource (parsed : Program.ofSource source = .ok program) :
    ∃ levels, levels ≤ maxDepth ∧ DerivesProgram false (lexemes source) program levels := by
  obtain ⟨place, scanned⟩ := Token.scan_eq source
  rw [Program.ofSource, scanned] at parsed
  exact derives_of_ofTokens_append (fun _ => Token.kind_ne_ending_of_mem_lexemes) parsed

/-- No token list spells two programs. -/
theorem derivesProgram_unique {other : Program} {more : Nat}
    (first : DerivesProgram false tokens program levels)
    (second : DerivesProgram false tokens other more) : program = other := by
  have firstReads : Parser.Reads (Parser.program (max levels more)) (Token.endingOf []) levels
      (max levels more) (tokens ++ []) program [] := Parser.reads_program first rfl
  have secondReads : Parser.Reads (Parser.program (max levels more)) (Token.endingOf []) more
      (max levels more) (tokens ++ []) other [] := Parser.reads_program second rfl
  have both := (firstReads.fits (Nat.le_max_left _ _)).symm.trans
    (secondReads.fits (Nat.le_max_right _ _))
  cases both
  rfl

/-- The lengths in the lexemes of a text are whole decimals that fit into 64 bits, since the scanner
makes no number with a sign. -/
theorem length_iff_of_mem_lexemes {token : Token} (member : token ∈ lexemes source)
    (length : UInt64) :
    Length token length ↔ token.kind = .number ∧ Token.IsDigits token.text.toList ∧
      Text.valueOfDigits token.text.toList = length.toNat := by
  constructor
  · rintro ⟨number, digits, text, nonempty, decimal, value⟩
    have shape : Token.IsNumber token.text := (Token.proper_of_mem_lexemes member).2.1 number
    rcases text with same | signed
    · rw [same]
      exact ⟨number, ⟨nonempty, decimal⟩, value⟩
    · refine absurd shape ?_
      rintro (⟨-, digitsOnly⟩ | ⟨whole, fraction, same, ⟨wholeNonempty, wholeDigits⟩, -⟩)
      · rw [signed] at digitsOnly
        cases digitsOnly
      · rw [signed] at same
        cases whole with
        | nil => exact wholeNonempty rfl
        | cons first rest =>
          obtain ⟨rfl, -⟩ := List.cons.inj same
          cases wholeDigits
  · rintro ⟨number, ⟨nonempty, decimal⟩, value⟩
    exact ⟨number, _, .inl rfl, nonempty, decimal, value⟩

/-- The parser accepts exactly its grammar. What it gives is derived from the lexemes of the text; a
program derived from them is what it gives, or nesting is reported to be too deep, which depends on
the levels of the derivation alone; no token list has two trees; and the lengths in the lexemes of a
text are whole decimals that fit into 64 bits. -/
theorem ofSource_exactly_grammar (source : String) :
    (∀ program, Program.ofSource source = .ok program →
      ∃ levels, levels ≤ maxDepth ∧ DerivesProgram false (lexemes source) program levels) ∧
    (∀ program levels, DerivesProgram false (lexemes source) program levels →
      levels ≤ maxDepth ∧ Program.ofSource source = .ok program ∨
      maxDepth < levels ∧
        ∃ token, Program.ofSource source = .error ⟨.nestingTooDeep, token⟩) ∧
    (∀ tokens program other levels more, DerivesProgram false tokens program levels →
      DerivesProgram false tokens other more → program = other) ∧
    (∀ token ∈ lexemes source, ∀ length, Length token length ↔ token.kind = .number ∧
      Token.IsDigits token.text.toList ∧
      Text.valueOfDigits token.text.toList = length.toNat) := by
  refine ⟨fun _ => derives_of_ofSource, ?_, fun _ _ _ _ _ => derivesProgram_unique,
    fun _ => length_iff_of_mem_lexemes⟩
  intro program levels derived
  obtain ⟨fits, exceeds⟩ := ofSource_of_derives derived
  rcases Nat.lt_or_ge maxDepth levels with deep | flat
  · exact .inr ⟨deep, exceeds deep⟩
  · exact .inl ⟨flat, fits flat⟩

/-- If the header of a `for` could also do without its first part and the semicolon behind that, the
parser would not accept the grammar: it asks for two semicolons in any case. -/
theorem short_for_header_rejected :
    ¬ ∀ source program levels, DerivesProgram true (lexemes source) program levels →
      Program.ofSource source = .ok program ∨
        ∃ token, Program.ofSource source = .error ⟨.nestingTooDeep, token⟩ := by
  intro accepted
  have scanned : lexemes "fn f() void { for (;) {} }" =
      [⟨.fnWord, "fn", ⟨1, 1⟩⟩, ⟨.identifier, "f", ⟨1, 4⟩⟩, ⟨.leftParen, "(", ⟨1, 5⟩⟩,
        ⟨.rightParen, ")", ⟨1, 6⟩⟩, ⟨.primitiveType, "void", ⟨1, 8⟩⟩,
        ⟨.leftBrace, r"{", ⟨1, 13⟩⟩, ⟨.forWord, "for", ⟨1, 15⟩⟩, ⟨.leftParen, "(", ⟨1, 19⟩⟩,
        ⟨.semicolon, ";", ⟨1, 20⟩⟩, ⟨.rightParen, ")", ⟨1, 21⟩⟩, ⟨.leftBrace, r"{", ⟨1, 23⟩⟩,
        ⟨.rightBrace, r"}", ⟨1, 24⟩⟩, ⟨.rightBrace, r"}", ⟨1, 26⟩⟩] := by
    decide +kernel
  have rejected : Program.ofSource "fn f() void { for (;) {} }" =
      .error ⟨.unexpectedInExpr, ⟨.rightParen, ")", ⟨1, 21⟩⟩⟩ := by
    decide +kernel
  have loop : DerivesStmt true
      [⟨.forWord, "for", ⟨1, 15⟩⟩, ⟨.leftParen, "(", ⟨1, 19⟩⟩, ⟨.semicolon, ";", ⟨1, 20⟩⟩,
        ⟨.rightParen, ")", ⟨1, 21⟩⟩, ⟨.leftBrace, r"{", ⟨1, 23⟩⟩,
        ⟨.rightBrace, r"}", ⟨1, 24⟩⟩]
      (.stmt (.forLoop ⟨1, 15⟩ none none none [])) 1 :=
    .forLoop rfl rfl (.omitted rfl) .absent rfl .absent rfl (.braces rfl .empty rfl)
  have derived : DerivesProgram true (lexemes "fn f() void { for (;) {} }")
      [.fn ⟨false, none, ⟨"f", ⟨1, 4⟩⟩, [], .primitive ⟨1, 8⟩ "void",
        [.forLoop ⟨1, 15⟩ none none none []], ⟨1, 1⟩⟩] 2 := by
    rw [scanned]
    exact .cons (.fn .absent .none rfl rfl rfl .nil rfl (.primitive rfl)
      (.braces rfl (.cons loop .empty) rfl) rfl) .nil
  rcases accepted _ _ _ derived with parsed | ⟨token, failed⟩
  · rw [rejected] at parsed
    cases parsed
  · rw [rejected] at failed
    cases failed

end SystemsLang.Grammar
