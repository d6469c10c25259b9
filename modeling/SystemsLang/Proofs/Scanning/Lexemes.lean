import SystemsLang.Proofs.Scanning.Words
import SystemsLang.Token.Scan

/-!
# The lexemes of a scan

A scan is the tokens of the lexemes of a text with one end marker behind them. No lexeme is of the
kind of the end marker, so the marker is where the first end marker stands.
-/

namespace SystemsLang.Token

/-- The tokens of a text that stand for lexemes, which are all but the end marker. -/
def lexemes (source : String) : List Token :=
  (scan source).dropLast

/-- No lexeme is of the kind of the end marker. -/
theorem Lexeme.read_ne_ending (first : Char) (text : List Char) :
    (Lexeme.read first text).kind ≠ .ending := by
  unfold Lexeme.read
  split
  · exact Kind.ofWord_ne (by decide) (by decide) (by decide)
  split
  · rw [Lexeme.number_kind]
    decide
  split
  · rcases Lexeme.quoted_kind first text with kind | kind <;> simp [kind]
  split
  · exact Kind.ofWord_ne (by decide) (by decide) (by decide)
  · exact Lexeme.mark_ne (by decide)

/-- What holds of the token of every lexeme that is read, wherever it stands, holds of all tokens of
a cut. -/
theorem forall_segments (Holds : Kind → List Char → Prop)
    (read : ∀ first text, Holds (Lexeme.read first text).kind (Lexeme.read first text).value)
    (text : List Char) : ∀ part ∈ (segments text).parts, Holds part.2.kind part.2.value := by
  fun_induction segments text with
  | case1 text gap cut =>
    intro part impossible
    cases impossible
  | case2 text gap first rest cut _ inductionHypothesis =>
    intro part member
    rcases List.mem_cons.mp member with rfl | later
    · exact read first rest
    · exact inductionHypothesis part later

/-- The tokens of a segmented text are those of its parts and an end marker. -/
theorem tokensOf_eq (Holds : Kind → List Char → Prop) (position : Position)
    (parts : List (List Char × Lexeme)) (trailing : List Char)
    (sound : ∀ part ∈ parts, Holds part.2.kind part.2.value) :
    ∃ tokens place, tokensOf position parts trailing = tokens ++ [⟨.ending, "", place⟩] ∧
      ∀ token ∈ tokens, Holds token.kind token.text.toList := by
  induction parts generalizing position with
  | nil => exact ⟨[], _, rfl, fun _ impossible => nomatch impossible⟩
  | cons part later inductionHypothesis =>
    obtain ⟨gap, lexeme⟩ := part
    obtain ⟨tokens, place, same, holds⟩ :=
      inductionHypothesis ((position.past gap).past lexeme.source)
        fun part member => sound part (List.mem_cons_of_mem _ member)
    refine ⟨⟨lexeme.kind, String.ofList lexeme.value, position.past gap⟩ :: tokens, place, ?_, ?_⟩
    · rw [tokensOf, same]
      rfl
    · intro token member
      rcases List.mem_cons.mp member with rfl | member
      · rw [String.toList_ofList]
        exact sound _ List.mem_cons_self
      · exact holds token member

/-- A scan is the lexemes of the text with an end marker behind them. -/
theorem scan_eq (source : String) :
    ∃ place, scan source = lexemes source ++ [⟨.ending, "", place⟩] := by
  obtain ⟨tokens, place, same, -⟩ := tokensOf_eq (fun kind _ => kind ≠ .ending) Position.start _
    (segments source.toList).trailing
    (forall_segments (fun kind _ => kind ≠ .ending) Lexeme.read_ne_ending source.toList)
  have scanned : scan source = tokens ++ [⟨.ending, "", place⟩] := same
  refine ⟨place, ?_⟩
  rw [lexemes, scanned, List.dropLast_concat]

/-- What holds of every lexeme that is read holds of the lexemes of a text. -/
theorem forall_lexemes (Holds : Kind → List Char → Prop) {source : String} {token : Token}
    (read : ∀ first text, Holds (Lexeme.read first text).kind (Lexeme.read first text).value)
    (member : token ∈ lexemes source) : Holds token.kind token.text.toList := by
  obtain ⟨tokens, place, same, holds⟩ := tokensOf_eq Holds Position.start _
    (segments source.toList).trailing (forall_segments Holds read source.toList)
  have scanned : scan source = tokens ++ [⟨.ending, "", place⟩] := same
  rw [lexemes, scanned, List.dropLast_concat] at member
  exact holds token member

/-- No lexeme of a text is of the kind of the end marker. -/
theorem kind_ne_ending_of_mem_lexemes {source : String} {token : Token}
    (member : token ∈ lexemes source) : token.kind ≠ .ending :=
  forall_lexemes (fun kind _ => kind ≠ .ending) Lexeme.read_ne_ending member

/-- The lexemes of a text are proper tokens. -/
theorem proper_of_mem_lexemes {source : String} {token : Token}
    (member : token ∈ lexemes source) : Proper token := by
  have holds := forall_lexemes
    (fun kind text => Proper ⟨kind, String.ofList text, Position.start⟩)
    (fun first text => Lexeme.proper_read first text Position.start) member
  rwa [String.ofList_toList] at holds

end SystemsLang.Token
