import SystemsLang.Token.Lexeme

/-!
# Scanning a text into tokens

`segments` cuts a text into lexemes, each with the gap before it, and keeps the gap that is left at
the end. `tokensOf` gives every lexeme the position that its place in the text has and closes the
list with an end marker. A lexical failure never stops the scan.

Main statement: the cut loses nothing (`Segmentation.text_segments`).
-/

namespace SystemsLang.Token

/-- A text as its lexemes, each behind the gap that precedes it, and the gap at the end. -/
structure Segmentation where
  parts : List (List Char × Lexeme)
  trailing : List Char

namespace Segmentation

/-- Puts a gap and a lexeme before a segmentation. -/
def push (gap : List Char) (lexeme : Lexeme) (later : Segmentation) : Segmentation :=
  { later with parts := (gap, lexeme) :: later.parts }

/-- The text that a segmentation was cut from. -/
def text (cut : Segmentation) : List Char :=
  cut.parts.flatMap (fun part => part.1 ++ part.2.source) ++ cut.trailing

end Segmentation

/-- Cuts a text into lexemes and gaps. -/
def segments (text : List Char) : Segmentation :=
  match cut : splitGap false text with
  | (gap, []) => ⟨[], gap⟩
  | (gap, first :: rest) =>
    have := Lexeme.length_rest_lt_of_splitGap cut
    (segments (Lexeme.read first rest).rest).push gap (Lexeme.read first rest)
termination_by text.length

/-- Cutting loses nothing. -/
theorem Segmentation.text_segments (text : List Char) : (segments text).text = text := by
  have whole := gap_append_rest false text
  fun_induction segments text with
  | case1 text gap cut =>
    simpa [Segmentation.text, cut] using whole
  | case2 text gap first rest cut _ inductionHypothesis =>
    rw [cut] at whole
    have inner := inductionHypothesis (gap_append_rest false _)
    simp only [Segmentation.text, Segmentation.push, List.flatMap_cons, List.append_assoc]
      at inner ⊢
    rw [inner, Lexeme.source_append_rest, whole]

/-- The tokens of a segmented text that begins at the given position. -/
def tokensOf (position : Position) : List (List Char × Lexeme) → List Char → List Token
  | [], trailing => [⟨.ending, "", position.past trailing⟩]
  | (gap, lexeme) :: later, trailing =>
    let start := position.past gap
    ⟨lexeme.kind, String.ofList lexeme.value, start⟩ ::
      tokensOf (start.past lexeme.source) later trailing

/-- All tokens of a text, lexical failures among them, with an end marker behind the last. -/
def scan (source : String) : List Token :=
  let cut := segments source.toList
  tokensOf Position.start cut.parts cut.trailing

/-- Scanning into a list that has to be empty before. -/
def scanInto? (source : String) (earlier : List Token) : Option (List Token) :=
  if earlier.isEmpty then some (scan source) else none

end SystemsLang.Token
