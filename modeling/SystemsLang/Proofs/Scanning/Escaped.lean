import SystemsLang.Proofs.Scanning.Restarts

/-!
# Escaped text in front of any other

An escaped text between two quotes is one string literal that holds the text, and behind the closing
quote scanning starts again, whatever stands there (`scan_escaped`). No line break is written in the
literal, even if the text has one. So what follows it on the same line stands further right by the
characters of the literal, and the lines below do not move.
-/

namespace SystemsLang

/-- The position further right by a number of columns if it is on the first line, and otherwise the
same position. -/
def Position.indented (columns : Nat) (position : Position) : Position :=
  if position.line = 1 then ⟨1, position.column + columns⟩ else position

namespace Position

/-- No character leads to an earlier line. -/
theorem line_next (position : Position) (character : Char) :
    position.line ≤ (position.next character).line := by
  unfold next
  split
  · exact Nat.le_succ _
  · exact Nat.le_refl _

/-- One character leads to the same place further right. Only from the first line can it lead to the
first line, and behind a line break the columns are counted anew. -/
theorem next_indented (columns : Nat) {position : Position} (counted : 1 ≤ position.line)
    (character : Char) :
    (position.indented columns).next character =
      (position.next character).indented columns := by
  by_cases first : position.line = 1
  · by_cases ends : character = '\n'
    · simp [indented, next, first, ends]
    · simp [indented, next, first, ends, Nat.add_right_comm]
  · by_cases ends : character = '\n'
    · have notZero : position.line ≠ 0 := Nat.ne_of_gt counted
      simp [indented, next, first, ends, notZero]
    · simp [indented, next, first, ends]

/-- So does a text. -/
theorem past_indented (columns : Nat) {position : Position} (counted : 1 ≤ position.line)
    (text : List Char) :
    (position.indented columns).past text = (position.past text).indented columns := by
  induction text generalizing position with
  | nil => rfl
  | cons character rest inductionHypothesis =>
    have stillCounted : 1 ≤ (position.next character).line :=
      Nat.le_trans counted (position.line_next character)
    rw [past_cons, past_cons, next_indented columns counted, inductionHypothesis stillCounted]

end Position

namespace Token

variable {quote : Char}

/-- The string literal of an escaped text stands on one line. -/
theorem newline_notMem_literal (isQuote : quote = '"' ∨ quote = '\'') (text : List Char) :
    '\n' ∉ quote :: (Text.escape text ++ [quote]) := by
  have differs : '\n' ≠ quote := by
    rcases isQuote with rfl | rfl <;> decide
  simp [differs, Text.newline_notMem_escape text]

/-- The tokens of an escaped text between two quotes, and of any text behind it. -/
theorem scanFrom_escaped (isQuote : quote = '"' ∨ quote = '\'') (position : Position)
    (text rest : List Char) :
    scanFrom position (quote :: (Text.escape text ++ quote :: rest)) =
      ⟨.string, String.ofList text, position⟩ ::
        scanFrom (position.past (quote :: (Text.escape text ++ [quote]))) rest := by
  have notBlank : Text.isBlank quote = false := by
    rcases isQuote with rfl | rfl <;> decide
  have notSlash : quote ≠ '/' := by
    rcases isQuote with rfl | rfl <;> decide
  have cut : splitGap false (quote :: (Text.escape text ++ quote :: rest)) =
      ([], quote :: (Text.escape text ++ quote :: rest)) :=
    splitGap_lexeme notBlank fun slash => absurd slash notSlash
  rw [scanFrom_lexeme cut, read_escaped isQuote, Position.past_nil]

/-- Escaping is undone by scanning, in front of any text. An escaped text between two quotes of
either kind is one string token with that text, at the start. The other tokens are those of what
follows, further right by the quotes and the escaped text if they are on its first line. -/
theorem scan_escaped (isQuote : quote = '"' ∨ quote = '\'') (text rest : String) :
    scan (String.singleton quote ++ Text.escapeString text ++ String.singleton quote ++ rest) =
      ⟨.string, text, .start⟩ ::
        (scan rest).map
          (Token.moved (Position.indented (2 + (Text.escapeString text).length))) := by
  have whole :
      (String.singleton quote ++ Text.escapeString text ++ String.singleton quote ++ rest).toList =
        quote :: (Text.escape text.toList ++ quote :: rest.toList) := by
    simp [Text.escapeString]
  have behind : Position.start.past (quote :: (Text.escape text.toList ++ [quote])) =
      Position.start.indented (2 + (Text.escapeString text).length) := by
    rw [Position.past_oneLine (newline_notMem_literal isQuote text.toList)]
    simp [Text.escapeString, Position.start, Position.indented]
    omega
  have counted : 1 ≤ Position.start.line := Nat.le_refl 1
  have shifted := scanFrom_moved
    (Position.past_indented (2 + (Text.escapeString text).length) counted) rest.toList
  rw [scan, whole]
  have escaped := scanFrom_escaped isQuote Position.start text.toList rest.toList
  rw [behind, shifted, String.ofList_toList] at escaped
  exact escaped

/-- A backslash, the closing quote, the null character and a line break, in front of two lines. -/
theorem scan_escaped_lines :
    Text.escapeString "\\'\x00\n" = "\\\\\\'\x00\\n" ∧
      scan "'\\\\\\'\x00\\n'x\ny" =
        [⟨.string, "\\'\x00\n", ⟨1, 1⟩⟩, ⟨.identifier, "x", ⟨1, 10⟩⟩, ⟨.identifier, "y", ⟨2, 1⟩⟩,
          ⟨.ending, "", ⟨2, 2⟩⟩] := by
  have behind : scan "x\ny" =
      [⟨.identifier, "x", ⟨1, 1⟩⟩, ⟨.identifier, "y", ⟨2, 1⟩⟩, ⟨.ending, "", ⟨2, 2⟩⟩] := by
    decide +kernel
  have isQuote : '\'' = '"' ∨ '\'' = '\'' := .inr rfl
  have escaped := scan_escaped isQuote "\\'\x00\n" "x\ny"
  rw [behind] at escaped
  exact ⟨by decide, escaped⟩

end Token

end SystemsLang
