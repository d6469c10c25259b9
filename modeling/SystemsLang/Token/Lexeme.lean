import SystemsLang.Text.Blank
import SystemsLang.Text.Quoted
import SystemsLang.Token

/-!
# Lexemes and gaps

A text is cut into lexemes with gaps between them. A gap is any run of blank characters and
comments, where a comment runs from two slashes to the end of its line. A lexeme is the longest
word, number, operator or mark that the text begins with, or a whole string literal. A character
that begins none of these is a lexeme of its own of a failing kind, and so is the rest of the text
behind a quote that is never closed, so every text has a cut.

Main statements: cutting loses nothing (`gap_append_rest`, `Lexeme.source_append_rest`) and a
lexeme is never empty (`Lexeme.length_rest_lt`).
-/

namespace SystemsLang.Token

/-- Whether a character can begin a word. -/
def startsWord (character : Char) : Bool :=
  character.isAlpha || character == '_'

/-- Whether a character can continue a word. -/
def continuesWord (character : Char) : Bool :=
  character.isAlphanum || character == '_'

/-- Cuts the gap off the front of a text. The first argument tells whether the text begins inside
a comment. -/
def splitGap : Bool → List Char → List Char × List Char
  | _, [] => ([], [])
  | true, character :: rest =>
    (splitGap (character != '\n') rest).map (character :: ·) id
  | false, '/' :: '/' :: rest =>
    (splitGap true ('/' :: rest)).map ('/' :: ·) id
  | false, character :: rest =>
    if Text.isBlank character then (splitGap false rest).map (character :: ·) id
    else ([], character :: rest)

/-- A gap and what follows it make up the text. -/
theorem gap_append_rest (comment : Bool) (text : List Char) :
    (splitGap comment text).1 ++ (splitGap comment text).2 = text := by
  fun_induction splitGap comment text <;> simp_all

/-- What follows a gap is no longer than the text. -/
theorem length_splitGap_le (comment : Bool) (text : List Char) :
    (splitGap comment text).2.length ≤ text.length := by
  have whole := congrArg List.length (gap_append_rest comment text)
  simp only [List.length_append] at whole
  omega

/-- A lexeme cut off the front of a text: its kind, the characters it spans, the text it stands
for, and what follows it. -/
structure Lexeme where
  kind : Kind
  source : List Char
  value : List Char
  rest : List Char
deriving DecidableEq

namespace Lexeme

/-- A lexeme that stands for just what it spans. -/
def plain (kind : Kind) (source rest : List Char) : Lexeme :=
  ⟨kind, source, source, rest⟩

/-- The word that begins with the given characters and goes on in the text. -/
def word (start text : List Char) : Lexeme :=
  let source := start ++ text.takeWhile continuesWord
  plain (Kind.ofWord (String.ofList source)) source (text.dropWhile continuesWord)

/-- The number that begins with the given digit and goes on in the text. A point belongs to it only
with a digit on its other side, so `1.name` is a number, a point and a name. -/
def number (first : Char) (text : List Char) : Lexeme :=
  let whole := first :: text.takeWhile Char.isDigit
  match text.dropWhile Char.isDigit with
  | '.' :: digit :: rest =>
    if digit.isDigit then
      plain .number (whole ++ '.' :: digit :: rest.takeWhile Char.isDigit)
        (rest.dropWhile Char.isDigit)
    else plain .number whole ('.' :: digit :: rest)
  | rest => plain .number whole rest

/-- The string literal behind a quote. If the text runs out first, all of it is one lexeme of a
failing kind that stands for itself. -/
def quoted (quote : Char) (text : List Char) : Lexeme :=
  match Text.readQuoted quote text with
  | some literal => ⟨.string, quote :: literal.span, literal.value, literal.rest⟩
  | none => plain .unterminatedString (quote :: text) []

/-- The operator or mark that begins with the given character, of two characters if it can be, and
otherwise the character alone, which may be a stray one. -/
def mark (first : Char) (text : List Char) : Lexeme :=
  let single := plain ((Kind.ofSingle? first).getD .unexpectedChar) [first] text
  match text with
  | second :: rest =>
    match Kind.ofPair? first second with
    | some kind => plain kind [first, second] rest
    | none => single
  | [] => single

/-- Cuts one lexeme off a text that begins with the given character. A word may begin with an at
sign if one of the characters that begin words follows. -/
def read (first : Char) (text : List Char) : Lexeme :=
  if startsWord first then word [first] text
  else if first.isDigit then number first text
  else if first = '"' ∨ first = '\'' then quoted first text
  else if first = '@' ∧ text.head?.any startsWord then word [first] text
  else mark first text

/-- A number and what follows it make up the text. -/
theorem number_source_append_rest (first : Char) (text : List Char) :
    (number first text).source ++ (number first text).rest = first :: text := by
  have digits := List.takeWhile_append_dropWhile (p := Char.isDigit) (l := text)
  unfold number
  split
  · rename_i after
    rw [after] at digits
    split <;> simpa [plain] using digits
  · simp [plain]

/-- A string literal, closed or not, and what follows it make up the text. -/
theorem quoted_source_append_rest (quote : Char) (text : List Char) :
    (quoted quote text).source ++ (quoted quote text).rest = quote :: text := by
  unfold quoted
  split
  · rename_i literal read
    simp [Text.readQuoted_span_append_rest read]
  · simp [plain]

/-- An operator or mark and what follows it make up the text. -/
theorem mark_source_append_rest (first : Char) (text : List Char) :
    (mark first text).source ++ (mark first text).rest = first :: text := by
  unfold mark
  split
  · split <;> simp [plain]
  · simp [plain]

/-- A lexeme and what follows it make up the text. -/
theorem source_append_rest (first : Char) (text : List Char) :
    (read first text).source ++ (read first text).rest = first :: text := by
  unfold read
  split
  · simp [word, plain]
  split
  · exact number_source_append_rest first text
  split
  · exact quoted_source_append_rest first text
  split
  · simp [word, plain]
  · exact mark_source_append_rest first text

/-- A lexeme spans at least its first character. -/
theorem source_ne_nil (first : Char) (text : List Char) : (read first text).source ≠ [] := by
  unfold read
  split
  · simp [word, plain]
  split
  · unfold number
    split
    · split <;> simp [plain]
    · simp [plain]
  split
  · unfold quoted
    split <;> simp [plain]
  split
  · simp [word, plain]
  · unfold mark
    split
    · split <;> simp [plain]
    · simp [plain]

/-- What follows a lexeme is shorter than the text. -/
theorem length_rest_lt (first : Char) (text : List Char) :
    (read first text).rest.length < (first :: text).length := by
  have whole := congrArg List.length (source_append_rest first text)
  have nonempty := List.length_pos_iff.mpr (source_ne_nil first text)
  rw [List.length_append] at whole
  omega

/-- What follows the lexeme behind a gap is shorter than the text. -/
theorem length_rest_lt_of_splitGap {text gap rest : List Char} {first : Char}
    (cut : splitGap false text = (gap, first :: rest)) :
    (read first rest).rest.length < text.length := by
  have shorter := length_rest_lt first rest
  have within := length_splitGap_le false text
  rw [cut] at within
  exact Nat.lt_of_lt_of_le shorter within

end Lexeme

end SystemsLang.Token
