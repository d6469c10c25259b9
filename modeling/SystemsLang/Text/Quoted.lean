/-!
# Quoted text

A string literal stands between two equal quotes, double or single. Inside it a backslash gives the
character after it another meaning (`n`, `t` and `r` are the line break, the tab and the carriage
return; every other character stands for itself). `escape` writes a text so that it may stand
between either quote, and `readQuoted` reads a literal up to its closing quote.

Main statement: whatever `escape` writes is read back, and reading stops exactly at the quote that
follows it (`readQuoted_escape`).
-/

namespace SystemsLang.Text

/-- What the character after a backslash stands for. -/
def unescape (character : Char) : Char :=
  match character with
  | 'n' => '\n'
  | 't' => '\t'
  | 'r' => '\r'
  | other => other

/-- One character as it is written inside quotes. -/
def escapeChar (character : Char) : List Char :=
  match character with
  | '\n' => ['\\', 'n']
  | '\t' => ['\\', 't']
  | '\r' => ['\\', 'r']
  | '\\' => ['\\', '\\']
  | '"' => ['\\', '"']
  | '\'' => ['\\', '\'']
  | other => [other]

/-- A text as it is written inside quotes: both quotes, the backslash and the three characters with
a letter of their own take a backslash, everything else is written as it is. -/
def escape (characters : List Char) : List Char :=
  characters.flatMap escapeChar

/-- `escape` on strings. -/
def escapeString (text : String) : String :=
  String.ofList (escape text.toList)

/-- No line break is written for a character. -/
theorem newline_notMem_escape (characters : List Char) : '\n' ∉ escape characters := by
  intro member
  obtain ⟨character, -, member⟩ := List.mem_flatMap.mp member
  unfold escapeChar at member
  split at member
  case h_7 notNewline _ _ _ _ _ => exact notNewline (List.mem_singleton.mp member).symm
  all_goals exact absurd member (by decide)

/-- A literal read behind its opening quote: the characters it spans, closing quote included, the
text it stands for, and what follows it. -/
structure Quoted where
  span : List Char
  value : List Char
  rest : List Char
deriving DecidableEq

namespace Quoted

/-- Puts one character of the text, with the characters that spell it, before a literal. -/
def push (spelling : List Char) (character : Char) (literal : Quoted) : Quoted :=
  { literal with span := spelling ++ literal.span, value := character :: literal.value }

end Quoted

/-- Reads a literal whose opening quote has just been passed. It fails only if the text runs out,
before the closing quote or behind a backslash; line breaks belong to the literal. -/
def readQuoted (quote : Char) : List Char → Option Quoted
  | [] => none
  | ['\\'] => none
  | '\\' :: character :: rest =>
    (readQuoted quote rest).map (Quoted.push ['\\', character] (unescape character))
  | character :: rest =>
    if character = quote then some ⟨[character], [], rest⟩
    else (readQuoted quote rest).map (Quoted.push [character] character)

/-- A literal and what follows it make up the text it is read from. -/
theorem readQuoted_span_append_rest {quote : Char} {text : List Char} {literal : Quoted}
    (read : readQuoted quote text = some literal) : literal.span ++ literal.rest = text := by
  fun_induction readQuoted quote text generalizing literal with
  | case1 => cases read
  | case2 => cases read
  | case3 character rest inductionHypothesis =>
    obtain ⟨inner, readInner, rfl⟩ := Option.map_eq_some_iff.mp read
    simp [Quoted.push, inductionHypothesis readInner]
  | case4 rest =>
    cases read
    simp
  | case5 character rest _ _ _ inductionHypothesis =>
    obtain ⟨inner, readInner, rfl⟩ := Option.map_eq_some_iff.mp read
    simp [Quoted.push, inductionHypothesis readInner]

/-- Reading one escaped character takes exactly its spelling. -/
theorem readQuoted_escapeChar (quote : Char) (isQuote : quote = '"' ∨ quote = '\'')
    (character : Char) (rest : List Char) :
    readQuoted quote (escapeChar character ++ rest) =
      (readQuoted quote rest).map (Quoted.push (escapeChar character) character) := by
  unfold escapeChar
  split <;> try rfl
  rename_i notNewline notTab notReturn notBackslash notDouble notSingle
  have differs : character ≠ quote := by
    rcases isQuote with rfl | rfl
    · exact notDouble
    · exact notSingle
  rw [List.singleton_append, readQuoted.eq_4 _ _ _ (by intro h; exact absurd h notBackslash)
    (by intro _ _ h; exact absurd h notBackslash)]
  rw [if_neg differs]

/-- An escaped text followed by a quote reads back as the text, and the reading ends at that
quote. -/
theorem readQuoted_escape (quote : Char) (isQuote : quote = '"' ∨ quote = '\'')
    (text rest : List Char) :
    readQuoted quote (escape text ++ quote :: rest) =
      some ⟨escape text ++ [quote], text, rest⟩ := by
  induction text with
  | nil =>
    rcases isQuote with rfl | rfl <;> rfl
  | cons character text inductionHypothesis =>
    have step : escape (character :: text) = escapeChar character ++ escape text := by
      simp [escape]
    rw [step, List.append_assoc, readQuoted_escapeChar quote isQuote, inductionHypothesis]
    simp [Quoted.push]

end SystemsLang.Text
