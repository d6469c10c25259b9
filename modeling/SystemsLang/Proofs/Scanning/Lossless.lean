import SystemsLang.Proofs.Scanning.Gaps

/-!
# Scanning loses nothing and places every token

A text is gaps and lexemes in turn, and its tokens are those of the lexemes, in order, with one end
marker behind them (`tokenized_scan`). A token has the text of its lexeme, except that a string
literal is decoded, and it stands where its lexeme does: on a line for each line break before it,
counted from one, and in a column for each character behind the last of these breaks.

All this is said of the text itself and not of the way in which it is scanned. In particular a null
character is a character like any other, and only the end of the text ends it.
-/

namespace SystemsLang

/-- The position behind a text, by the line breaks in it and the characters behind the last one. -/
def Position.behind (text : List Char) : Position :=
  ⟨1 + text.count '\n', 1 + (text.reverse.takeWhile (· ≠ '\n')).length⟩

namespace Position

/-- The position behind one more character. -/
theorem behind_concat (text : List Char) (character : Char) :
    behind (text ++ [character]) = (behind text).next character := by
  by_cases ends : character = '\n'
  · simp [behind, next, ends, Nat.add_assoc]
  · simp [behind, next, ends, Nat.add_assoc]

/-- Following a text that stands behind another leads to the position behind both. -/
theorem past_behind (before text : List Char) :
    (behind before).past text = behind (before ++ text) := by
  induction text generalizing before with
  | nil => rw [past_nil, List.append_nil]
  | cons character rest inductionHypothesis =>
    rw [past_cons, ← behind_concat, inductionHypothesis, List.append_assoc, List.singleton_append]

/-- A text without a line break leads to a place on the same line. -/
theorem past_oneLine {text : List Char} (oneLine : '\n' ∉ text) (position : Position) :
    position.past text = ⟨position.line, position.column + text.length⟩ := by
  induction text generalizing position with
  | nil => rfl
  | cons character rest inductionHypothesis =>
    obtain ⟨differs, restOneLine⟩ := not_or.mp (mt List.mem_cons.mpr oneLine)
    rw [past_cons, inductionHypothesis restOneLine, next, if_neg (Ne.symm differs),
      List.length_cons]
    dsimp only
    rw [Nat.add_right_comm, Nat.add_assoc]

/-- Two parts of one text that begin it are the same if the same position stands behind them. -/
theorem behind_inj {before text other rest : List Char} (same : before ++ text = other ++ rest)
    (place : behind before = behind other) : before = other := by
  have nothing {before between : List Char}
      (place : behind before = behind (before ++ between)) : between = [] := by
    have noBreak : '\n' ∉ between := by
      have lines := congrArg line place
      simp only [behind, List.count_append] at lines
      apply List.count_eq_zero.mp
      omega
    rw [← past_behind, past_oneLine noBreak] at place
    have columns := congrArg column place
    dsimp only at columns
    apply List.length_eq_zero_iff.mp
    omega
  rcases List.append_eq_append_iff.mp same with ⟨between, rfl, -⟩ | ⟨between, rfl, -⟩
  · rw [nothing place, List.append_nil]
  · rw [nothing place.symm, List.append_nil]

end Position

/-- The first text, written between quotes of the given kind, stands for the second: a backslash
gives the character behind it another meaning, and no other character is the quote. -/
inductive Text.Denotes (quote : Char) : List Char → List Char → Prop
  | nil : Denotes quote [] []
  | plain {character : Char} {content value : List Char} (notQuote : character ≠ quote)
      (notEscape : character ≠ '\\') (later : Denotes quote content value) :
    Denotes quote (character :: content) (character :: value)
  | escaped {character : Char} {content value : List Char} (later : Denotes quote content value) :
    Denotes quote ('\\' :: character :: content) (unescape character :: value)

/-- What is read behind an opening quote is a text that stands for the value, and the quote. -/
theorem Text.denotes_of_readQuoted {quote : Char} {text : List Char} {literal : Quoted}
    (read : readQuoted quote text = some literal) :
    ∃ content, literal.span = content ++ [quote] ∧ Denotes quote content literal.value := by
  fun_induction readQuoted quote text generalizing literal with
  | case1 | case2 => cases read
  | case3 character rest inductionHypothesis =>
    obtain ⟨inner, readInner, rfl⟩ := Option.map_eq_some_iff.mp read
    obtain ⟨content, span, denotes⟩ := inductionHypothesis readInner
    exact ⟨'\\' :: character :: content, by simp [Quoted.push, span], .escaped denotes⟩
  | case4 rest =>
    cases read
    exact ⟨[], rfl, .nil⟩
  | case5 character rest lone pair notQuote inductionHypothesis =>
    obtain ⟨inner, readInner, rfl⟩ := Option.map_eq_some_iff.mp read
    obtain ⟨content, span, denotes⟩ := inductionHypothesis readInner
    refine ⟨character :: content, by simp [Quoted.push, span], .plain notQuote ?_ denotes⟩
    -- A backslash would have been read with the character behind it, or have ended the text.
    rintro rfl
    cases rest with
    | nil => exact lone rfl rfl
    | cons next later => exact pair next later rfl rfl

namespace Token

/-- The text of a token, by its kind and its lexeme: the lexeme itself, or what a string literal
stands for. -/
inductive Carries : Kind → List Char → List Char → Prop
  | itself {kind : Kind} {lexeme : List Char} (notString : kind ≠ .string) :
    Carries kind lexeme lexeme
  | decoded {quote : Char} {content value : List Char} (isQuote : quote = '"' ∨ quote = '\'')
      (denotes : Text.Denotes quote content value) :
    Carries .string (quote :: (content ++ [quote])) value

/-- A lexeme that stands for what it spans is not a string literal. -/
theorem Carries.plain {kind : Kind} {source rest : List Char} (notString : kind ≠ .string) :
    Carries (Lexeme.plain kind source rest).kind (Lexeme.plain kind source rest).source
      (Lexeme.plain kind source rest).value :=
  .itself notString

/-- Any other lexeme stands for itself only. -/
theorem Carries.eq_of_ne {kind : Kind} {lexeme value : List Char}
    (carries : Carries kind lexeme value) (notString : kind ≠ .string) : value = lexeme := by
  cases carries with
  | itself => rfl
  | decoded => exact absurd rfl notString

/-- The text of what is read behind a quote. -/
theorem carries_quoted {quote : Char} (isQuote : quote = '"' ∨ quote = '\'') (text : List Char) :
    Carries (Lexeme.quoted quote text).kind (Lexeme.quoted quote text).source
      (Lexeme.quoted quote text).value := by
  unfold Lexeme.quoted
  split
  · rename_i literal read
    obtain ⟨content, span, denotes⟩ := Text.denotes_of_readQuoted read
    dsimp only
    rw [span]
    exact .decoded isQuote denotes
  · exact .plain (by decide)

/-- The text of whatever is read is that of its lexeme. -/
theorem carries_read (first : Char) (text : List Char) :
    Carries (Lexeme.read first text).kind (Lexeme.read first text).source
      (Lexeme.read first text).value := by
  have word (start : List Char) : Carries (Lexeme.word start text).kind
      (Lexeme.word start text).source (Lexeme.word start text).value :=
    .plain (Kind.ofWord_ne (by decide) (by decide) (by decide))
  unfold Lexeme.read
  split
  · exact word [first]
  split
  · unfold Lexeme.number
    split
    · split <;> exact .plain (by decide)
    · exact .plain (by decide)
  split
  · rename_i isQuote
    exact carries_quoted isQuote text
  split
  · exact word [first]
  · have notString : (Lexeme.mark first text).kind ≠ .string := Lexeme.mark_ne (by decide)
    have itself : (Lexeme.mark first text).value = (Lexeme.mark first text).source := by
      unfold Lexeme.mark
      split
      · split <;> rfl
      · rfl
    rw [itself]
    exact .itself notString

/-- The tokens of a text that stands behind another. The text is a gap, a lexeme, and so on, and a
gap at the end. Each lexeme begins with a character that is not blank, and gives one token, at the
place where the lexeme stands. The end marker is the last token and the only one of its kind. -/
inductive Tokenized : (before text : List Char) → List Token → Prop
  | ending {before gap : List Char} (isGap : Gap gap) :
    Tokenized before gap [⟨.ending, "", .behind (before ++ gap)⟩]
  | token {before gap lexeme rest value : List Char} {kind : Kind} {tokens : List Token}
      (isGap : ClosedGap gap)
      (begins : ∃ first later, lexeme = first :: later ∧ Text.isBlank first = false)
      (notEnding : kind ≠ .ending) (carries : Carries kind lexeme value)
      (goesOn : Tokenized (before ++ gap ++ lexeme) rest tokens) :
    Tokenized before (gap ++ lexeme ++ rest)
      (⟨kind, String.ofList value, .behind (before ++ gap)⟩ :: tokens)

/-- A lexeme begins with the character from which on it is read. -/
theorem exists_source_eq (first : Char) (text : List Char) :
    ∃ later, (Lexeme.read first text).source = first :: later := by
  have whole := Lexeme.source_append_rest first text
  obtain ⟨head, later, same⟩ := List.exists_cons_of_ne_nil (Lexeme.source_ne_nil first text)
  rw [same, List.cons_append] at whole
  obtain ⟨rfl, -⟩ := List.cons.inj whole
  exact ⟨later, same⟩

/-- The tokens of a segmented text that stands behind another. -/
theorem tokenized_segments (before text : List Char) :
    Tokenized before text
      (tokensOf (.behind before) (segments text).parts (segments text).trailing) := by
  have sound := splitGap_sound text
  have whole := gap_append_rest false text
  fun_induction segments text generalizing before with
  | case1 text gap cut =>
    rw [cut] at sound whole
    have same : gap = text := by simpa using whole
    rw [tokensOf, Position.past_behind, ← same]
    exact .ending sound.1
  | case2 text gap first rest cut _ inductionHypothesis =>
    rw [cut] at sound whole
    obtain ⟨-, closed, notBlank⟩ := sound
    obtain ⟨later, begins⟩ := exists_source_eq first rest
    have goesOn := inductionHypothesis (before ++ gap ++ (Lexeme.read first rest).source)
      (splitGap_sound _) (gap_append_rest false _)
    have split : text =
        gap ++ (Lexeme.read first rest).source ++ (Lexeme.read first rest).rest := by
      rw [List.append_assoc, Lexeme.source_append_rest]
      exact whole.symm
    dsimp only [Segmentation.push]
    rw [tokensOf, Position.past_behind, Position.past_behind, split]
    exact .token (closed (List.cons_ne_nil _ _)) ⟨first, later, begins, notBlank first rfl⟩
      (Lexeme.read_ne_ending first rest) (carries_read first rest) goesOn

/-- Scanning loses nothing: a text is gaps and lexemes in turn, and its tokens are those of the
lexemes, each with the text and at the place of its lexeme, with one end marker behind them. -/
theorem tokenized_scan (source : String) : Tokenized [] source.toList (scan source) :=
  tokenized_segments [] source.toList

end Token

end SystemsLang
