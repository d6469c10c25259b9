import SystemsLang.Proofs.Scanning.Lossless

/-!
# Other gaps between the same lexemes

The lexemes of a text are written one after the other with separators between them, whatever gaps
there were before. The new text is cut into the same lexemes, with the same kinds and texts
(`cut_of_spaced`).

For that a lexeme that stands in front of a blank, or at the end of a text, has to be read again as
what it is, whatever it was glued to before (`read_isolated`). Every sort of lexeme has it, stray
characters included. Only behind a quote that is never closed nothing can follow; such a lexeme is
the last of its text in any case.
-/

namespace SystemsLang.Token

/-- Lexemes one after the other with separators between them, and nothing else. -/
inductive Spaced : List (List Char) → List Char → Prop
  | none : Spaced [] []
  | last (lexeme : List Char) : Spaced [lexeme] lexeme
  | cons {lexeme next separator text : List Char} {rest : List (List Char)}
      (separates : Separator separator) (later : Spaced (next :: rest) text) :
    Spaced (lexeme :: next :: rest) (lexeme ++ separator ++ text)

/-- The lexemes of a source as they are written, string literals with their quotes. -/
def sourcesOf (source : String) : List (List Char) :=
  (segments source.toList).parts.map fun part => part.2.source

/-- Nothing follows, or a blank does. -/
def Isolates (after : List Char) : Prop :=
  ∀ next ∈ after.head?, Text.isBlank next = true

variable {first second next : Char} {text after : List Char}

/-- A blank is no character of a word. -/
theorem not_continuesWord_of_isBlank (blank : Text.isBlank next = true) :
    continuesWord next = false := by
  rw [Bool.eq_false_iff]
  intro continues
  rw [(not_gap_of_continuesWord continues).1] at blank
  cases blank

/-- Nor is it a digit. -/
theorem not_isDigit_of_isBlank (blank : Text.isBlank next = true) : next.isDigit = false := by
  rw [Bool.eq_false_iff]
  intro digit
  have continues := not_continuesWord_of_isBlank blank
  rw [(digit_of_isDigit digit).1] at continues
  cases continues

/-- The second character of an operator is no blank. -/
theorem ofPair?_of_isBlank (first : Char) (blank : Text.isBlank second = true) :
    Kind.ofPair? first second = none := by
  unfold Kind.ofPair?
  split <;> first | rfl | exact absurd blank (by decide)

/-- The part of a text that meets a condition is taken again in front of a blank. -/
theorem takeWhile_isolated {condition : Char → Bool}
    (stops : ∀ next, Text.isBlank next = true → condition next = false) (text : List Char)
    (isolates : Isolates after) :
    (text.takeWhile condition ++ after).takeWhile condition = text.takeWhile condition ∧
      (text.takeWhile condition ++ after).dropWhile condition = after :=
  takeWhile_append (all_takeWhile condition text) fun next member =>
    stops next (isolates next member)

/-- A word is read again. -/
theorem word_isolated (start text : List Char) (isolates : Isolates after) :
    Lexeme.word start (text.takeWhile continuesWord ++ after) =
      { Lexeme.word start text with rest := after } := by
  obtain ⟨taken, left⟩ :=
    takeWhile_isolated (fun _ => not_continuesWord_of_isBlank) text isolates
  rw [Lexeme.word, taken, left]
  rfl

/-- A number is read again. -/
theorem number_isolated (first : Char) (text : List Char) (isolates : Isolates after) :
    ∃ tail, (Lexeme.number first text).source = first :: tail ∧
      Lexeme.number first (tail ++ after) = { Lexeme.number first text with rest := after } := by
  have whole := takeWhile_isolated (fun _ => not_isDigit_of_isBlank) text isolates
  -- Without a fraction the number ends where its digits do.
  have plain (behind : List Char) :
      Lexeme.number first (text.takeWhile Char.isDigit ++ after) =
        { Lexeme.plain .number (first :: text.takeWhile Char.isDigit) behind with
          rest := after } := by
    unfold Lexeme.number
    rw [whole.1, whole.2]
    split
    · rename_i digit rest
      have blank : Text.isBlank '.' = true := isolates '.' rfl
      exact absurd blank (by decide)
    · rfl
  unfold Lexeme.number
  split
  · rename_i digit rest behind
    split
    · rename_i isDigit
      refine ⟨text.takeWhile Char.isDigit ++ '.' :: digit :: rest.takeWhile Char.isDigit, rfl, ?_⟩
      have point : ∀ next ∈
          ('.' :: digit :: (rest.takeWhile Char.isDigit ++ after)).head?, next.isDigit = false := by
        rintro next ⟨⟩
        decide
      obtain ⟨taken, left⟩ := takeWhile_append (all_takeWhile Char.isDigit text) point
      obtain ⟨takenLater, leftLater⟩ :=
        takeWhile_isolated (fun _ => not_isDigit_of_isBlank) rest isolates
      simp only [List.append_assoc, List.cons_append, taken, left, isDigit, if_true, takenLater,
        leftLater]
      rfl
    · exact ⟨text.takeWhile Char.isDigit, rfl, plain _⟩
  · exact ⟨text.takeWhile Char.isDigit, rfl, plain _⟩

/-- A character that is read for itself inside a string literal is no backslash. -/
theorem ne_backslash {rest : List Char} (lone : first = '\\' → rest = [] → False)
    (pair : ∀ next later, first = '\\' → rest = next :: later → False) : first ≠ '\\' := by
  rintro rfl
  cases rest with
  | nil => exact lone rfl rfl
  | cons next later => exact pair next later rfl rfl

/-- A string literal is read again whatever follows it. -/
theorem readQuoted_again {quote : Char} {literal : Text.Quoted}
    (read : Text.readQuoted quote text = some literal) (after : List Char) :
    Text.readQuoted quote (literal.span ++ after) = some { literal with rest := after } := by
  fun_induction Text.readQuoted quote text generalizing literal with
  | case1 | case2 => cases read
  | case3 character rest inductionHypothesis =>
    obtain ⟨inner, readInner, rfl⟩ := Option.map_eq_some_iff.mp read
    have again : Text.readQuoted quote (['\\', character] ++ inner.span ++ after) =
        (Text.readQuoted quote (inner.span ++ after)).map
          (Text.Quoted.push ['\\', character] (Text.unescape character)) := by
      rw [List.append_assoc, List.cons_append, List.cons_append, List.nil_append,
        Text.readQuoted]
    exact again.trans (by rw [inductionHypothesis readInner]; rfl)
  | case4 rest lone pair =>
    cases read
    have notEscape := ne_backslash lone pair
    rw [List.singleton_append, Text.readQuoted.eq_4 _ _ _ (fun same => absurd same notEscape)
      (fun _ _ same => absurd same notEscape), if_pos rfl]
  | case5 character rest lone pair notQuote inductionHypothesis =>
    obtain ⟨inner, readInner, rfl⟩ := Option.map_eq_some_iff.mp read
    have notEscape := ne_backslash lone pair
    have again : Text.readQuoted quote ([character] ++ inner.span ++ after) =
        (Text.readQuoted quote (inner.span ++ after)).map
          (Text.Quoted.push [character] character) := by
      rw [List.append_assoc, List.singleton_append,
        Text.readQuoted.eq_4 _ _ _ (fun same => absurd same notEscape)
          (fun _ _ same => absurd same notEscape), if_neg notQuote]
    exact again.trans (by rw [inductionHypothesis readInner]; rfl)

/-- An operator or mark is read again. -/
theorem mark_isolated (first : Char) (text : List Char) (isolates : Isolates after) :
    ∃ tail, (Lexeme.mark first text).source = first :: tail ∧
      Lexeme.mark first (tail ++ after) = { Lexeme.mark first text with rest := after } := by
  -- Alone the character is read, since no operator has a blank behind it.
  have alone (behind : List Char) : Lexeme.mark first after =
      { Lexeme.plain ((Kind.ofSingle? first).getD .unexpectedChar) [first] behind with
        rest := after } := by
    unfold Lexeme.mark
    split
    · rename_i second rest
      rw [ofPair?_of_isBlank first (isolates second rfl)]
      rfl
    · rfl
  unfold Lexeme.mark
  split
  · rename_i second rest
    split
    · rename_i kind spelled
      refine ⟨[second], rfl, ?_⟩
      simp only [List.singleton_append, spelled]
      rfl
    · exact ⟨[], rfl, alone _⟩
  · exact ⟨[], rfl, alone _⟩

/-- What is read behind a quote is read again, and if the quote is never closed, it is read again at
the end of a text. -/
theorem quoted_isolated (quote : Char) (text : List Char)
    (last : (Lexeme.quoted quote text).kind = .unterminatedString → after = []) :
    ∃ tail, (Lexeme.quoted quote text).source = quote :: tail ∧
      Lexeme.quoted quote (tail ++ after) = { Lexeme.quoted quote text with rest := after } := by
  cases read : Text.readQuoted quote text with
  | some literal =>
    have same : Lexeme.quoted quote text =
        ⟨.string, quote :: literal.span, literal.value, literal.rest⟩ := by
      rw [Lexeme.quoted, read]
    refine ⟨literal.span, by rw [same], ?_⟩
    rw [same, Lexeme.quoted, readQuoted_again read]
  | none =>
    have same : Lexeme.quoted quote text =
        Lexeme.plain .unterminatedString (quote :: text) [] := by
      rw [Lexeme.quoted, read]
    obtain rfl : after = [] := last (by rw [same]; rfl)
    refine ⟨text, by rw [same]; rfl, ?_⟩
    rw [List.append_nil, same]
    rfl

/-- An at sign with no word behind it is read alone. -/
theorem head?_isolated_of_not_at (first : Char) {text tail : List Char}
    (isolates : Isolates after) (begins : (Lexeme.mark first text).source = first :: tail)
    (notAt : ¬(first = '@' ∧ text.head?.any startsWord = true)) :
    ¬(first = '@' ∧ (tail ++ after).head?.any startsWord = true) := by
  rintro ⟨rfl, follows⟩
  have single : (Lexeme.mark '@' text).source = ['@'] := by
    unfold Lexeme.mark
    split <;> rfl
  obtain rfl : tail = [] := (List.cons.inj (begins.symm.trans single)).2
  cases after with
  | nil => cases follows
  | cons next later =>
    have starts : startsWord next = true := follows
    have continues := continuesWord_of_startsWord starts
    rw [not_continuesWord_of_isBlank (isolates next rfl)] at continues
    cases continues

/-- Every lexeme is read again in front of a blank, and so it is at the end of a text, where alone
a string literal without its closing quote can stand. -/
theorem read_isolated (first : Char) (text : List Char) (isolates : Isolates after)
    (last : (Lexeme.read first text).kind = .unterminatedString → after = []) :
    ∃ tail, (Lexeme.read first text).source = first :: tail ∧
      Lexeme.read first (tail ++ after) = { Lexeme.read first text with rest := after } := by
  -- The cases are those of the scanner, in its order; the character behind `@` is looked at as
  -- well.
  by_cases starts : startsWord first = true
  · have word (text : List Char) : Lexeme.read first text = Lexeme.word [first] text := by
      rw [Lexeme.read, if_pos starts]
    rw [word]
    exact ⟨_, rfl, (word _).trans (word_isolated [first] text isolates)⟩
  by_cases digit : first.isDigit = true
  · have number (text : List Char) : Lexeme.read first text = Lexeme.number first text := by
      rw [Lexeme.read, if_neg starts, if_pos digit]
    simp only [number]
    exact number_isolated first text isolates
  by_cases isQuote : first = '"' ∨ first = '\''
  · have quoted (text : List Char) : Lexeme.read first text = Lexeme.quoted first text := by
      rw [Lexeme.read, if_neg starts, if_neg digit, if_pos isQuote]
    simp only [quoted] at last ⊢
    exact quoted_isolated first text last
  by_cases sign : first = '@' ∧ text.head?.any startsWord = true
  · have word {text : List Char} (follows : text.head?.any startsWord = true) :
        Lexeme.read first text = Lexeme.word [first] text := by
      rw [Lexeme.read, if_neg starts, if_neg digit, if_neg isQuote, if_pos ⟨sign.1, follows⟩]
    have follows : (text.takeWhile continuesWord ++ after).head?.any startsWord = true := by
      cases text with
      | nil => cases sign.2
      | cons next later =>
        rw [List.takeWhile_cons, if_pos (continuesWord_of_startsWord sign.2)]
        exact sign.2
    rw [word sign.2]
    exact ⟨_, rfl, (word follows).trans (word_isolated [first] text isolates)⟩
  · have mark {text : List Char} (notAt : ¬(first = '@' ∧ text.head?.any startsWord = true)) :
        Lexeme.read first text = Lexeme.mark first text := by
      rw [Lexeme.read, if_neg starts, if_neg digit, if_neg isQuote, if_neg notAt]
    rw [mark sign]
    obtain ⟨tail, begins, again⟩ := mark_isolated first text isolates
    exact ⟨tail, begins, (mark (head?_isolated_of_not_at first isolates begins sign)).trans again⟩

/-- An operator or mark is not of the kind of an unclosed string literal, which is that of no
spelling. -/
theorem mark_ne_unterminatedString (first : Char) (text : List Char) :
    (Lexeme.mark first text).kind ≠ .unterminatedString := by
  have single : (Kind.ofSingle? first).getD .unexpectedChar ≠ .unterminatedString := by
    unfold Kind.ofSingle?
    split <;> decide
  unfold Lexeme.mark
  split
  · split
    · rename_i kind spelled
      have operator := Kind.ofPair?_category spelled
      rintro rfl
      cases operator
    · exact single
  · exact single

/-- Nothing stands behind a string literal without its closing quote. -/
theorem rest_of_unterminated (first : Char) (text : List Char) :
    (Lexeme.read first text).kind = .unterminatedString → (Lexeme.read first text).rest = [] := by
  unfold Lexeme.read
  split
  · exact fun failed => absurd failed (Kind.ofWord_ne (by decide) (by decide) (by decide))
  split
  · intro failed
    rw [Lexeme.number_kind] at failed
    cases failed
  split
  · unfold Lexeme.quoted
    split
    · exact fun impossible => nomatch impossible
    · exact fun _ => rfl
  split
  · exact fun failed => absurd failed (Kind.ofWord_ne (by decide) (by decide) (by decide))
  · exact fun failed => absurd failed (mark_ne_unterminatedString first text)

/-- A lexeme that is cut off a text is cut off again in front of a blank or at the end of a text. -/
theorem cut_isolated {first : Char} (text : List Char) (isolates : Isolates after)
    (notBlank : Text.isBlank first = false) (notComment : first = '/' → text.head? ≠ some '/')
    (last : (Lexeme.read first text).kind = .unterminatedString → after = []) :
    cut ((Lexeme.read first text).source ++ after) =
      ((Lexeme.read first text).kind, String.ofList (Lexeme.read first text).value) ::
        cut after := by
  obtain ⟨tail, begins, again⟩ := read_isolated first text isolates last
  have whole := Lexeme.source_append_rest first text
  rw [begins, List.cons_append, List.cons_inj_right] at whole
  have stillNoComment : first = '/' → (tail ++ after).head? ≠ some '/' := by
    intro slash follows
    cases tail with
    | nil =>
      have blank : Text.isBlank '/' = true := isolates '/' follows
      exact absurd blank (by decide)
    | cons second later =>
      refine notComment slash ?_
      rw [← whole]
      exact follows
  rw [begins, List.cons_append, cut_read notBlank stillNoComment, again]

/-- At the end of a text nothing follows. -/
theorem isolates_nil : Isolates [] := by
  intro next impossible
  cases impossible

/-- A separator is not empty, and begins with a blank. -/
theorem Separator.isolates {separator : List Char} (separates : Separator separator)
    (text : List Char) : Isolates (separator ++ text) := by
  cases separates with
  | mk isBlank later =>
    rintro next ⟨⟩
    exact isBlank

/-- With other separators between them the lexemes of a text are cut off again. -/
theorem cut_of_spaced {text other : List Char}
    (spaced : Spaced ((segments text).parts.map fun part => part.2.source) other) :
    cut other = cut text := by
  fun_induction segments text generalizing other with
  | case1 text gap same =>
    cases spaced
    rw [cut_nil, cut_eq text, same]
    rfl
  | case2 text gap first rest same _ inductionHypothesis =>
    have notBlank : Text.isBlank first = false := by
      refine (splitGap_sound text).2.2 first ?_
      rw [same]
      rfl
    have notComment : first = '/' → rest.head? ≠ some '/' :=
      splitGap_notComment false (by rw [same])
    have behind : cut text = ((Lexeme.read first rest).kind,
        String.ofList (Lexeme.read first rest).value) :: cut (Lexeme.read first rest).rest := by
      rw [cut_eq text, same]
      rfl
    rw [behind]
    dsimp only [Segmentation.push] at spaced
    rw [List.map_cons] at spaced
    generalize laterParts : (segments (Lexeme.read first rest).rest).parts.map
      (fun part => part.2.source) = later at spaced inductionHypothesis
    -- A string without its closing quote takes the rest of the text, so it can only be the last
    -- lexeme.
    cases spaced with
    | last =>
      have none : cut (Lexeme.read first rest).rest = [] := by
        rw [cut, List.map_eq_nil_iff.mp laterParts]
        rfl
      have alone := cut_isolated rest isolates_nil notBlank notComment fun _ => rfl
      rw [List.append_nil] at alone
      rw [alone, cut_nil, none]
    | cons separates spacedLater =>
      have closed : (Lexeme.read first rest).kind ≠ .unterminatedString := by
        intro failed
        rw [rest_of_unterminated first rest failed, segments] at laterParts
        cases laterParts
      rw [List.append_assoc, cut_isolated rest (separates.isolates _) notBlank notComment
        fun failed => absurd failed closed, cut_separator separates,
        inductionHypothesis spacedLater]

end SystemsLang.Token
