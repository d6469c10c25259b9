import SystemsLang.Proofs.Scanning.Lexemes

/-!
# Cutting a text that begins with a lexeme

The kinds and the texts of the lexemes of a text do not depend on gaps. A blank in front adds
nothing, and a lexeme in front adds itself if what stands behind it cannot be taken for a part of
it. When that is so differs from one sort of lexeme to the next, and there is one lemma for each:
words, numbers, string literals, and operators and marks of one character and of two.
-/

namespace SystemsLang.Token

/-- The kinds and the texts of the lexemes of a text, in order. -/
def cut (text : List Char) : List (Kind × String) :=
  (segments text).parts.map fun part => (part.2.kind, String.ofList part.2.value)

/-- The kinds and the texts of the tokens of a segmented text are those of its lexemes. -/
theorem map_tokensOf (position : Position) (parts : List (List Char × Lexeme))
    (trailing : List Char) :
    (tokensOf position parts trailing).map (fun token => (token.kind, token.text)) =
      parts.map (fun part => (part.2.kind, String.ofList part.2.value)) ++ [(.ending, "")] := by
  induction parts generalizing position with
  | nil => rfl
  | cons part later inductionHypothesis =>
    obtain ⟨gap, lexeme⟩ := part
    rw [tokensOf, List.map_cons, inductionHypothesis]
    rfl

/-- The lexemes of a source are what its text is cut into. -/
theorem map_lexemes (source : String) :
    (lexemes source).map (fun token => (token.kind, token.text)) = cut source.toList := by
  rw [lexemes, scan, List.map_dropLast, map_tokensOf, List.dropLast_concat]
  rfl

/-- What holds of the kinds of the lexemes of a source holds of the kinds that its text is cut
into. -/
theorem forall_kind_lexemes (Holds : Kind → Prop) (source : String) :
    (∀ token ∈ lexemes source, Holds token.kind) ↔
      ∀ part ∈ (segments source.toList).parts, Holds part.2.kind := by
  have kinds : (lexemes source).map Token.kind =
      (segments source.toList).parts.map fun part => part.2.kind := by
    have same := congrArg (List.map Prod.fst) (map_lexemes source)
    simpa only [cut, List.map_map, Function.comp_def] using same
  rw [← List.forall_mem_map (f := Token.kind), kinds, List.forall_mem_map]

/-- The lexemes of a text whose gap has been cut off. -/
def cutBehindGap : List Char → List (Kind × String)
  | [] => []
  | first :: rest =>
    ((Lexeme.read first rest).kind, String.ofList (Lexeme.read first rest).value) ::
      cut (Lexeme.read first rest).rest

/-- Only what follows the gap matters. -/
theorem cut_eq (text : List Char) : cut text = cutBehindGap (splitGap false text).2 := by
  unfold cut
  rw [segments]
  split
  · rename_i gap same
    rw [same]
    rfl
  · rename_i gap first rest same
    have behind : (splitGap false text).2 = first :: rest := by rw [same]
    rw [behind]
    rfl

/-- An empty text has no lexemes. -/
@[simp] theorem cut_nil : cut [] = [] := by
  rw [cut_eq]
  rfl

/-- A blank character in front of a text adds no lexeme. -/
theorem cut_blank {blank : Char} (isBlank : Text.isBlank blank = true) (text : List Char) :
    cut (blank :: text) = cut text := by
  have skipped : (splitGap false (blank :: text)).2 = (splitGap false text).2 := by
    rw [splitGap, if_pos isBlank]
    · rfl
    · rintro rest rfl
      exact absurd isBlank (by decide)
  rw [cut_eq, skipped, ← cut_eq]

/-- Nor do several. -/
theorem cut_blanks {blanks : List Char} (allBlank : blanks.all Text.isBlank = true)
    (text : List Char) : cut (blanks ++ text) = cut text := by
  induction blanks with
  | nil => rfl
  | cons first rest inductionHypothesis =>
    obtain ⟨isBlank, restBlank⟩ := Bool.and_eq_true_iff.mp allBlank
    rw [List.cons_append, cut_blank isBlank, inductionHypothesis restBlank]

/-- In front of a lexeme there is no gap. -/
theorem splitGap_lexeme {first : Char} {rest : List Char} (notBlank : Text.isBlank first = false)
    (notComment : first = '/' → rest.head? ≠ some '/') :
    splitGap false (first :: rest) = ([], first :: rest) := by
  rw [splitGap, if_neg (by rw [notBlank]; decide)]
  rintro later rfl rfl
  exact notComment rfl rfl

/-- A text that does not begin with a gap begins with a lexeme. -/
theorem cut_read {first : Char} {rest : List Char} (notBlank : Text.isBlank first = false)
    (notComment : first = '/' → rest.head? ≠ some '/') :
    cut (first :: rest) =
      ((Lexeme.read first rest).kind, String.ofList (Lexeme.read first rest).value) ::
        cut (Lexeme.read first rest).rest := by
  rw [cut_eq, splitGap_lexeme notBlank notComment]
  rfl

/-- What is taken while a condition lasts is the part that meets it, if the next character does
not. -/
theorem takeWhile_append {condition : Char → Bool} {part after : List Char}
    (meets : part.all condition = true) (stops : ∀ next ∈ after.head?, condition next = false) :
    (part ++ after).takeWhile condition = part ∧ (part ++ after).dropWhile condition = after := by
  have each : ∀ character ∈ part, condition character = true := List.all_eq_true.mp meets
  have ends : after.takeWhile condition = [] ∧ after.dropWhile condition = after := by
    cases after with
    | nil => exact ⟨rfl, rfl⟩
    | cons next later =>
      have fails : condition next = false := stops next rfl
      simp [fails]
  constructor
  · rw [List.takeWhile_append_of_pos each, ends.1, List.append_nil]
  · rw [List.dropWhile_append_of_pos each, ends.2]

/-- The codes of letters. -/
theorem isAlpha_iff {character : Char} :
    character.isAlpha = true ↔
      65 ≤ character.toNat ∧ character.toNat ≤ 90 ∨
        97 ≤ character.toNat ∧ character.toNat ≤ 122 := by
  have cases : character.isAlpha =
      (decide (character.val ≥ 'A'.val ∧ character.val ≤ 'Z'.val) ||
        decide (character.val ≥ 'a'.val) && decide (character.val ≤ 'z'.val)) := rfl
  rw [cases, Bool.or_eq_true, Bool.and_eq_true, decide_eq_true_iff, decide_eq_true_iff,
    decide_eq_true_iff]
  simp only [ge_iff_le, UInt32.le_iff_toNat_le, Char.toNat_val]
  rfl

/-- The codes of digits. -/
theorem isDigit_iff {character : Char} :
    character.isDigit = true ↔ 48 ≤ character.toNat ∧ character.toNat ≤ 57 := by
  rw [Char.isDigit, Bool.and_eq_true, decide_eq_true_iff, decide_eq_true_iff]
  simp only [ge_iff_le, UInt32.le_iff_toNat_le, Char.toNat_val]
  rfl

/-- The characters of words lie in a range without blanks. -/
theorem toNat_of_continuesWord {character : Char} (continues : continuesWord character = true) :
    47 < character.toNat ∧ character.toNat < 123 := by
  rw [continuesWord, Char.isAlphanum, Bool.or_eq_true, Bool.or_eq_true, isAlpha_iff, isDigit_iff,
    beq_iff_eq] at continues
  rcases continues with (letter | digit) | rfl
  · omega
  · omega
  · decide

/-- Printable characters of the basic range are not blank. -/
theorem isBlank_eq_false {character : Char} (above : 32 < character.toNat)
    (below : character.toNat < 127) : Text.isBlank character = false := by
  rw [Bool.eq_false_iff]
  intro blank
  simp only [Text.isBlank, Text.blankRanges, List.any_cons, List.any_nil, Bool.or_eq_true,
    Bool.and_eq_true, decide_eq_true_eq, Bool.false_eq_true, or_false] at blank
  omega

/-- A character of a word is no blank and begins no comment. -/
theorem not_gap_of_continuesWord {character : Char} (continues : continuesWord character = true) :
    Text.isBlank character = false ∧ character ≠ '/' := by
  obtain ⟨above, below⟩ := toNat_of_continuesWord continues
  refine ⟨isBlank_eq_false (by omega) (by omega), ?_⟩
  rintro rfl
  exact absurd above (by decide)

/-- A digit can stand in a word but not begin one. -/
theorem digit_of_isDigit {character : Char} (digit : character.isDigit = true) :
    continuesWord character = true ∧ startsWord character = false := by
  constructor
  · simp [continuesWord, Char.isAlphanum, digit]
  · rw [Bool.eq_false_iff]
    intro starts
    rw [startsWord, Bool.or_eq_true, isAlpha_iff, beq_iff_eq] at starts
    rw [isDigit_iff] at digit
    rcases starts with letter | rfl
    · omega
    · exact absurd digit (by decide)

/-- A word is a first character and others that go on with it. -/
theorem exists_cons_of_isWord {word : List Char} (shape : isWord word = true) :
    ∃ first rest, word = first :: rest ∧ (startsWord first = true ∨ first = '@') ∧
      rest.all continuesWord = true := by
  unfold isWord at shape
  split at shape
  · rename_i first rest
    obtain ⟨starts, continues⟩ := Bool.and_eq_true_iff.mp shape
    refine ⟨'@', first :: rest, rfl, .inr rfl, ?_⟩
    rw [List.all_cons, continuesWord_of_startsWord starts, continues]
    rfl
  · rename_i first rest _
    obtain ⟨starts, continues⟩ := Bool.and_eq_true_iff.mp shape
    exact ⟨first, rest, rfl, .inl starts, continues⟩
  · cases shape

/-- A text that begins with a word is read as one. -/
theorem read_word {first : Char} {rest : List Char} (shape : isWord (first :: rest) = true)
    (after : List Char) :
    Lexeme.read first (rest ++ after) = Lexeme.word [first] (rest ++ after) := by
  unfold isWord at shape
  split at shape
  · rename_i second later same
    obtain ⟨rfl, rfl⟩ := List.cons.inj same
    obtain ⟨starts, -⟩ := Bool.and_eq_true_iff.mp shape
    rw [Lexeme.read, if_neg (by decide), if_neg (by decide), if_neg (by decide),
      if_pos ⟨rfl, starts⟩]
  · rename_i same
    obtain ⟨rfl, rfl⟩ := List.cons.inj same
    obtain ⟨starts, -⟩ := Bool.and_eq_true_iff.mp shape
    rw [Lexeme.read, if_pos starts]
  · cases shape

/-- A word in front of a text is a lexeme if no character behind it could go on with it. -/
theorem cut_word {word after : List Char} (shape : isWord word = true)
    (stops : ∀ next ∈ after.head?, continuesWord next = false) :
    cut (word ++ after) = (Kind.ofWord (String.ofList word), String.ofList word) :: cut after := by
  obtain ⟨first, rest, rfl, begins, continues⟩ := exists_cons_of_isWord shape
  obtain ⟨taken, left⟩ := takeWhile_append continues stops
  have noGap : Text.isBlank first = false ∧ first ≠ '/' := by
    rcases begins with starts | rfl
    · exact not_gap_of_continuesWord (continuesWord_of_startsWord starts)
    · decide
  rw [List.cons_append, cut_read noGap.1 (fun same => absurd same noGap.2), read_word shape,
    Lexeme.word, taken, left]
  rfl

/-- What begins with a digit is read as a number. -/
theorem read_digit {first : Char} (digit : first.isDigit = true) (text : List Char) :
    Lexeme.read first text = Lexeme.number first text := by
  obtain ⟨-, starts⟩ := digit_of_isDigit digit
  rw [Lexeme.read, if_neg (by rw [starts]; decide), if_pos digit]

/-- Digits in front of a text are read as a number. -/
theorem cut_digit {first : Char} (digit : first.isDigit = true) (text : List Char) :
    cut (first :: text) =
      (.number, String.ofList (Lexeme.number first text).value) ::
        cut (Lexeme.number first text).rest := by
  obtain ⟨continues, -⟩ := digit_of_isDigit digit
  obtain ⟨notBlank, notSlash⟩ := not_gap_of_continuesWord continues
  rw [cut_read notBlank (fun same => absurd same notSlash), read_digit digit, Lexeme.number_kind]

/-- A number in front of a text is a lexeme if no digit follows it, neither at once nor behind a
point. -/
theorem cut_number {number : String} {after : List Char} (shape : IsNumber number)
    (stops : ∀ next ∈ after.head?, next.isDigit = false)
    (noFraction : ∀ digit rest, after = '.' :: digit :: rest → digit.isDigit = false) :
    cut (number.toList ++ after) = (.number, number) :: cut after := by
  rcases shape with ⟨nonempty, digits⟩ | ⟨whole, fraction, same, ⟨nonempty, digits⟩, more, others⟩
  · obtain ⟨first, rest, same⟩ := List.exists_cons_of_ne_nil nonempty
    rw [same] at digits
    obtain ⟨digit, following⟩ := Bool.and_eq_true_iff.mp digits
    obtain ⟨taken, left⟩ := takeWhile_append following stops
    have read : Lexeme.number first (rest ++ after) =
        Lexeme.plain .number (first :: rest) after := by
      unfold Lexeme.number
      rw [left, taken]
      split
      · rename_i digit later
        rw [if_neg]
        rw [noFraction digit later rfl]
        decide
      · rfl
    rw [same, List.cons_append, cut_digit digit, read, Lexeme.plain, ← same, String.ofList_toList]
  · obtain ⟨first, rest, rfl⟩ := List.exists_cons_of_ne_nil nonempty
    obtain ⟨digit, following⟩ := Bool.and_eq_true_iff.mp digits
    obtain ⟨second, later, rfl⟩ := List.exists_cons_of_ne_nil more
    obtain ⟨nextDigit, ending⟩ := Bool.and_eq_true_iff.mp others
    have point : ∀ next ∈ ('.' :: second :: (later ++ after)).head?, next.isDigit = false := by
      rintro next ⟨⟩
      decide
    obtain ⟨taken, left⟩ := takeWhile_append following point
    obtain ⟨takenLater, leftLater⟩ := takeWhile_append ending stops
    have read : Lexeme.number first (rest ++ '.' :: second :: (later ++ after)) =
        Lexeme.plain .number (first :: rest ++ '.' :: second :: later) after := by
      unfold Lexeme.number
      rw [left, taken]
      simp only [nextDigit, if_true, takenLater, leftLater]
    rw [same, List.append_assoc, List.cons_append, List.cons_append, List.cons_append,
      cut_digit digit, read, Lexeme.plain, ← same, String.ofList_toList]

/-- An escaped text between two quotes of either kind is read as a string literal, whatever follows
it. -/
theorem read_escaped {quote : Char} (isQuote : quote = '"' ∨ quote = '\'')
    (value after : List Char) :
    Lexeme.read quote (Text.escape value ++ quote :: after) =
      ⟨.string, quote :: (Text.escape value ++ [quote]), value, after⟩ := by
  have notWord : startsWord quote = false := by
    rcases isQuote with rfl | rfl <;> decide
  have notDigit : quote.isDigit = false := by
    rcases isQuote with rfl | rfl <;> decide
  rw [Lexeme.read, if_neg (by rw [notWord]; decide), if_neg (by rw [notDigit]; decide),
    if_pos isQuote, Lexeme.quoted, Text.readQuoted_escape quote isQuote]

/-- A string literal in front of a text is a lexeme whatever follows it. -/
theorem cut_quoted (value after : List Char) :
    cut ('"' :: (Text.escape value ++ '"' :: after)) =
      (.string, String.ofList value) :: cut after := by
  rw [cut_read (by decide) (fun same => absurd same (by decide)), read_escaped (.inl rfl)]

/-- A character that begins an operator or mark begins nothing else. -/
def IsSign (character : Char) : Prop :=
  startsWord character = false ∧ character.isDigit = false ∧
    ¬(character = '"' ∨ character = '\'') ∧ character ≠ '@' ∧ Text.isBlank character = false

/-- The first character of an operator or mark begins nothing else. -/
theorem isSign_of_ofSingle? {first : Char} {kind : Kind}
    (spelled : Kind.ofSingle? first = some kind) : IsSign first := by
  unfold Kind.ofSingle? at spelled
  unfold IsSign
  split at spelled <;> first | decide | cases spelled

/-- So does the first of two characters. -/
theorem isSign_of_ofPair? {first second : Char} {kind : Kind}
    (spelled : Kind.ofPair? first second = some kind) : IsSign first ∧ second ≠ '/' := by
  unfold Kind.ofPair? at spelled
  unfold IsSign
  split at spelled <;> first | decide | cases spelled

/-- What begins like an operator or mark is read as one. -/
theorem read_sign {first : Char} (sign : IsSign first) (text : List Char) :
    Lexeme.read first text = Lexeme.mark first text := by
  obtain ⟨notWord, notDigit, notQuote, notAt, -⟩ := sign
  rw [Lexeme.read, if_neg (by rw [notWord]; decide), if_neg (by rw [notDigit]; decide),
    if_neg notQuote, if_neg (fun at' => notAt at'.1)]

/-- What begins like an operator or mark is a lexeme if it does not begin a comment. -/
theorem cut_sign {first : Char} {text : List Char} (sign : IsSign first)
    (notComment : first = '/' → text.head? ≠ some '/') :
    cut (first :: text) =
      ((Lexeme.mark first text).kind, String.ofList (Lexeme.mark first text).value) ::
        cut (Lexeme.mark first text).rest := by
  have notBlank : Text.isBlank first = false := sign.2.2.2.2
  rw [cut_read notBlank notComment, read_sign sign]

/-- A mark of one character in front of a text is a lexeme if it makes neither an operator nor a
comment with the next. -/
theorem cut_single {first : Char} {kind : Kind} {after : List Char}
    (spelled : Kind.ofSingle? first = some kind)
    (alone : ∀ second ∈ after.head?, Kind.ofPair? first second = none)
    (notComment : first = '/' → after.head? ≠ some '/') :
    cut (first :: after) = (kind, kind.describe) :: cut after := by
  have read : Lexeme.mark first after = Lexeme.plain kind [first] after := by
    unfold Lexeme.mark
    rw [spelled]
    split
    · rename_i second rest
      rw [alone second rfl]
      rfl
    · rfl
  have text : String.ofList [first] = kind.describe := by
    rw [← Kind.describe_ofSingle? spelled, String.ofList_toList]
  rw [cut_sign (isSign_of_ofSingle? spelled) notComment, read, Lexeme.plain, text]

/-- An operator of two characters is read whatever follows it. -/
theorem mark_pair {first second : Char} {kind : Kind}
    (spelled : Kind.ofPair? first second = some kind) (text : List Char) :
    Lexeme.mark first (second :: text) = Lexeme.plain kind [first, second] text := by
  unfold Lexeme.mark
  simp only [spelled]

/-- So in front of a text it is a lexeme. -/
theorem cut_pair {first second : Char} {kind : Kind} {after : List Char}
    (spelled : Kind.ofPair? first second = some kind) :
    cut (first :: second :: after) = (kind, kind.describe) :: cut after := by
  obtain ⟨sign, notSlash⟩ := isSign_of_ofPair? spelled
  have text : String.ofList [first, second] = kind.describe := by
    rw [← Kind.describe_ofPair? spelled, String.ofList_toList]
  have notComment : first = '/' → (second :: after).head? ≠ some '/' :=
    fun _ same => notSlash (Option.some.inj same)
  rw [cut_sign sign notComment, mark_pair spelled, Lexeme.plain, text]

end SystemsLang.Token
