import SystemsLang.Proofs.Scanning.Lossless

/-!
# Every lexeme is the longest there is

Which spellings there are is said without the scanner (`Spells`): words, numbers, and the operators
and marks, each of one kind (`Spells.unique`). The scanner looks at one or two characters to decide
between them. Nevertheless the token at a place has the longest spelling that the text has there,
and is of the kind of that spelling; where the text has no spelling at all the token is one stray
character (`munched_of_mem_scan`). Only string literals are apart from this, closed or not.

A spelling in front of a text is never longer than what is read there (`munches`), and what is read
there is a spelling, a stray character or a string literal (`read_cases`). These two are all that is
known of the scanner from then on.
-/

namespace SystemsLang.Token

/-- The characters are the spelling of a word, a number, or an operator or mark, and what they spell
is of the kind. A word is of the kind that the table of keywords has for it, or the name of a
primitive type if that table has none, or else an identifier. -/
inductive Spells : List Char → Kind → Prop
  | keyword {text : List Char} {kind : Kind} (shape : isWord text = true)
      (listed : (String.ofList text, kind) ∈ keywords) : Spells text kind
  | primitiveType {text : List Char} (shape : isWord text = true)
      (notKeyword : ∀ kind, (String.ofList text, kind) ∉ keywords)
      (listed : String.ofList text ∈ primitiveTypeNames) : Spells text .primitiveType
  | identifier {text : List Char} (shape : isWord text = true)
      (notKeyword : ∀ kind, (String.ofList text, kind) ∉ keywords)
      (notPrimitive : String.ofList text ∉ primitiveTypeNames) : Spells text .identifier
  | number {text : List Char} (shape : IsNumber (String.ofList text)) : Spells text .number
  | sign {kind : Kind} (fixed : kind.category = .operator ∨ kind.category = .punctuation) :
    Spells kind.describe.toList kind

/-- The table of keywords has one kind for a word. -/
theorem ofWord_of_mem_keywords {word : String} {kind : Kind} (listed : (word, kind) ∈ keywords) :
    Kind.ofWord word = kind := by
  have each : ∀ entry ∈ keywords, Kind.ofWord entry.1 = entry.2 := by decide
  exact each _ listed

/-- A word spells the kind that it is looked up to have. -/
theorem spells_word {text : List Char} (shape : isWord text = true) :
    Spells text (Kind.ofWord (String.ofList text)) := by
  by_cases keyword : ∃ kind, (String.ofList text, kind) ∈ keywords
  · obtain ⟨kind, listed⟩ := keyword
    rw [ofWord_of_mem_keywords listed]
    exact .keyword shape listed
  · -- Only a word that is no keyword is looked up among the primitive types.
    have notKeyword : ∀ kind, (String.ofList text, kind) ∉ keywords :=
      fun kind listed => keyword ⟨kind, listed⟩
    have missing : Kind.ofKeyword? (String.ofList text) = none := by
      cases found : Kind.ofKeyword? (String.ofList text) with
      | none => rfl
      | some kind => exact absurd (mem_keywords_of_ofKeyword? found) (notKeyword kind)
    unfold Kind.ofWord
    rw [missing]
    dsimp only
    split
    · rename_i member
      exact .primitiveType shape notKeyword (by simpa using member)
    · rename_i notMember
      exact .identifier shape notKeyword (by simpa using notMember)

/-- An operator or mark has one character that spells it alone, or two that spell it together. -/
theorem spelling_of_sign {kind : Kind}
    (fixed : kind.category = .operator ∨ kind.category = .punctuation) :
    (∃ first, kind.describe.toList = [first] ∧ Kind.ofSingle? first = some kind) ∨
      ∃ first second, kind.describe.toList = [first, second] ∧
        Kind.ofPair? first second = some kind := by
  cases kind with
  | ampAmp | pipePipe | equalEqual | bangEqual | lessEqual | greaterEqual | plusAssign
  | minusAssign | starAssign | slashAssign | percentAssign => exact .inr ⟨_, _, rfl, rfl⟩
  | plus | minus | star | slash | percent | bang | amp | less | greater | assign | question | dot
  | colon | semicolon | comma | leftParen | rightParen | leftBrace | rightBrace | leftBracket
  | rightBracket => exact .inl ⟨_, rfl, rfl⟩
  | _ => exact absurd fixed (by decide)

/-- What one character spells is an operator or mark. -/
theorem Kind.ofSingle?_fixed {character : Char} {kind : Kind}
    (spelled : Kind.ofSingle? character = some kind) :
    kind.category = .operator ∨ kind.category = .punctuation := by
  unfold Kind.ofSingle? at spelled
  split at spelled <;> cases spelled <;> decide

/-- One character that spells an operator or mark. -/
theorem spells_single {character : Char} {kind : Kind}
    (spelled : Kind.ofSingle? character = some kind) : Spells [character] kind := by
  rw [← Kind.describe_ofSingle? spelled]
  exact .sign (Kind.ofSingle?_fixed spelled)

/-- Two characters that spell an operator. -/
theorem spells_pair {first second : Char} {kind : Kind}
    (spelled : Kind.ofPair? first second = some kind) : Spells [first, second] kind := by
  rw [← Kind.describe_ofPair? spelled]
  exact .sign (.inl (Kind.ofPair?_category spelled))

/-- Every spelling is a word, a number, or what one or two characters spell. -/
theorem Spells.cases {text : List Char} {kind : Kind} (spells : Spells text kind) :
    (isWord text = true ∧ Kind.ofWord (String.ofList text) = kind) ∨
      (IsNumber (String.ofList text) ∧ kind = .number) ∨
      (∃ first, text = [first] ∧ Kind.ofSingle? first = some kind) ∨
      ∃ first second, text = [first, second] ∧ Kind.ofPair? first second = some kind := by
  cases spells with
  | keyword shape listed => exact .inl ⟨shape, ofWord_of_mem_keywords listed⟩
  | primitiveType shape notKeyword listed =>
    have each : ∀ name ∈ primitiveTypeNames, Kind.ofWord name = .primitiveType := by decide
    exact .inl ⟨shape, each _ listed⟩
  | identifier shape notKeyword notPrimitive =>
    apply Or.inl
    constructor
    · exact shape
    · rcases Kind.ofWord_cases (String.ofList text) with keyword | ⟨-, listed⟩ | identifier
      · exact absurd keyword (notKeyword _)
      · exact absurd listed notPrimitive
      · exact identifier
  | number shape => exact .inr (.inl ⟨shape, rfl⟩)
  | sign fixed => exact .inr (.inr (spelling_of_sign fixed))

/-- A spelling has a first character. -/
theorem Spells.exists_cons {text : List Char} {kind : Kind} (spells : Spells text kind) :
    ∃ first rest, text = first :: rest := by
  apply List.exists_cons_of_ne_nil
  rintro rfl
  rcases spells.cases with ⟨shape, -⟩ | ⟨shape, -⟩ | ⟨_, impossible, -⟩ | ⟨_, _, impossible, -⟩
  · cases shape
  · rcases shape with ⟨nonempty, -⟩ | ⟨whole, fraction, same, -⟩
    · exact nonempty rfl
    · cases whole <;> cases same
  · cases impossible
  · cases impossible

variable {first : Char} {rest : List Char}

/-- The digits in front of a text are read. -/
theorem digits_prefix_number (first : Char) (text : List Char) :
    first :: text.takeWhile Char.isDigit <+: (Lexeme.number first text).source := by
  unfold Lexeme.number
  split
  · split <;> simp [Lexeme.plain]
  · simp [Lexeme.plain]

/-- A number begins with a digit, and in front of a text all of it is read. -/
theorem number_munches (shape : IsNumber (String.ofList (first :: rest))) (after : List Char) :
    first.isDigit = true ∧
      first :: rest <+: (Lexeme.number first (rest ++ after)).source := by
  unfold IsNumber at shape
  rw [String.toList_ofList] at shape
  rcases shape with ⟨-, digits⟩ | ⟨whole, fraction, same, ⟨nonempty, digits⟩, more, others⟩
  · obtain ⟨digit, following⟩ := Bool.and_eq_true_iff.mp digits
    have taken : (rest ++ after).takeWhile Char.isDigit = rest ++ after.takeWhile Char.isDigit :=
      List.takeWhile_append_of_pos (List.all_eq_true.mp following)
    have begins := digits_prefix_number first (rest ++ after)
    rw [taken, ← List.cons_append] at begins
    exact ⟨digit, (List.prefix_append _ _).trans begins⟩
  · obtain ⟨head, following, rfl⟩ := List.exists_cons_of_ne_nil nonempty
    obtain ⟨second, later, rfl⟩ := List.exists_cons_of_ne_nil more
    rw [List.cons_append] at same
    obtain ⟨rfl, rfl⟩ := List.cons.inj same
    obtain ⟨digit, continues⟩ := Bool.and_eq_true_iff.mp digits
    obtain ⟨nextDigit, ending⟩ := Bool.and_eq_true_iff.mp others
    have point : ∀ next ∈ ('.' :: second :: (later ++ after)).head?, next.isDigit = false := by
      rintro next ⟨⟩
      decide
    -- The point is read as well, since a digit stands behind it.
    obtain ⟨taken, left⟩ := takeWhile_append continues point
    have takenLater : (later ++ after).takeWhile Char.isDigit =
        later ++ after.takeWhile Char.isDigit :=
      List.takeWhile_append_of_pos (List.all_eq_true.mp ending)
    constructor
    · exact digit
    · unfold Lexeme.number
      rw [List.append_assoc, List.cons_append, List.cons_append, left, taken]
      simp [nextDigit, takenLater, Lexeme.plain]

/-- All of a word in front of a text is read. -/
theorem word_munches (shape : isWord (first :: rest) = true) (after : List Char) :
    first :: rest <+: (Lexeme.word [first] (rest ++ after)).source := by
  obtain ⟨head, tail, same, -, continues⟩ := exists_cons_of_isWord shape
  obtain ⟨rfl, rfl⟩ := List.cons.inj same
  have taken : (rest ++ after).takeWhile continuesWord = rest ++ after.takeWhile continuesWord :=
    List.takeWhile_append_of_pos (List.all_eq_true.mp continues)
  unfold Lexeme.word
  rw [taken]
  exact List.prefix_append (first :: rest) _

/-- What is read as an operator or mark is one of two characters, if they spell one, and otherwise
the first of them. -/
theorem mark_cases (first : Char) (text : List Char) :
    (∃ second later kind, text = second :: later ∧ Kind.ofPair? first second = some kind ∧
        Lexeme.mark first text = Lexeme.plain kind [first, second] later) ∨
      Lexeme.mark first text =
        Lexeme.plain ((Kind.ofSingle? first).getD .unexpectedChar) [first] text := by
  unfold Lexeme.mark
  split
  · rename_i second later
    split
    · rename_i kind spelled
      exact .inl ⟨second, later, kind, rfl, spelled, rfl⟩
    · exact .inr rfl
  · exact .inr rfl

/-- An operator or mark of one character is read, alone or with the next. -/
theorem single_munches {kind : Kind} (spelled : Kind.ofSingle? first = some kind)
    (text : List Char) :
    [first] <+: (Lexeme.mark first text).source ∧
      (Lexeme.mark first text).kind ≠ .unexpectedChar := by
  rcases mark_cases first text with ⟨second, later, pair, -, together, read⟩ | read
  · rw [read]
    constructor
    · exact List.prefix_append [first] [second]
    · rintro rfl
      exact absurd (Kind.ofPair?_category together) (by decide)
  · rw [read, spelled]
    constructor
    · exact List.prefix_refl [first]
    · rintro rfl
      exact absurd (Kind.ofSingle?_fixed spelled) (by decide)

/-- A spelling in front of a text is no longer than what is read there, which is then no stray
character. -/
theorem Spells.munches {kind : Kind} (spells : Spells (first :: rest) kind) (after : List Char) :
    first :: rest <+: (Lexeme.read first (rest ++ after)).source ∧
      (Lexeme.read first (rest ++ after)).kind ≠ .unexpectedChar := by
  rcases spells.cases with ⟨shape, -⟩ | ⟨shape, -⟩ | ⟨head, same, spelled⟩ |
    ⟨head, second, same, spelled⟩
  · rw [read_word shape]
    exact ⟨word_munches shape after, Kind.ofWord_ne (by decide) (by decide) (by decide)⟩
  · obtain ⟨digit, munched⟩ := number_munches shape after
    rw [read_digit digit]
    constructor
    · exact munched
    · rw [Lexeme.number_kind]
      decide
  · obtain ⟨rfl, rfl⟩ := List.cons.inj same
    rw [read_sign (isSign_of_ofSingle? spelled)]
    exact single_munches spelled _
  · obtain ⟨rfl, rfl⟩ := List.cons.inj same
    rw [read_sign (isSign_of_ofPair? spelled).1, List.singleton_append, mark_pair spelled]
    constructor
    · exact List.prefix_refl [first, second]
    · rintro rfl
      exact absurd (Kind.ofPair?_category spelled) (by decide)

/-- What spells something is read as that when nothing stands behind it. -/
theorem Spells.read_kind {kind : Kind} (spells : Spells (first :: rest) kind) :
    (Lexeme.read first rest).kind = kind := by
  rw [← List.append_nil rest]
  rcases spells.cases with ⟨shape, spelled⟩ | ⟨shape, rfl⟩ | ⟨head, same, spelled⟩ |
    ⟨head, second, same, spelled⟩
  · obtain ⟨head, tail, same, -, continues⟩ := exists_cons_of_isWord shape
    obtain ⟨rfl, rfl⟩ := List.cons.inj same
    have ends : ∀ next ∈ ([] : List Char).head?, continuesWord next = false := by
      rintro next ⟨⟩
    have taken := (takeWhile_append continues ends).1
    rw [read_word shape, Lexeme.word, taken]
    exact spelled
  · rw [read_digit (number_munches shape []).1, Lexeme.number_kind]
  · obtain ⟨rfl, rfl⟩ := List.cons.inj same
    rw [read_sign (isSign_of_ofSingle? spelled)]
    simp [Lexeme.mark, Lexeme.plain, spelled]
  · obtain ⟨rfl, rfl⟩ := List.cons.inj same
    rw [read_sign (isSign_of_ofPair? spelled).1, List.singleton_append, mark_pair spelled]
    rfl

/-- No characters spell two kinds. -/
theorem Spells.unique {text : List Char} {kind other : Kind} (spells : Spells text kind)
    (otherwise : Spells text other) : kind = other := by
  obtain ⟨first, rest, rfl⟩ := spells.exists_cons
  rw [← spells.read_kind, otherwise.read_kind]

/-- What is read as an operator or mark spells one, or is a stray character. -/
theorem mark_spells (first : Char) (text : List Char) :
    Spells (Lexeme.mark first text).source (Lexeme.mark first text).kind ∨
      ((Lexeme.mark first text).kind = .unexpectedChar ∧
        (Lexeme.mark first text).source = [first]) := by
  rcases mark_cases first text with ⟨second, later, kind, -, together, read⟩ | read
  · rw [read]
    exact .inl (spells_pair together)
  · rw [read]
    cases spelled : Kind.ofSingle? first with
    | some kind => exact .inl (spells_single spelled)
    | none => exact .inr ⟨rfl, rfl⟩

/-- What is read is a spelling, a stray character, or a string literal, closed or not. -/
theorem read_cases (first : Char) (text : List Char) :
    Spells (Lexeme.read first text).source (Lexeme.read first text).kind ∨
      ((Lexeme.read first text).kind = .unexpectedChar ∧
        (Lexeme.read first text).source = [first]) ∨
      (Lexeme.read first text).kind = .string ∨
      (Lexeme.read first text).kind = .unterminatedString := by
  unfold Lexeme.read
  split
  · rename_i starts
    exact .inl (spells_word (isWord_takeWhile starts text))
  split
  · rename_i digit
    have carries := carries_read first text
    rw [read_digit digit, Lexeme.number_kind] at carries
    have shape := Lexeme.isNumber_number digit text
    rw [carries.eq_of_ne (by decide)] at shape
    rw [Lexeme.number_kind]
    exact .inl (.number shape)
  split
  · exact .inr (.inr (Lexeme.quoted_kind first text))
  split
  · rename_i sign
    obtain ⟨rfl, follows⟩ := sign
    exact .inl (spells_word (isWord_at follows))
  · rcases mark_spells first text with spells | stray
    · exact .inl spells
    · exact .inr (.inl stray)

/-- A kind and a text are what the front of a text gives by maximal munch: the longest spelling
there, with its kind, or one stray character if there is no spelling. -/
inductive Munched : List Char → Kind → List Char → Prop
  | longest {text spelling : List Char} {kind : Kind} (spells : Spells spelling kind)
      (stands : spelling <+: text)
      (most : ∀ other otherKind, Spells other otherKind → other <+: text →
        other.length ≤ spelling.length) : Munched text kind spelling
  | stray {first : Char} {rest : List Char}
      (nothing : ∀ other otherKind, Spells other otherKind → ¬other <+: first :: rest) :
    Munched (first :: rest) .unexpectedChar [first]

/-- A spelling in front of a text and what is read there. -/
theorem munches_of_stands {spelling : List Char} {kind : Kind} (spells : Spells spelling kind)
    (stands : spelling <+: first :: rest) :
    spelling <+: (Lexeme.read first rest).source ∧
      (Lexeme.read first rest).kind ≠ .unexpectedChar := by
  obtain ⟨head, tail, rfl⟩ := spells.exists_cons
  obtain ⟨after, same⟩ := stands
  rw [List.cons_append] at same
  obtain ⟨rfl, rfl⟩ := List.cons.inj same
  exact spells.munches after

/-- What is read is what maximal munch gives, unless it is a string literal. -/
theorem munched_read (notString : (Lexeme.read first rest).kind ≠ .string)
    (closed : (Lexeme.read first rest).kind ≠ .unterminatedString) :
    Munched (first :: rest) (Lexeme.read first rest).kind (Lexeme.read first rest).source := by
  rcases read_cases first rest with spells | ⟨stray, alone⟩ | string | unterminated
  · apply Munched.longest spells
    · exact ⟨_, Lexeme.source_append_rest first rest⟩
    · intro other otherKind otherwise stands
      exact (munches_of_stands otherwise stands).1.length_le
  · rw [stray, alone]
    apply Munched.stray
    intro other otherKind otherwise stands
    exact (munches_of_stands otherwise stands).2 stray
  · exact absurd string notString
  · exact absurd unterminated closed

/-- Every token but the end marker is what is read where it stands. -/
theorem exists_read_of_mem_segments {token : Token} (before text : List Char)
    (notEnding : token.kind ≠ .ending)
    (member : token ∈
      tokensOf (.behind before) (segments text).parts (segments text).trailing) :
    ∃ earlier first rest, before ++ text = earlier ++ first :: rest ∧
      token = ⟨(Lexeme.read first rest).kind, String.ofList (Lexeme.read first rest).value,
        .behind earlier⟩ := by
  have whole := gap_append_rest false text
  fun_induction segments text generalizing before with
  | case1 text gap cut =>
    rw [tokensOf, List.mem_singleton] at member
    rw [member] at notEnding
    exact absurd rfl notEnding
  | case2 text gap first rest cut _ inductionHypothesis =>
    rw [cut] at whole
    dsimp only [Segmentation.push] at member
    rw [tokensOf, Position.past_behind, Position.past_behind] at member
    rcases List.mem_cons.mp member with here | later
    · have stands : before ++ text = before ++ gap ++ first :: rest := by
        rw [← whole, List.append_assoc]
      exact ⟨before ++ gap, first, rest, stands, here⟩
    · obtain ⟨earlier, next, after, same, read⟩ :=
        inductionHypothesis _ later (gap_append_rest false _)
      have stands : before ++ text = earlier ++ next :: after := by
        rw [← same, List.append_assoc, List.append_assoc, Lexeme.source_append_rest, whole]
      exact ⟨earlier, next, after, stands, read⟩

/-- Scanning is maximal munch. Every token that is no string literal, closed or not, and no end
marker stands somewhere in the source. At that place it has the longest spelling that is a prefix of
the text, and the kind of that spelling; or no spelling is one and the token is a stray
character. -/
theorem munched_of_mem_scan {source : String} {token : Token} (member : token ∈ scan source)
    (notString : token.kind ≠ .string) (closed : token.kind ≠ .unterminatedString)
    (notEnding : token.kind ≠ .ending) :
    (∃ before text, source.toList = before ++ text ∧ token.position = .behind before) ∧
      ∀ before text, source.toList = before ++ text → token.position = .behind before →
        Munched text token.kind token.text.toList := by
  obtain ⟨earlier, first, rest, same, rfl⟩ :=
    exists_read_of_mem_segments [] source.toList notEnding member
  rw [List.nil_append] at same
  constructor
  · exact ⟨earlier, first :: rest, same, rfl⟩
  · intro before text otherwise place
    rw [same] at otherwise
    -- The position tells where in the source the token stands.
    obtain rfl := Position.behind_inj otherwise place
    obtain rfl := List.append_cancel_left otherwise
    have value : (Lexeme.read first rest).value = (Lexeme.read first rest).source :=
      (carries_read first rest).eq_of_ne notString
    dsimp only
    rw [String.toList_ofList, value]
    exact munched_read notString closed

/-- A number with a point in it and one behind it, and a stray character at the end. -/
theorem munched_of_mem_scan_mixed :
    scan "a<=1.5.b|" =
        [⟨.identifier, "a", ⟨1, 1⟩⟩, ⟨.lessEqual, "<=", ⟨1, 2⟩⟩, ⟨.number, "1.5", ⟨1, 4⟩⟩,
          ⟨.dot, ".", ⟨1, 7⟩⟩, ⟨.identifier, "b", ⟨1, 8⟩⟩, ⟨.unexpectedChar, "|", ⟨1, 9⟩⟩,
          ⟨.ending, "", ⟨1, 10⟩⟩] ∧
      Munched "1.5.b|".toList .number "1.5".toList ∧
      Munched "|".toList .unexpectedChar "|".toList := by
  have scanned : scan "a<=1.5.b|" =
      [⟨.identifier, "a", ⟨1, 1⟩⟩, ⟨.lessEqual, "<=", ⟨1, 2⟩⟩, ⟨.number, "1.5", ⟨1, 4⟩⟩,
        ⟨.dot, ".", ⟨1, 7⟩⟩, ⟨.identifier, "b", ⟨1, 8⟩⟩, ⟨.unexpectedChar, "|", ⟨1, 9⟩⟩,
        ⟨.ending, "", ⟨1, 10⟩⟩] := by decide +kernel
  have number : ⟨.number, "1.5", ⟨1, 4⟩⟩ ∈ scan "a<=1.5.b|" := by
    rw [scanned]
    decide
  have stray : ⟨.unexpectedChar, "|", ⟨1, 9⟩⟩ ∈ scan "a<=1.5.b|" := by
    rw [scanned]
    decide
  refine ⟨scanned, ?_, ?_⟩
  · exact (munched_of_mem_scan number (by decide) (by decide) (by decide)).2
      ['a', '<', '='] _ rfl (by decide)
  · exact (munched_of_mem_scan stray (by decide) (by decide) (by decide)).2
      ['a', '<', '=', '1', '.', '5', '.', 'b'] _ rfl (by decide)

end SystemsLang.Token
