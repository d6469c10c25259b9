import SystemsLang.Token.Lexeme

/-!
# What the texts of tokens look like

A number is digits, with or without a point and more digits behind it. An identifier is a word that
is neither a keyword nor the name of a primitive type. The tokens of a text keep to this: the
scanner makes a number only of digits and an identifier only of a word.
-/

namespace SystemsLang.Token

/-- Characters that make up a word: a letter or an underscore and what may follow it, or an at sign
before such a word. -/
def isWord : List Char → Bool
  | '@' :: first :: rest => startsWord first && rest.all continuesWord
  | first :: rest => startsWord first && rest.all continuesWord
  | [] => false

/-- A word that the scanner takes for an identifier. -/
structure IsIdentifier (text : String) : Prop where
  word : isWord text.toList = true
  plain : Kind.ofWord text = .identifier

/-- Digits of which there is at least one. -/
def IsDigits (characters : List Char) : Prop :=
  characters ≠ [] ∧ characters.all Char.isDigit = true

/-- Digits, with or without a point and more digits behind them. -/
def IsNumber (text : String) : Prop :=
  IsDigits text.toList ∨
    ∃ whole fraction, text.toList = whole ++ '.' :: fraction ∧ IsDigits whole ∧ IsDigits fraction

/-- A number is written as its decimal digits. -/
theorem toList_toString (number : Nat) : (toString number).toList = Nat.toDigits 10 number := by
  rw [Nat.toString_eq_repr, Nat.toList_repr]

/-- Different numbers have different digits. -/
theorem toList_toString_injective {number other : Nat}
    (same : (toString number).toList = (toString other).toList) : number = other := by
  rw [toList_toString, toList_toString] at same
  have read := congrArg (fun digits => Nat.ofDigitChars 10 digits 0) same
  simpa only [Nat.ofDigitChars_ten_toDigits] using read

/-- What a number is written with are digits. -/
theorem isDigit_of_mem_toString {number : Nat} {character : Char}
    (member : character ∈ (toString number).toList) : character.isDigit = true := by
  rw [toList_toString] at member
  exact Nat.isDigit_of_mem_toDigits (by decide) (by decide) member

/-- A token whose text is one that its kind has, as far as names and numbers are concerned. -/
def Proper (token : Token) : Prop :=
  (token.kind = .identifier → IsIdentifier token.text) ∧
    (token.kind = .number → IsNumber token.text) ∧
    (token.kind = .primitiveType → token.text ∈ primitiveTypeNames)

/-- A keyword is of the kind that stands behind it in the table. -/
theorem mem_keywords_of_ofKeyword? {word : String} {kind : Kind}
    (found : Kind.ofKeyword? word = some kind) : (word, kind) ∈ keywords := by
  obtain ⟨before, after, same, -⟩ := List.lookup_eq_some_iff.mp found
  rw [same]
  simp

/-- A word is a keyword, the name of a primitive type, or an identifier. -/
theorem Kind.ofWord_cases (word : String) :
    (word, Kind.ofWord word) ∈ keywords ∨
      (Kind.ofWord word = .primitiveType ∧ word ∈ primitiveTypeNames) ∨
      Kind.ofWord word = .identifier := by
  unfold Kind.ofWord
  split
  · rename_i kind found
    exact .inl (mem_keywords_of_ofKeyword? found)
  · split
    · rename_i member
      exact .inr (.inl ⟨rfl, by simpa using member⟩)
    · exact .inr (.inr rfl)

/-- A word is of none of the kinds that are no words. -/
theorem Kind.ofWord_ne {word : String} {kind : Kind} (foreign : kind ∉ keywords.map Prod.snd)
    (notPrimitive : kind ≠ .primitiveType) (notIdentifier : kind ≠ .identifier) :
    Kind.ofWord word ≠ kind := by
  rintro rfl
  rcases Kind.ofWord_cases word with keyword | ⟨primitive, -⟩ | identifier
  · exact foreign (List.mem_map.mpr ⟨_, keyword, rfl⟩)
  · exact notPrimitive primitive
  · exact notIdentifier identifier

/-- A word is a proper token. -/
theorem proper_word {word : String} {position : Position} (shape : isWord word.toList = true) :
    Proper ⟨Kind.ofWord word, word, position⟩ := by
  refine ⟨fun plain => ⟨shape, plain⟩, ?_, ?_⟩
  · intro number
    exact absurd number (Kind.ofWord_ne (by decide) (by decide) (by decide))
  · intro primitive
    rcases Kind.ofWord_cases word with keyword | ⟨-, member⟩ | identifier
    · have none : ∀ entry ∈ keywords, entry.2 ≠ .primitiveType := by decide
      exact absurd primitive (none _ keyword)
    · exact member
    · exact absurd (identifier.symm.trans primitive) (by decide)

/-- An operator or mark, and a stray character, is of one of three categories. -/
theorem Kind.ofSingle?_category (character : Char) :
    ((Kind.ofSingle? character).getD .unexpectedChar).category ∈
      [Category.operator, .punctuation, .failure] := by
  unfold Kind.ofSingle?
  split <;> decide

/-- Two characters together are an operator. -/
theorem Kind.ofPair?_category {first second : Char} {kind : Kind}
    (spelled : Kind.ofPair? first second = some kind) : kind.category = .operator := by
  unfold Kind.ofPair? at spelled
  split at spelled <;> cases spelled <;> rfl

/-- What is read as an operator or mark is of one of three categories. -/
theorem Lexeme.mark_category (first : Char) (text : List Char) :
    (Lexeme.mark first text).kind.category ∈ [Category.operator, .punctuation, .failure] := by
  unfold Lexeme.mark
  split
  · split
    · rename_i kind spelled
      have operator : kind.category = .operator := Kind.ofPair?_category spelled
      simp [Lexeme.plain, operator]
    · exact Kind.ofSingle?_category first
  · exact Kind.ofSingle?_category first

/-- What is read as an operator or mark is of no kind of another category. -/
theorem Lexeme.mark_ne {first : Char} {text : List Char} {kind : Kind}
    (foreign : kind.category ∉ [Category.operator, .punctuation, .failure]) :
    (Lexeme.mark first text).kind ≠ kind := by
  rintro rfl
  exact foreign (Lexeme.mark_category first text)

/-- What is read behind a quote is a string literal or fails. -/
theorem Lexeme.quoted_kind (quote : Char) (text : List Char) :
    (Lexeme.quoted quote text).kind = .string ∨
      (Lexeme.quoted quote text).kind = .unterminatedString := by
  unfold Lexeme.quoted
  split
  · exact .inl rfl
  · exact .inr rfl

/-- What is read from a digit on is a number. -/
theorem Lexeme.number_kind (first : Char) (text : List Char) :
    (Lexeme.number first text).kind = .number := by
  unfold Lexeme.number
  split
  · split <;> rfl
  · rfl

/-- A token of a kind that is neither a name's nor a number's is proper. -/
theorem proper_of_ne {token : Token} (notIdentifier : token.kind ≠ .identifier)
    (notNumber : token.kind ≠ .number) (notPrimitive : token.kind ≠ .primitiveType) :
    Proper token :=
  ⟨fun same => absurd same notIdentifier, fun same => absurd same notNumber,
    fun same => absurd same notPrimitive⟩

/-- All that is taken while a condition lasts meets it. -/
theorem all_takeWhile (condition : Char → Bool) (text : List Char) :
    (text.takeWhile condition).all condition = true := by
  induction text with
  | nil => rfl
  | cons first rest inductionHypothesis =>
    rw [List.takeWhile_cons]
    split
    · rename_i meets
      rw [List.all_cons, meets, inductionHypothesis]
      rfl
    · rfl

/-- A digit and the digits that follow it. -/
theorem isDigits_takeWhile {first : Char} (digit : first.isDigit = true) (text : List Char) :
    IsDigits (first :: text.takeWhile Char.isDigit) := by
  refine ⟨List.cons_ne_nil _ _, ?_⟩
  rw [List.all_cons, digit, all_takeWhile]
  rfl

/-- What is read from a digit on looks like a number. -/
theorem Lexeme.isNumber_number {first : Char} (digit : first.isDigit = true) (text : List Char) :
    IsNumber (String.ofList (Lexeme.number first text).value) := by
  unfold IsNumber Lexeme.number
  rw [String.toList_ofList]
  split
  · rename_i next rest after
    split
    · rename_i nextDigit
      exact .inr ⟨_, _, rfl, isDigits_takeWhile digit text, isDigits_takeWhile nextDigit rest⟩
    · exact .inl (isDigits_takeWhile digit text)
  · exact .inl (isDigits_takeWhile digit text)

/-- The characters that can begin a word can continue it. -/
theorem continuesWord_of_startsWord {character : Char} (starts : startsWord character = true) :
    continuesWord character = true := by
  unfold startsWord at starts
  unfold continuesWord Char.isAlphanum
  rcases Bool.or_eq_true_iff.mp starts with alpha | underscore
  · rw [alpha]
    rfl
  · rw [underscore, Bool.or_true]

/-- What is read from the first character of a word on is a word. -/
theorem isWord_takeWhile {first : Char} (starts : startsWord first = true) (text : List Char) :
    isWord (first :: text.takeWhile continuesWord) = true := by
  unfold isWord
  split
  · rename_i same
    obtain ⟨rfl, -⟩ := List.cons.inj same
    exact absurd starts (by decide)
  · rename_i same
    obtain ⟨rfl, rfl⟩ := List.cons.inj same
    rw [starts, all_takeWhile]
    rfl
  · rename_i impossible
    cases impossible

/-- So is what is read from an at sign on, if a word follows the sign. -/
theorem isWord_at {text : List Char} (follows : text.head?.any startsWord = true) :
    isWord ('@' :: text.takeWhile continuesWord) = true := by
  cases text with
  | nil => cases follows
  | cons first rest =>
    have starts : startsWord first = true := follows
    rw [List.takeWhile_cons, if_pos (continuesWord_of_startsWord starts), isWord, starts,
      all_takeWhile]
    rfl

/-- Whatever is read makes a proper token. -/
theorem Lexeme.proper_read (first : Char) (text : List Char) (position : Position) :
    Proper ⟨(Lexeme.read first text).kind, String.ofList (Lexeme.read first text).value,
      position⟩ := by
  unfold Lexeme.read
  split
  · rename_i starts
    refine proper_word ?_
    rw [String.toList_ofList]
    exact isWord_takeWhile starts text
  split
  · rename_i digit
    refine ⟨fun same => ?_, fun _ => Lexeme.isNumber_number digit text, fun same => ?_⟩
    · exact absurd ((Lexeme.number_kind first text).symm.trans same) (by decide)
    · exact absurd ((Lexeme.number_kind first text).symm.trans same) (by decide)
  split
  · rcases Lexeme.quoted_kind first text with kind | kind <;>
      exact proper_of_ne (by simp [kind]) (by simp [kind]) (by simp [kind])
  split
  · rename_i sign
    obtain ⟨rfl, follows⟩ := sign
    refine proper_word ?_
    rw [String.toList_ofList]
    exact isWord_at follows
  · exact proper_of_ne (Lexeme.mark_ne (by decide)) (Lexeme.mark_ne (by decide))
      (Lexeme.mark_ne (by decide))

end SystemsLang.Token
