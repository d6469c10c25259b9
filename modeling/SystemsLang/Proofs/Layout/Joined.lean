import SystemsLang.Proofs.Layout.Spelling
import SystemsLang.Proofs.Scanning.Cuts

/-!
# Pieces that stand next to each other

The text of pieces is cut into the tokens that the pieces stand for only if no piece runs into the
next: two words would make one word, an ampersand with another would make one operator, two slashes
would begin a comment. Pieces are joined if each two neighbours may stand next to each other. Most
marks may stand anywhere; those that could end an operator are set off by blanks.

Main statement: the text of a line of joined pieces is cut into what they stand for (`cut_line`).
-/

namespace SystemsLang

open Token (Kind IsNumber isWord continuesWord startsWord cut)

namespace Piece

/-- The kinds that have one spelling. -/
def hasSpelling (kind : Kind) : Bool :=
  match kind.category with
  | .keyword | .operator | .punctuation => true
  | .literal => kind != .number && kind != .string
  | _ => false

/-- A piece that can be scanned: its name is a word, its number a number, its mark a spelling. -/
def Proper : Piece → Prop
  | mark kind => hasSpelling kind = true
  | name text => isWord text.toList = true
  | number text => IsNumber text
  | string _ | blank => True

/-- Whether a piece is made of characters that words are made of. -/
def isWordy : Piece → Bool
  | mark kind => kind.category == .keyword || kind.category == .literal
  | name _ | number _ => true
  | string _ | blank => false

/-- Whether a piece is a mark that could be the end of an operator, or of what begins a comment. -/
def clings : Piece → Bool
  | mark kind => [.assign, .equalEqual, .slash, .slashAssign, .ampAmp].contains kind
  | _ => false

/-- Whether a piece may stand right behind another. -/
def joins : Piece → Piece → Bool
  | blank, _ | _, blank => true
  | mark .dot, number _ => false
  | mark .amp, mark .amp => false
  | first, second => !(first.isWordy && second.isWordy) && !second.clings

/-- Pieces that can be scanned, each of which may stand right behind the one before. -/
def Joined : List Piece → Prop
  | [] => True
  | piece :: rest => piece.Proper ∧ (∀ next ∈ rest.head?, piece.joins next = true) ∧ Joined rest

/-- What the first character of a piece says about the piece. -/
structure Leads (piece : Piece) (first : Char) : Prop where
  word : piece.isWordy = false → continuesWord first = false
  free : piece.clings = false → first ≠ '=' ∧ first ≠ '/'
  amp : piece.clings = false → piece ≠ mark .amp → first ≠ '&'
  digit : (∀ text, piece ≠ number text) → first.isDigit = false
  dot : first = '.' → piece = mark .dot

/-- A character of a word is no sign. -/
theorem ne_of_continuesWord {first sign : Char} (continues : continuesWord first = true)
    (foreign : continuesWord sign = false) : first ≠ sign := by
  rintro rfl
  rw [foreign] at continues
  cases continues

/-- What a word begins with. -/
theorem leads_name {text : String} {first : Char}
    (starts : startsWord first = true ∨ first = '@') : Leads (name text) first := by
  rcases starts with starts | rfl
  · have continues := Token.continuesWord_of_startsWord starts
    refine ⟨fun plain => (by cases plain), fun _ => ?_, fun _ _ => ?_, fun _ => ?_, fun dot => ?_⟩
    · exact ⟨ne_of_continuesWord continues (by decide), ne_of_continuesWord continues (by decide)⟩
    · exact ne_of_continuesWord continues (by decide)
    · rw [Bool.eq_false_iff]
      intro digit
      rw [(Token.digit_of_isDigit digit).2] at starts
      cases starts
    · exact absurd dot (ne_of_continuesWord continues (by decide))
  · exact ⟨fun _ => by decide, fun _ => by decide, fun _ _ => by decide, fun _ => by decide,
      fun dot => absurd dot (by decide)⟩

/-- What a number begins with. -/
theorem leads_number {text : String} {first : Char} (digit : first.isDigit = true) :
    Leads (number text) first := by
  have continues := (Token.digit_of_isDigit digit).1
  refine ⟨fun plain => (by cases plain), fun _ => ?_, fun _ _ => ?_, fun other => ?_, fun dot => ?_⟩
  · exact ⟨ne_of_continuesWord continues (by decide), ne_of_continuesWord continues (by decide)⟩
  · exact ne_of_continuesWord continues (by decide)
  · exact absurd rfl (other text)
  · exact absurd dot (ne_of_continuesWord continues (by decide))

/-- A piece that can be scanned has a first character. -/
theorem leads {piece : Piece} (proper : piece.Proper) :
    ∃ first rest, piece.text.toList = first :: rest ∧ Leads piece first := by
  cases piece with
  | mark kind =>
    cases kind <;> first
      | exact ⟨_, _, rfl, by decide, by decide, by decide, fun _ => by decide, by decide⟩
      | cases proper
  | name text =>
    have shape : isWord text.toList = true := proper
    unfold isWord at shape
    split at shape
    · rename_i first rest same
      exact ⟨_, _, same, leads_name (.inr rfl)⟩
    · rename_i first rest _ same
      exact ⟨_, _, same, leads_name (.inl (Bool.and_eq_true_iff.mp shape).1)⟩
    · cases shape
  | number text =>
    rcases proper with ⟨nonempty, digits⟩ | ⟨whole, fraction, same, ⟨nonempty, digits⟩, -⟩
    · obtain ⟨first, rest, same⟩ := List.exists_cons_of_ne_nil nonempty
      rw [same] at digits
      exact ⟨first, rest, same, leads_number (Bool.and_eq_true_iff.mp digits).1⟩
    · obtain ⟨first, rest, rfl⟩ := List.exists_cons_of_ne_nil nonempty
      exact ⟨first, _, same, leads_number (Bool.and_eq_true_iff.mp digits).1⟩
  | string value =>
    refine ⟨'"', Text.escape value.toList ++ ['"'], ?_, ?_⟩
    · simp [text, Text.escapeString]
    · exact ⟨fun _ => by decide, fun _ => by decide, fun _ _ => by decide, fun _ => by decide,
        fun dot => absurd dot (by decide)⟩
  | blank =>
    refine ⟨' ', [], rfl, ?_⟩
    exact ⟨fun _ => by decide, fun _ => by decide, fun _ _ => by decide, fun _ => by decide,
      fun dot => absurd dot (by decide)⟩

/-- The text behind a piece cannot be taken for a part of it. -/
def Ends (piece : Piece) (after : List Char) : Prop :=
  match piece with
  | mark kind =>
    ((mark kind).isWordy = true → ∀ next ∈ after.head?, continuesWord next = false) ∧
      ((mark kind).isWordy = false → ∀ next ∈ after.head?,
        next ≠ '=' ∧ next ≠ '/' ∧ (kind = .amp → next ≠ '&'))
  | name _ => ∀ next ∈ after.head?, continuesWord next = false
  | number _ =>
    (∀ next ∈ after.head?, next.isDigit = false) ∧
      ∀ digit rest, after = '.' :: digit :: rest → digit.isDigit = false
  | string _ | blank => True

/-- Two characters make an operator only if the second is one of three. -/
theorem ofPair?_eq_none {first second : Char} (notEqual : second ≠ '=')
    (notAmp : first = '&' → second ≠ '&') (notPipe : first ≠ '|') :
    Kind.ofPair? first second = none := by
  unfold Kind.ofPair?
  split <;> first | rfl | contradiction

/-- A keyword stands for itself, as a word. -/
theorem ofWord_describe {kind : Kind} (wordy : (mark kind).isWordy = true)
    (proper : hasSpelling kind = true) :
    isWord kind.describe.toList = true ∧ Kind.ofWord kind.describe = kind := by
  cases kind <;> first
    | exact ⟨by decide, by decide⟩
    | exact absurd wordy (by decide)
    | exact absurd proper (by decide)

/-- A mark that is no word is spelled by one character or by two. -/
theorem spelled_of_not_isWordy {kind : Kind} (plain : (mark kind).isWordy = false)
    (proper : hasSpelling kind = true) :
    (∃ first, Kind.ofSingle? first = some kind ∧ kind.describe.toList = [first] ∧
      first ≠ '|' ∧ (first = '&' → kind = .amp)) ∨
    ∃ first second, Kind.ofPair? first second = some kind ∧
      kind.describe.toList = [first, second] := by
  cases kind <;> first
    | exact .inl ⟨_, rfl, rfl, by decide, by decide⟩
    | exact .inr ⟨_, _, rfl, rfl⟩
    | exact absurd plain (by decide)
    | exact absurd proper (by decide)

/-- A piece in front of a text is cut off as what it stands for. -/
theorem cut_piece {piece : Piece} {after : List Char} (proper : piece.Proper)
    (ends : piece.Ends after) :
    cut (piece.text.toList ++ after) = piece.lexeme?.toList ++ cut after := by
  cases piece with
  | mark kind =>
    obtain ⟨asWord, asSign⟩ := ends
    cases wordy : (mark kind).isWordy with
    | true =>
      obtain ⟨shape, same⟩ := ofWord_describe wordy proper
      rw [text, Token.cut_word shape (asWord wordy), String.ofList_toList, same]
      rfl
    | false =>
      have ends := asSign wordy
      rcases spelled_of_not_isWordy wordy proper with
        ⟨first, spelled, same, notPipe, onlyAmp⟩ | ⟨first, second, spelled, same⟩
      · have alone : ∀ second ∈ after.head?, Kind.ofPair? first second = none :=
          fun second member => ofPair?_eq_none (ends second member).1
            (fun amp => (ends second member).2.2 (onlyAmp amp)) notPipe
        have notComment : first = '/' → after.head? ≠ some '/' :=
          fun _ slash => (ends '/' slash).2.1 rfl
        rw [text, same, List.singleton_append, Token.cut_single spelled alone notComment]
        rfl
      · rw [text, same, List.cons_append, List.singleton_append, Token.cut_pair spelled]
        rfl
  | name text =>
    have shape : isWord text.toList = true := proper
    rw [Piece.text, Token.cut_word shape ends, String.ofList_toList]
    rfl
  | number text =>
    rw [Piece.text, Token.cut_number proper ends.1 ends.2]
    rfl
  | string value =>
    have quoted : (string value).text.toList ++ after =
        '"' :: (Text.escape value.toList ++ '"' :: after) := by
      simp [text, Text.escapeString]
    rw [quoted, Token.cut_quoted, String.ofList_toList]
    rfl
  | blank => exact Token.cut_blank (by decide) after

/-- The text of pieces begins like the first of them. -/
theorem toList_textOf_cons (piece : Piece) (pieces : List Piece) :
    (textOf (piece :: pieces)).toList = piece.text.toList ++ (textOf pieces).toList := by
  simp [textOf]

/-- The text of pieces behind other pieces stands behind the text of those. -/
theorem toList_textOf_append (first second : List Piece) :
    (textOf (first ++ second)).toList = (textOf first).toList ++ (textOf second).toList := by
  simp [textOf]

/-- A line break may stand behind any piece. -/
theorem ends_newline (piece : Piece) (rest : List Char) : piece.Ends ('\n' :: rest) := by
  have plain : ∀ next ∈ ('\n' :: rest).head?, continuesWord next = false := by
    rintro next ⟨⟩
    decide
  cases piece with
  | mark kind =>
    refine ⟨fun _ => plain, fun _ => ?_⟩
    rintro next ⟨⟩
    exact ⟨by decide, by decide, fun _ => by decide⟩
  | name text => exact plain
  | number text =>
    refine ⟨?_, fun digit later same => ?_⟩
    · rintro next ⟨⟩
      decide
    · exact absurd (List.cons.inj same).1 (by decide)
  | string | blank => trivial

/-- What it takes to stand right behind a piece that is no blank. -/
theorem joins_elim {piece next : Piece} (joins : piece.joins next = true) (ne : piece ≠ blank) :
    (piece.isWordy = true → next.isWordy = false) ∧ next.clings = false ∧
      (piece = mark .amp → next ≠ mark .amp) ∧
      (piece = mark .dot → ∀ text, next ≠ number text) := by
  unfold Piece.joins at joins
  split at joins
  · contradiction
  · exact ⟨fun _ => rfl, rfl, fun _ => by simp, fun _ => by simp⟩
  · cases joins
  · cases joins
  · rename_i noNumber noAmp
    rw [Bool.and_eq_true, Bool.not_eq_true', Bool.not_eq_true', Bool.and_eq_false_iff] at joins
    refine ⟨fun wordy => ?_, joins.2, fun amp both => noAmp amp both, fun dot text same => ?_⟩
    · rcases joins.1 with plain | plain
      · rw [wordy] at plain
        cases plain
      · exact plain
    · exact noNumber text dot same

/-- A piece that joins the next ends where the next begins. Behind a number the next but one matters
as well, since a point belongs to the number if a digit follows it. -/
theorem ends_of_joins {piece next : Piece} {pieces : List Piece} {rest : List Char}
    (joins : piece.joins next = true) (joined : Joined (next :: pieces)) :
    piece.Ends ((textOf (next :: pieces)).toList ++ '\n' :: rest) := by
  obtain ⟨first, others, begins, leading⟩ := leads joined.1
  have whole : (textOf (next :: pieces)).toList ++ '\n' :: rest =
      first :: (others ++ ((textOf pieces).toList ++ '\n' :: rest)) := by
    rw [toList_textOf_cons, begins]
    simp
  rw [whole]
  cases piece with
  | mark kind =>
    obtain ⟨wordy, free, amp, -⟩ := joins_elim joins (by simp)
    constructor
    · rintro isWordy other ⟨⟩
      exact leading.word (wordy isWordy)
    · rintro - other ⟨⟩
      refine ⟨(leading.free free).1, (leading.free free).2, ?_⟩
      rintro rfl
      exact leading.amp free (amp rfl)
  | name text =>
    rintro other ⟨⟩
    exact leading.word ((joins_elim joins (by simp)).1 rfl)
  -- A number may be followed by a point, unless a digit stands behind that.
  | number text =>
    have plain := leading.word ((joins_elim joins (by simp)).1 rfl)
    constructor
    · rintro other ⟨⟩
      rw [Bool.eq_false_iff]
      intro digit
      rw [(Token.digit_of_isDigit digit).1] at plain
      cases plain
    · intro digit later same
      obtain ⟨rfl, behind⟩ := List.cons.inj same
      obtain rfl := leading.dot rfl
      obtain ⟨-, rfl⟩ := List.cons.inj begins
      cases pieces with
      | nil =>
        obtain ⟨rfl, -⟩ := List.cons.inj behind
        decide
      | cons following pieces =>
        obtain ⟨-, follows, inner⟩ := joined
        obtain ⟨second, others, begins, leading⟩ := leads inner.1
        rw [toList_textOf_cons, begins] at behind
        obtain ⟨rfl, -⟩ := List.cons.inj behind
        exact leading.digit ((joins_elim (follows following rfl) (by simp)).2.2.2 rfl)
  | string | blank => trivial

/-- The text of a line of joined pieces is cut into what they stand for. -/
theorem cut_line {pieces : List Piece} (joined : Joined pieces) (rest : List Char) :
    cut ((textOf pieces).toList ++ '\n' :: rest) = pieces.filterMap lexeme? ++ cut rest := by
  induction pieces with
  | nil => exact Token.cut_blank (by decide) rest
  | cons piece pieces inductionHypothesis =>
    obtain ⟨proper, next, later⟩ := joined
    have ends : piece.Ends ((textOf pieces).toList ++ '\n' :: rest) := by
      cases pieces with
      | nil => exact ends_newline piece rest
      | cons following pieces => exact ends_of_joins (next following rfl) later
    rw [toList_textOf_cons, List.append_assoc, cut_piece proper ends, inductionHypothesis later]
    cases same : piece.lexeme? with
    | none => simp [same]
    | some lexeme => simp [same]

end Piece

end SystemsLang
