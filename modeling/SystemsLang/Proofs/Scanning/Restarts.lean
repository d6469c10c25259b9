import SystemsLang.Proofs.Parsing.Lockstep
import SystemsLang.Proofs.Scanning.Respaced

/-!
# Scanning starts again at a line break

Nothing of a text is left over behind a line break, so two texts with a line break between them have
the tokens of the first and then those of the second, which stand as many lines further down as the
first text and the break take up (`scan_append_newline`). The one exception is a string literal
without its closing quote, which takes the break and all that follows.

A lexeme looks at the characters behind it to find its end, but not past a blank; so it is read the
same whether the text ends or goes on with a blank (`read_prolonged`). The gap at the end of the
first text may be a comment, which the break ends.
-/

namespace SystemsLang

/-- The position a number of lines further down, in the same column. -/
def Position.below (lines : Nat) (position : Position) : Position :=
  ⟨position.line + lines, position.column⟩

namespace Position

/-- Following a text further down leads to the same place further down. -/
theorem past_below (lines : Nat) (position : Position) (text : List Char) :
    (position.below lines).past text = (position.past text).below lines := by
  induction text generalizing position with
  | nil => rfl
  | cons character rest inductionHypothesis =>
    have step : (position.below lines).next character = (position.next character).below lines := by
      unfold next below
      split
      · rw [Nat.add_right_comm]
      · rfl
    rw [past_cons, past_cons, step, inductionHypothesis]

/-- Behind a text and a line break the next line begins. -/
theorem past_newline (text : List Char) :
    start.past (text ++ ['\n']) = start.below (text.count '\n' + 1) := by
  have behind : start.past (text ++ ['\n']) = Position.behind (text ++ ['\n']) :=
    past_behind [] (text ++ ['\n'])
  rw [behind, Position.behind]
  simp [below, start]

end Position

namespace Token

variable {first quote : Char} {gap text after other : List Char}

/-- A closed gap goes on into the gap behind it. -/
theorem splitGap_closedGap (isClosed : ClosedGap gap) (text : List Char) :
    splitGap false (gap ++ text) = (gap ++ (splitGap false text).1, (splitGap false text).2) := by
  induction isClosed with
  | nil => rfl
  | @blank character rest isBlank _ inductionHypothesis =>
    have notComment : ∀ later, character = '/' → rest ++ text = '/' :: later → False := by
      rintro later rfl -
      exact absurd isBlank (by decide)
    rw [List.cons_append, splitGap, if_pos isBlank, inductionHypothesis]
    · rfl
    · exact notComment
  | comment oneLine _ inductionHypothesis =>
    rw [List.cons_append, List.cons_append, List.append_assoc, List.cons_append,
      splitGap_closedComment oneLine, inductionHypothesis]
    simp

/-- So does any gap if a line break stands between, which ends a comment. -/
theorem splitGap_newline (isGap : Gap gap) (text : List Char) :
    splitGap false (gap ++ '\n' :: text) =
      (gap ++ '\n' :: (splitGap false text).1, (splitGap false text).2) := by
  have newline : ClosedGap ['\n'] := .blank (by decide) .nil
  cases isGap with
  | closed isClosed =>
    rw [splitGap_closedGap isClosed, ← List.singleton_append, splitGap_closedGap newline,
      List.singleton_append]
  | comment isClosed oneLine =>
    rw [List.append_assoc, splitGap_closedGap isClosed, List.cons_append, List.cons_append,
      splitGap_closedComment oneLine]
    simp

/-- A line break isolates what stands in front of it. -/
theorem isolates_newline (text : List Char) : Isolates ('\n' :: text) := by
  rintro next ⟨⟩
  decide

/-- A lexeme behind which the text goes on. -/
def Lexeme.prolong (after : List Char) (lexeme : Lexeme) : Lexeme :=
  { lexeme with rest := lexeme.rest ++ after }

/-- What meets a condition at the front of a text ends where it did if a blank follows the text. -/
theorem takeWhile_prolonged {condition : Char → Bool}
    (stops : ∀ next, Text.isBlank next = true → condition next = false) (text : List Char)
    (isolates : Isolates after) :
    (text ++ after).takeWhile condition = text.takeWhile condition ∧
      (text ++ after).dropWhile condition = text.dropWhile condition ++ after := by
  induction text with
  | nil => exact takeWhile_isolated stops [] isolates
  | cons character rest inductionHypothesis =>
    rw [List.cons_append, List.takeWhile_cons, List.takeWhile_cons, List.dropWhile_cons,
      List.dropWhile_cons, inductionHypothesis.1, inductionHypothesis.2]
    split <;> exact ⟨rfl, rfl⟩

/-- A word is scanned as before when more text stands behind it. -/
theorem word_prolonged (start text : List Char) (isolates : Isolates after) :
    Lexeme.word start (text ++ after) = (Lexeme.word start text).prolong after := by
  obtain ⟨taken, left⟩ :=
    takeWhile_prolonged (fun _ => not_continuesWord_of_isBlank) text isolates
  rw [Lexeme.word, taken, left]
  rfl

/-- What does not begin with a point has no fraction. -/
theorem number_whole {first : Char} {text : List Char}
    (noPoint : (text.dropWhile Char.isDigit).head? ≠ some '.') :
    Lexeme.number first text =
      .plain .number (first :: text.takeWhile Char.isDigit) (text.dropWhile Char.isDigit) := by
  unfold Lexeme.number
  split
  · rename_i behind
    rw [behind] at noPoint
    exact absurd rfl noPoint
  · rfl

/-- A number is scanned as before when more text stands behind it. -/
theorem number_prolonged (first : Char) (text : List Char) (isolates : Isolates after) :
    Lexeme.number first (text ++ after) = (Lexeme.number first text).prolong after := by
  obtain ⟨taken, left⟩ := takeWhile_prolonged (fun _ => not_isDigit_of_isBlank) text isolates
  have noPointAfter : after.head? ≠ some '.' := by
    intro point
    exact absurd (isolates '.' point) (by decide)
  by_cases point : (text.dropWhile Char.isDigit).head? = some '.'
  · obtain ⟨behind, same⟩ := List.head?_eq_some_iff.mp point
    unfold Lexeme.number
    rw [taken, left, same]
    cases behind with
    | cons digit rest =>
      obtain ⟨takenLater, leftLater⟩ :=
        takeWhile_prolonged (fun _ => not_isDigit_of_isBlank) rest isolates
      simp only [List.cons_append, takenLater, leftLater]
      split <;> rfl
    | nil =>
      -- A point at the end of the text has no digit behind it in either case.
      cases after with
      | nil => rfl
      | cons next later =>
        have notDigit : next.isDigit = false := not_isDigit_of_isBlank (isolates next rfl)
        simp [notDigit, Lexeme.prolong, Lexeme.plain]
  · have noPoint : ((text ++ after).dropWhile Char.isDigit).head? ≠ some '.' := by
      rw [left]
      cases behind : text.dropWhile Char.isDigit with
      | nil => exact noPointAfter
      | cons next later =>
        rw [behind] at point
        exact point
    rw [number_whole noPoint, number_whole point, taken, left]
    rfl

/-- A string literal with its closing quote is read whatever follows the text. -/
theorem readQuoted_prolonged {literal : Text.Quoted}
    (read : Text.readQuoted quote text = some literal) (after : List Char) :
    Text.readQuoted quote (text ++ after) =
      some { literal with rest := literal.rest ++ after } := by
  rw [← Text.readQuoted_span_append_rest read, List.append_assoc, readQuoted_again read]

/-- A string that is closed is scanned as before, whatever stands behind it. -/
theorem quoted_prolonged (closed : (Lexeme.quoted quote text).kind ≠ .unterminatedString)
    (after : List Char) :
    Lexeme.quoted quote (text ++ after) = (Lexeme.quoted quote text).prolong after := by
  cases read : Text.readQuoted quote text with
  | none =>
    rw [Lexeme.quoted, read] at closed
    exact absurd rfl closed
  | some literal =>
    rw [Lexeme.quoted, Lexeme.quoted, read, readQuoted_prolonged read]
    rfl

/-- A mark is scanned as before when more text stands behind it. -/
theorem mark_prolonged (first : Char) (text : List Char) (isolates : Isolates after) :
    Lexeme.mark first (text ++ after) = (Lexeme.mark first text).prolong after := by
  cases text with
  | cons second rest =>
    unfold Lexeme.mark
    simp only [List.cons_append]
    split <;> rfl
  | nil =>
    -- Alone the character is read, since no operator has a blank behind it.
    cases after with
    | nil => rfl
    | cons next later =>
      unfold Lexeme.mark
      simp only [List.nil_append, ofPair?_of_isBlank first (isolates next rfl)]
      rfl

/-- A lexeme is read the same if the text goes on with a blank, unless it is a string literal
without its closing quote. -/
theorem read_prolonged (first : Char) (text : List Char) (isolates : Isolates after)
    (closed : (Lexeme.read first text).kind ≠ .unterminatedString) :
    Lexeme.read first (text ++ after) = (Lexeme.read first text).prolong after := by
  have sameAt : (text ++ after).head?.any startsWord = text.head?.any startsWord := by
    cases text with
    | cons next later => rfl
    | nil =>
      cases after with
      | nil => rfl
      | cons next later =>
        rw [Bool.eq_iff_iff]
        constructor
        · intro starts
          have continues := continuesWord_of_startsWord starts
          rw [not_continuesWord_of_isBlank (isolates next rfl)] at continues
          cases continues
        · intro impossible
          cases impossible
  unfold Lexeme.read at closed ⊢
  rw [sameAt]
  split
  · exact word_prolonged [first] text isolates
  split
  · exact number_prolonged first text isolates
  split
  · rename_i notWord notDigit isQuote
    rw [if_neg notWord, if_neg notDigit, if_pos isQuote] at closed
    exact quoted_prolonged closed after
  split
  · exact word_prolonged [first] text isolates
  · exact mark_prolonged first text isolates

/-- The tokens of a text that begins at the given position. -/
def scanFrom (position : Position) (text : List Char) : List Token :=
  tokensOf position (segments text).parts (segments text).trailing

/-- A text that is all gap has the end marker alone. -/
theorem scanFrom_gap {position : Position} (cut : splitGap false text = (gap, [])) :
    scanFrom position text = [⟨.ending, "", position.past gap⟩] := by
  have segmented : segments text = ⟨[], gap⟩ := by
    rw [segments]
    split
    · rename_i other same
      cases cut.symm.trans same
      rfl
    · rename_i same
      cases cut.symm.trans same
  rw [scanFrom, segmented, tokensOf]

/-- Any other text has the token of its first lexeme and those of what follows that. -/
theorem scanFrom_lexeme {position : Position} {rest : List Char}
    (cut : splitGap false text = (gap, first :: rest)) :
    scanFrom position text =
      ⟨(Lexeme.read first rest).kind, String.ofList (Lexeme.read first rest).value,
          position.past gap⟩ ::
        scanFrom ((position.past gap).past (Lexeme.read first rest).source)
          (Lexeme.read first rest).rest := by
  have segmented : segments text =
      (segments (Lexeme.read first rest).rest).push gap (Lexeme.read first rest) := by
    rw [segments]
    split
    · rename_i same
      cases cut.symm.trans same
    · rename_i same
      cases cut.symm.trans same
      rfl
  rw [scanFrom, segmented, Segmentation.push, tokensOf]
  rfl

/-- From another place on a text has the same tokens at other places, if these places follow the
characters of the text as the first ones do. -/
theorem scanFrom_moved {place : Position → Position} {position : Position}
    (follows : ∀ text, (place position).past text = place (position.past text))
    (text : List Char) :
    scanFrom (place position) text = (scanFrom position text).map (Token.moved place) := by
  unfold scanFrom
  generalize (segments text).parts = parts
  induction parts generalizing position with
  | nil =>
    rw [tokensOf, tokensOf, follows]
    rfl
  | cons part later inductionHypothesis =>
    obtain ⟨gap, lexeme⟩ := part
    have behind (text : List Char) : (place ((position.past gap).past lexeme.source)).past text =
        place (((position.past gap).past lexeme.source).past text) := by
      simp only [← Position.past_append, ← follows]
    have stands : ((place position).past gap).past lexeme.source =
        place ((position.past gap).past lexeme.source) := by
      rw [← Position.past_append, ← Position.past_append, follows]
    rw [tokensOf, tokensOf, stands, inductionHypothesis behind, follows]
    rfl

/-- Further down a text has the same tokens further down. -/
theorem scanFrom_below (lines : Nat) (position : Position) (text : List Char) :
    scanFrom (position.below lines) text =
      (scanFrom position text).map (Token.moved (Position.below lines)) :=
  scanFrom_moved (Position.past_below lines position) text

/-- Where the gap ends does not change what follows it. -/
theorem scanFrom_splitGap {position : Position} {before : List Char}
    (cut : splitGap false text = (before ++ (splitGap false other).1, (splitGap false other).2)) :
    scanFrom position text = scanFrom (position.past before) other := by
  cases left : (splitGap false other).2 with
  | nil =>
    rw [left] at cut
    rw [scanFrom_gap cut, scanFrom_gap (Prod.ext rfl left), Position.past_append]
  | cons first rest =>
    rw [left] at cut
    rw [scanFrom_lexeme cut, scanFrom_lexeme (Prod.ext rfl left), Position.past_append]

/-- The gap before the first lexeme of a text is the same if a line break and more stand behind the
text. -/
theorem splitGap_append_newline {rest : List Char}
    (cut : splitGap false text = (gap, first :: rest)) (other : List Char) :
    splitGap false (text ++ '\n' :: other) = (gap, first :: (rest ++ '\n' :: other)) := by
  have sound := splitGap_sound text
  have whole := gap_append_rest false text
  have notComment : first = '/' → rest.head? ≠ some '/' := splitGap_notComment false (by rw [cut])
  rw [cut] at sound whole
  obtain ⟨-, isClosed, notBlank⟩ := sound
  have stillNoComment : first = '/' → (rest ++ '\n' :: other).head? ≠ some '/' := by
    intro slash follows
    cases rest with
    | nil => exact absurd (Option.some.inj follows) (by decide)
    | cons second later => exact notComment slash follows
  rw [← whole, List.append_assoc, splitGap_closedGap (isClosed (List.cons_ne_nil _ _)),
    List.cons_append, splitGap_lexeme (notBlank first rfl) stillNoComment, List.append_nil]

/-- There is an end marker at least. -/
theorem scanFrom_ne_nil (position : Position) (text : List Char) : scanFrom position text ≠ [] := by
  unfold scanFrom
  cases (segments text).parts <;> exact List.cons_ne_nil _ _

/-- Behind a line break scanning starts again: a text, a line break and another text have the tokens
of the first text and those of the other, if the first leaves no string literal open. -/
theorem scanFrom_newline (position : Position) (text other : List Char)
    (closed : ∀ part ∈ (segments text).parts, part.2.kind ≠ .unterminatedString) :
    scanFrom position (text ++ '\n' :: other) =
      (scanFrom position text).dropLast ++
        scanFrom (position.past (text ++ ['\n'])) other := by
  have whole := gap_append_rest false text
  fun_induction segments text generalizing position with
  | case1 text gap cut =>
    have sound := splitGap_sound text
    rw [cut] at sound whole
    obtain rfl : gap = text := by simpa using whole
    rw [scanFrom_gap cut, List.dropLast_singleton, List.nil_append]
    refine scanFrom_splitGap ?_
    rw [splitGap_newline sound.1, List.append_assoc, List.singleton_append]
  | case2 text gap first rest cut _ inductionHypothesis =>
    obtain ⟨headClosed, laterClosed⟩ := List.forall_mem_cons.mp closed
    rw [cut] at whole
    have prolonged := read_prolonged first rest (isolates_newline other) headClosed
    have later := inductionHypothesis ((position.past gap).past (Lexeme.read first rest).source)
      laterClosed (gap_append_rest false _)
    have behind : ((position.past gap).past (Lexeme.read first rest).source).past
        ((Lexeme.read first rest).rest ++ ['\n']) = position.past (text ++ ['\n']) := by
      rw [← Position.past_append, ← Position.past_append, ← List.append_assoc,
        ← List.append_assoc, List.append_assoc gap, Lexeme.source_append_rest, whole]
    rw [scanFrom_lexeme (splitGap_append_newline cut other), prolonged, scanFrom_lexeme cut,
      List.dropLast_cons_of_ne_nil (scanFrom_ne_nil _ _), List.cons_append, ← behind, ← later]
    rfl

/-- A string literal without its closing quote is the last lexeme of a text, so there is none if the
last lexeme is something else. -/
theorem closed_of_getLast? {source : String}
    (last : ∀ token ∈ (lexemes source).getLast?, token.kind ≠ .unterminatedString) :
    ∀ token ∈ lexemes source, token.kind ≠ .unterminatedString := by
  have ofCut (text : List Char)
      (last : ∀ content ∈ (cut text).getLast?, content.1 ≠ Kind.unterminatedString) :
      ∀ content ∈ cut text, content.1 ≠ Kind.unterminatedString := by
    fun_induction segments text with
    | case1 text gap same =>
      have empty : cut text = [] := by
        rw [cut_eq, same]
        rfl
      rw [empty]
      intro content impossible
      cases impossible
    | case2 text gap first rest same _ inductionHypothesis =>
      have behind : cut text = ((Lexeme.read first rest).kind,
          String.ofList (Lexeme.read first rest).value) :: cut (Lexeme.read first rest).rest := by
        rw [cut_eq, same]
        rfl
      rw [behind] at last ⊢
      refine List.forall_mem_cons.mpr ⟨fun failed => ?_, inductionHypothesis fun content ends =>
        last content ?_⟩
      · rw [rest_of_unterminated first rest failed, cut_nil] at last
        exact last _ rfl failed
      · rw [List.getLast?_cons, ends]
        rfl
  intro token member
  refine ofCut source.toList ?_ (token.kind, token.text) ?_
  · rw [← map_lexemes, List.getLast?_map]
    rintro content ends
    obtain ⟨token, found, rfl⟩ := Option.map_eq_some_iff.mp ends
    exact last token found
  · rw [← map_lexemes]
    exact List.mem_map_of_mem member

/-- What stands behind a line break is scanned as a text of its own, and its tokens stand further
down by the lines of the first text, if no string literal is left open there. -/
theorem scan_append_newline {first : String} (second : String)
    (closed : ∀ token ∈ lexemes first, token.kind ≠ .unterminatedString) :
    scan (first ++ "\n" ++ second) = lexemes first ++
      (scan second).map (Token.moved (Position.below (first.toList.count '\n' + 1))) := by
  have partsClosed := (forall_kind_lexemes (fun kind => kind ≠ .unterminatedString) first).mp closed
  have restarted := scanFrom_newline Position.start first.toList second.toList partsClosed
  rw [Position.past_newline, scanFrom_below] at restarted
  have whole : (first ++ "\n" ++ second).toList = first.toList ++ '\n' :: second.toList := by
    simp
  rw [scan, whole]
  exact restarted

end Token

end SystemsLang
