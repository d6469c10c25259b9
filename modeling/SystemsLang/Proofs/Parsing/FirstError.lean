import Mathlib.Data.Nat.Basic
import SystemsLang.Proofs.Parsing.Respaced
import SystemsLang.Proofs.Parsing.SettledProgram
import SystemsLang.Proofs.Parsing.SoundProgram

/-!
# The first error

Parsing stops at one token, and the tokens up to just past that one decide that it does and why
(`ofTokens_error_settled`). All tokens before it are usable, so no lexical failure is passed over
(`ofTokens_lexical`).

An error carries a token but no number, and the same token may stand in a list twice. Which one is
meant can be seen when the tokens stand elsewhere: with the same kinds and texts the error is at the
token with the same number (`Program.FailsAt`). The proof therefore counts on numbered tokens, and
these are moved to where the tokens stand.
-/

namespace SystemsLang

open Token (Failure contents numbered placeOf endingOf)
open Syntax

variable {tokens others : List Token} {count number : Nat}

namespace Token

/-- The token with the given number. Behind the last one there is only the end marker that belongs
to the list. -/
def tokenAt (tokens : List Token) (number : Nat) : Token :=
  tokens[number]?.getD (endingOf tokens)

/-- Moving the tokens of a list moves the one with the given number. -/
theorem tokenAt_moved (nonempty : tokens ≠ []) (place : Position → Position) :
    tokenAt (tokens.map (Token.moved place)) number = (tokenAt tokens number).moved place := by
  rw [tokenAt, tokenAt, List.getElem?_map, endingOf_moved nonempty]
  cases tokens[number]? <;> rfl

/-- A list is not empty if it begins with the contents of one that is not. -/
theorem ne_nil_of_contents (nonempty : tokens ≠ [])
    (same : (contents others)[0]? = (contents tokens)[0]?) : others ≠ [] := by
  rintro rfl
  cases tokens with
  | nil => exact nonempty rfl
  | cons token rest => cases same

/-- Which failure is recorded by the token with a number can be seen from the contents. -/
theorem failure_tokenAt (same : contents others = contents tokens) :
    Failure.of? (tokenAt others number) = Failure.of? (tokenAt tokens number) := by
  have alike : (contents others)[number]? = (contents tokens)[number]? := by rw [same]
  rw [contents, contents, List.getElem?_map, List.getElem?_map] at alike
  rw [tokenAt, tokenAt]
  cases found : tokens[number]? with
  | none =>
    rw [found, Option.map_none, Option.map_eq_none_iff] at alike
    rw [alike]
    rfl
  | some token =>
    rw [found, Option.map_some, Option.map_eq_some_iff] at alike
    obtain ⟨other, foundToo, contentsToo⟩ := alike
    obtain ⟨kinds, texts⟩ := Prod.mk.inj contentsToo
    rw [foundToo, Option.getD_some, Option.getD_some, Failure.of?, Failure.of?, kinds, texts]

end Token

/-- Two inputs agree in the first places: at each of these places both have the same token, or
neither has one. In the latter case the input ends there, and they have the same end marker too. -/
structure Parser.Agrees (count : Nat) (ending : Token) (tokens : List Token) (ending' : Token)
    (others : List Token) : Prop where
  places : ∀ place < count, others[place]? = tokens[place]?
  endings : tokens.length < count → ending' = ending

/-- What a parser sees in a place is the same in both inputs. -/
theorem Parser.Agrees.getD {ending ending' : Token}
    (agrees : Agrees count ending tokens ending' others) {place : Nat} (less : place < count) :
    others[place]?.getD ending' = tokens[place]?.getD ending := by
  rw [agrees.places place less]
  cases found : tokens[place]? with
  | some token => rfl
  | none =>
    have short : tokens.length ≤ place := List.getElem?_eq_none_iff.mp found
    exact agrees.endings (Nat.lt_of_le_of_lt short less)

/-- Inputs that agree look the same. -/
theorem Parser.Agrees.sameAhead {ending ending' : Token} (isEnding : ending.kind = .ending)
    (agrees : Agrees count ending tokens ending' others) :
    SameAhead count ending tokens ending' others := by
  induction count generalizing tokens others with
  | zero => exact .none
  | succ count inductionHypothesis =>
    have first := agrees.places 0 (Nat.succ_pos count)
    cases tokens with
    | nil =>
      obtain rfl : others = [] := by simpa using first
      obtain rfl : ending' = ending := agrees.endings (Nat.succ_pos count)
      exact .ending isEnding rfl
    | cons token rest =>
      obtain ⟨later, rfl⟩ : ∃ later, others = token :: later := by
        rwa [List.getElem?_cons_zero, ← List.head?_eq_getElem?, List.head?_eq_some_iff] at first
      apply SameAhead.token
      apply inductionHypothesis
      constructor
      · intro place less
        exact agrees.places (place + 1) (Nat.succ_lt_succ less)
      · intro short
        exact agrees.endings (Nat.succ_lt_succ short)

/-- Lists with the same tokens in the first places agree there, end markers included: where the one
ends, the other does too, and then they are the same list. -/
theorem Parser.agrees_of_places (same : ∀ place < count, others[place]? = tokens[place]?) :
    Parser.Agrees count (endingOf tokens) tokens (endingOf others) others := by
  refine ⟨same, fun short => ?_⟩
  have ends : others[tokens.length]? = none := by
    rw [same _ short]
    exact List.getElem?_eq_none (Nat.le_refl _)
  have bound : others.length ≤ tokens.length := List.getElem?_eq_none_iff.mp ends
  have whole : others = tokens := by
    refine List.ext_getElem? fun place => ?_
    by_cases inside : place < count
    · exact same place inside
    · rw [List.getElem?_eq_none (by omega), List.getElem?_eq_none (by omega)]
  rw [whole]

/-- So do numbered lists if the lists have the same contents in the first places. -/
theorem Parser.agrees_numbered
    (same : ∀ place < count, (contents others)[place]? = (contents tokens)[place]?) :
    Parser.Agrees count (endingOf (numbered tokens)) (numbered tokens) (endingOf (numbered others))
      (numbered others) := by
  refine Parser.agrees_of_places fun place less => ?_
  rw [Token.numbered_eq_mapIdx, Token.numbered_eq_mapIdx, List.getElem?_mapIdx,
    List.getElem?_mapIdx, same place less]

namespace Syntax

/-- The same error at the token moved. -/
def ParseError.moved (place : Position → Position) (error : ParseError) : ParseError :=
  { error with token := error.token.moved place }

/-- What is found at a moved token is what is found at the token. -/
theorem ParseError.moved_foundAt (place : Position → Position) (token : Token)
    (cause : ParseError.Cause) :
    (ParseError.foundAt token cause).moved place =
      ParseError.foundAt (token.moved place) cause := by
  obtain ⟨found, here, there⟩ := Parser.foundAt_moved place token cause
  rw [here, there]
  rfl

/-- Parsing moved tokens gives what parsing the tokens gives, moved. -/
theorem Program.ofTokens_map_moved (nonempty : tokens ≠ []) (place : Position → Position) :
    Program.ofTokens (tokens.map (Token.moved place)) =
      ((Program.ofTokens tokens).map (Typing.Relabeling.moving place).program).mapError
        (ParseError.moved place) := by
  obtain ⟨program, parsed, again⟩ | ⟨cause, token, -, failed, again⟩ :=
    Program.ofTokens_moved_of_pool place (fun _ => True) nonempty trivial fun _ _ => trivial
  · rw [again, parsed]
    rfl
  · rw [again, failed]
    rfl

/-- Parsing tokens is parsing them numbered and moving what that gives to where they stand. -/
theorem Program.ofTokens_numbered (nonempty : tokens ≠ []) :
    Program.ofTokens tokens =
      ((Program.ofTokens (numbered tokens)).map
        (Typing.Relabeling.moving (placeOf tokens)).program).mapError
          (ParseError.moved (placeOf tokens)) := by
  have some : numbered tokens ≠ [] := by
    simpa [Token.numbered] using nonempty
  have moved := Program.ofTokens_map_moved some (placeOf tokens)
  rwa [Token.map_numbered] at moved

/-- An error found at one of the numbered tokens is found at the token with that number. -/
theorem Program.error_of_numbered {cause : ParseError.Cause} (nonempty : tokens ≠ [])
    (failed : Program.ofTokens (numbered tokens) =
      .error (ParseError.foundAt (Token.tokenAt (numbered tokens) number) cause)) :
    Program.ofTokens tokens =
      .error (ParseError.foundAt (Token.tokenAt tokens number) cause) := by
  have some : numbered tokens ≠ [] := by
    simpa [Token.numbered] using nonempty
  have place := @Token.tokenAt_moved _ number some (placeOf tokens)
  rw [Token.map_numbered] at place
  rw [Program.ofTokens_numbered nonempty, failed, place, ← ParseError.moved_foundAt]
  rfl

/-- Parsing stops at the token with the given number, for the given reason unless that token records
a lexical failure. The tokens before are usable, and the tokens up to just past it settle that
parsing stops there, whatever positions they have. -/
structure Program.StopsAt (tokens : List Token) (number : Nat) (cause : ParseError.Cause) :
    Prop where
  within : number ≤ tokens.length
  usable : ∀ token ∈ tokens.take number, token.kind.Usable
  structural : cause.isLexical = false
  settled : ∀ others,
    (∀ place < number + 2, (contents others)[place]? = (contents tokens)[place]?) →
      Program.ofTokens others = .error (ParseError.foundAt (Token.tokenAt others number) cause)

/-- The empty list is the empty program. -/
theorem Program.ofTokens_nil : Program.ofTokens [] = .ok [] := by
  have stopped : (Parser.program maxDepth).run (endingOf []) [] = .ok ([], []) := by
    refine Parser.run_manyUntil_stop ?_
    rintro ⟨sound, -⟩
    exact sound rfl
  rw [Program.ofTokens, Parser.parse, stopped]
  rfl

/-- Where parsing fails it stops at some token.

Proof: parsing the numbered tokens settles. If it succeeded, so would parsing the tokens. So it
fails at a number, and does so on each numbered list that agrees that far, hence on the list
itself. -/
theorem Program.exists_stopsAt {error : ParseError}
    (failed : Program.ofTokens tokens = .error error) :
    ∃ number cause, Program.StopsAt tokens number cause ∧
      error = ParseError.foundAt (Token.tokenAt tokens number) cause := by
  have nonempty : tokens ≠ [] := by
    rintro rfl
    rw [Program.ofTokens_nil] at failed
    cases failed
  cases Parser.settling_program maxDepth (endingOf (numbered tokens)) (numbered tokens) rfl with
  | ok program taken _ _ again =>
    -- The tokens would then spell a program as well.
    have parsed : Program.ofTokens (numbered tokens) = .ok program := by
      rw [Program.ofTokens, Parser.parse, again _ _ (.refl rfl _ _)]
      rfl
    rw [Program.ofTokens_numbered nonempty, parsed] at failed
    cases failed
  | error cause number within usable structural again =>
    have usableToo : ∀ token ∈ tokens.take number, token.kind.Usable := by
      intro token member
      rw [← Token.map_numbered tokens, ← List.map_take, List.mem_map] at member
      obtain ⟨other, memberToo, rfl⟩ := member
      exact usable other memberToo
    have settled : ∀ others,
        (∀ place < number + 2, (contents others)[place]? = (contents tokens)[place]?) →
          Program.ofTokens others =
            .error (ParseError.foundAt (Token.tokenAt others number) cause) := by
      intro others same
      refine Program.error_of_numbered (Token.ne_nil_of_contents nonempty (same 0 (by omega))) ?_
      rw [Program.ofTokens, Parser.parse, again _ _ ((Parser.agrees_numbered same).sameAhead rfl)]
      rfl
    rw [Token.numbered, List.length_mapIdx] at within
    refine ⟨number, cause, ⟨within, usableToo, structural, settled⟩, ?_⟩
    exact Except.error.inj (failed.symm.trans (settled tokens fun _ _ => rfl))

/-- Where parsing succeeds it stops at an end marker, and the tokens before that are usable. -/
theorem Program.exists_ending {program : Program} (parsed : Program.ofTokens tokens = .ok program) :
    ∃ number, (Token.tokenAt tokens number).kind = .ending ∧
      ∀ token ∈ tokens.take number, token.kind.Usable := by
  cases Parser.settling_program maxDepth (endingOf tokens) tokens rfl with
  | ok value taken _ usable again =>
    have ran := again _ _ (.refl rfl _ _)
    have stops := Parser.stops_program rfl ran
    rw [Parser.next, List.head?_drop] at stops
    exact ⟨taken, stops, usable⟩
  | error cause number _ _ _ again =>
    rw [Program.ofTokens, Parser.parse, again _ _ (.refl rfl _ _)] at parsed
    cases parsed

/-- Parsing fails at the token with the given number: with the same kinds and texts, tokens that
stand anywhere have the error at the one with that number. -/
def Program.FailsAt (tokens : List Token) (number : Nat) (cause : ParseError.Cause) : Prop :=
  ∀ others, contents others = contents tokens →
    Program.ofTokens others = .error ⟨cause, Token.tokenAt others number⟩

/-- Where parsing stops it fails, and the cause can be seen from the contents. -/
theorem Program.StopsAt.failsAt {cause : ParseError.Cause} (stops : StopsAt tokens number cause) :
    FailsAt tokens number (ParseError.foundAt (Token.tokenAt tokens number) cause).cause := by
  intro others same
  rw [stops.settled others fun _ _ => by rw [same]]
  unfold ParseError.foundAt
  rw [Token.failure_tokenAt same]
  split <;> rfl

/-- The error that is found at a token carries that token. -/
theorem ParseError.token_foundAt (token : Token) (cause : ParseError.Cause) :
    (ParseError.foundAt token cause).token = token := by
  unfold ParseError.foundAt
  split <;> rfl

/-- A syntax error is decided by the tokens up to just past the one that it is at. -/
theorem ofTokens_error_settled {error : ParseError}
    (failed : Program.ofTokens tokens = .error error) :
    ∃ number ≤ tokens.length, error.token = Token.tokenAt tokens number ∧
      Program.FailsAt tokens number error.cause ∧
      ∀ others, (∀ place ≤ number + 1, others[place]? = tokens[place]?) →
        Program.ofTokens others = .error error := by
  obtain ⟨number, cause, stops, rfl⟩ := Program.exists_stopsAt failed
  refine ⟨number, stops.within, ParseError.token_foundAt _ cause, stops.failsAt, ?_⟩
  intro others same
  have alike : Parser.Agrees (number + 2) (endingOf tokens) tokens (endingOf others) others :=
    Parser.agrees_of_places fun place less => same place (Nat.le_of_lt_succ less)
  have seen : Token.tokenAt others number = Token.tokenAt tokens number :=
    alike.getD (Nat.lt_add_of_pos_right (by decide))
  rw [← seen]
  refine stops.settled others fun place less => ?_
  rw [contents, contents, List.getElem?_map, List.getElem?_map, alike.places place less]

/-- A variable without a name. -/
def unnamedVariable : List Token :=
  [⟨.varWord, "var", ⟨1, 1⟩⟩, ⟨.assign, "=", ⟨1, 5⟩⟩, ⟨.number, "1", ⟨1, 7⟩⟩,
    ⟨.semicolon, ";", ⟨1, 8⟩⟩, ⟨.ending, "", ⟨1, 9⟩⟩]

/-- The error is at the second token, so it stays whatever stands behind the third. -/
theorem ofTokens_error_settled_unnamedVariable :
    Program.ofTokens unnamedVariable = .error ⟨.expected .identifier, ⟨.assign, "=", ⟨1, 5⟩⟩⟩ ∧
    ∃ number ≤ unnamedVariable.length,
      ⟨.assign, "=", ⟨1, 5⟩⟩ = Token.tokenAt unnamedVariable number ∧
      Program.FailsAt unnamedVariable number (.expected .identifier) ∧
      ∀ others, (∀ place ≤ number + 1, others[place]? = unnamedVariable[place]?) →
        Program.ofTokens others = .error ⟨.expected .identifier, ⟨.assign, "=", ⟨1, 5⟩⟩⟩ := by
  have failed : Program.ofTokens unnamedVariable =
      .error ⟨.expected .identifier, ⟨.assign, "=", ⟨1, 5⟩⟩⟩ := by
    decide +kernel
  exact ⟨failed, ofTokens_error_settled failed⟩

/-- Of usable tokens at the front of a list, the one with a given number is usable. -/
theorem usable_tokenAt (usable : ∀ token ∈ tokens.take count, token.kind.Usable)
    (less : number < count) (inside : number < tokens.length) :
    (Token.tokenAt tokens number).kind.Usable := by
  have stands : Token.tokenAt tokens number = tokens[number] := by
    rw [Token.tokenAt, List.getElem?_eq_getElem inside, Option.getD_some]
  rw [stands]
  exact usable _ (List.mem_take_iff_getElem.mpr ⟨number, by omega, rfl⟩)

/-- A usable token records no failure. -/
theorem failure_of_usable {token : Token} (usable : token.kind.Usable) :
    Failure.of? token = none := by
  rw [← Option.not_isSome_iff_eq_none, Failure.of?_isSome, usable.2]
  exact Bool.false_ne_true

/-- Nor does an end marker. -/
theorem failure_of_ending {token : Token} (ends : token.kind = .ending) :
    Failure.of? token = none := by
  rw [Failure.of?, ends]

/-- Usable tokens with an end marker behind them are all that stands before the first end marker. -/
theorem takeWhile_eq_take (ends : (Token.tokenAt tokens count).kind = .ending)
    (usable : ∀ token ∈ tokens.take count, token.kind.Usable) :
    tokens.takeWhile (fun token => !token.isEnding) = tokens.take count := by
  have front : ∀ token ∈ tokens.take count, (!token.isEnding) = true := by
    intro token member
    simpa [Token.isEnding] using (usable token member).1
  have back : (tokens.drop count).takeWhile (fun token => !token.isEnding) = [] := by
    rw [Token.tokenAt, ← List.head?_drop] at ends
    cases behind : tokens.drop count with
    | nil => rfl
    | cons token rest =>
      rw [behind] at ends
      refine List.takeWhile_cons_of_neg ?_
      simpa [Token.isEnding] using ends
  calc
    _ = (tokens.take count ++ tokens.drop count).takeWhile (fun token => !token.isEnding) := by
      rw [List.take_append_drop]
    _ = tokens.take count := by
      rw [List.takeWhile_append_of_pos front, back, List.append_nil]

/-- At the first lexical failure, if no end marker stands before it, parsing fails because of that
failure, unless it fails earlier.

Proof: parsing takes usable tokens only, so it stops at the failure or before. Where it succeeds it
stops at an end marker, which is neither. -/
theorem failsAt_of_failure {token : Token} {failure : Failure}
    (stands : tokens[number]? = some token) (fails : Failure.of? token = some failure)
    (usable : ∀ earlier ∈ tokens.take number, earlier.kind.Usable) :
    Program.FailsAt tokens number (.lexical failure) ∨
      ∃ place < number, ∃ cause, cause.isLexical = false ∧ Program.FailsAt tokens place cause := by
  obtain ⟨inside, -⟩ := List.getElem?_eq_some_iff.mp stands
  have seen : Token.tokenAt tokens number = token := by
    rw [Token.tokenAt, stands, Option.getD_some]
  rw [← seen] at fails
  have notPassed {place : Nat} (taken : ∀ earlier ∈ tokens.take place, earlier.kind.Usable) :
      place ≤ number := by
    refine Nat.le_of_not_lt fun passed => ?_
    rw [failure_of_usable (usable_tokenAt taken passed inside)] at fails
    cases fails
  cases outcome : Program.ofTokens tokens with
  | ok program =>
    obtain ⟨place, ends, taken⟩ := Program.exists_ending outcome
    rcases Nat.lt_or_eq_of_le (notPassed taken) with earlier | rfl
    · exact absurd ends (usable_tokenAt usable earlier (Nat.lt_trans earlier inside)).1
    · rw [failure_of_ending ends] at fails
      cases fails
  | error error =>
    obtain ⟨place, cause, stops, -⟩ := Program.exists_stopsAt outcome
    have failsThere := stops.failsAt
    rcases Nat.lt_or_eq_of_le (notPassed stops.usable) with earlier | rfl
    · have sound := failure_of_usable
        (usable_tokenAt usable earlier (Nat.lt_trans earlier inside))
      rw [ParseError.foundAt, sound] at failsThere
      exact .inr ⟨place, earlier, cause, stops.structural, failsThere⟩
    · rw [ParseError.foundAt, fails] at failsThere
      exact .inl failsThere

/-- A lexical cause is found only where a token records the failure. -/
theorem failure_of_lexical {token : Token} {cause : ParseError.Cause} {failure : Failure}
    (structural : cause.isLexical = false)
    (lexical : (ParseError.foundAt token cause).cause = .lexical failure) :
    Failure.of? token = some failure := by
  unfold ParseError.foundAt at lexical
  split at lexical
  · rename_i found records
    obtain rfl : found = failure := ParseError.Cause.lexical.inj lexical
    exact records
  · obtain rfl : cause = .lexical failure := lexical
    cases structural

/-- No lexical failure is swallowed. What is read as a program has none before its first end marker.
At the first failure, if no end marker stands before it, parsing fails because of that failure,
unless it fails earlier for a structural reason. And a lexical cause is given at no token but one
that records the failure. -/
theorem ofTokens_lexical (tokens : List Token) :
    (∀ program, Program.ofTokens tokens = .ok program →
      ∀ token ∈ tokens.takeWhile (fun token => !token.isEnding), Failure.of? token = none) ∧
    (∀ number token failure, tokens[number]? = some token → Failure.of? token = some failure →
      (∀ earlier ∈ tokens.take number, earlier.kind.Usable) →
      Program.FailsAt tokens number (.lexical failure) ∨
        ∃ place < number, ∃ cause, cause.isLexical = false ∧
          Program.FailsAt tokens place cause) ∧
    (∀ error failure, Program.ofTokens tokens = .error error → error.cause = .lexical failure →
      Failure.of? error.token = some failure) := by
  refine ⟨fun program parsed => ?_, fun number token failure stands fails usable => ?_,
    fun error failure failed lexical => ?_⟩
  · obtain ⟨number, ends, usable⟩ := Program.exists_ending parsed
    rw [takeWhile_eq_take ends usable]
    exact fun token member => failure_of_usable (usable token member)
  · exact failsAt_of_failure stands fails usable
  · obtain ⟨number, cause, stops, rfl⟩ := Program.exists_stopsAt failed
    rw [ParseError.token_foundAt]
    exact failure_of_lexical stops.structural lexical

/-- A variable with a stray character for its name, behind the given tokens. -/
def strayVariable (tokens : List Token) : List Token :=
  tokens ++ [⟨.varWord, "var", ⟨2, 1⟩⟩, ⟨.unexpectedChar, "$", ⟨2, 5⟩⟩]

/-- A stray character behind an end marker does no harm; elsewhere parsing fails at it. -/
theorem ofTokens_lexical_strayVariable :
    (Program.ofTokens (strayVariable [⟨.ending, "", ⟨1, 1⟩⟩]) = .ok [] ∧
      ∀ token ∈ (strayVariable [⟨.ending, "", ⟨1, 1⟩⟩]).takeWhile fun token => !token.isEnding,
        Failure.of? token = none) ∧
    (Program.FailsAt (strayVariable []) 1 (.lexical (.unexpectedChar '$')) ∨
      ∃ place < 1, ∃ cause, cause.isLexical = false ∧
        Program.FailsAt (strayVariable []) place cause) ∧
    Program.ofTokens (strayVariable []) =
        .error ⟨.lexical (.unexpectedChar '$'), ⟨.unexpectedChar, "$", ⟨2, 5⟩⟩⟩ ∧
      Failure.of? ⟨.unexpectedChar, "$", ⟨2, 5⟩⟩ = some (.unexpectedChar '$') := by
  have parsed : Program.ofTokens (strayVariable [⟨.ending, "", ⟨1, 1⟩⟩]) = .ok [] := by
    decide +kernel
  have failed : Program.ofTokens (strayVariable []) =
      .error ⟨.lexical (.unexpectedChar '$'), ⟨.unexpectedChar, "$", ⟨2, 5⟩⟩⟩ := by
    decide +kernel
  refine ⟨⟨parsed, (ofTokens_lexical _).1 [] parsed⟩, ?_, failed, ?_⟩
  · exact (ofTokens_lexical _).2.1 1 _ (.unexpectedChar '$') rfl (by decide +kernel) (by decide)
  · exact (ofTokens_lexical _).2.2 _ (.unexpectedChar '$') failed rfl

end Syntax

end SystemsLang
