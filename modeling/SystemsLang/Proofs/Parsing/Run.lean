import SystemsLang.Parser.Basic

/-!
# Running the primitives of parsers

Every parser of the grammar is put together from a few primitives. This module says what each of
them does to the front of a token list, in two directions. Forwards, tokens of the right kinds are
taken one after the other; backwards, a step that succeeded shows which tokens stood there.

`Reads` is the forward law of a whole parser. It speaks about nesting as well: tokens that spell a
value on a number of levels are read exactly if there is room for so many, and with less room
parsing ends in the report that nesting is too deep. The law composes along `bind`, where the levels
of the two parts give their maximum.
-/

namespace SystemsLang.Parser

open Token (Kind Failure)
open Syntax (ParseError)

variable {α β : Type} {ending token : Token} {tokens rest middle : List Token} {kind : Kind}

/-- The token that a parser sees next: the first one, or the end marker behind the last. -/
def next (ending : Token) (tokens : List Token) : Token :=
  tokens.head?.getD ending

/-- The next token is the first one if there is one. -/
@[simp] theorem next_cons : next ending (token :: rest) = token := rfl

/-- A step that succeeded hands its value and its rest to what follows it. -/
theorem run_bind_ok {first : Parser α} {second : α → Parser β} {value : α}
    (ran : first.run ending tokens = .ok (value, rest)) :
    (first >>= second).run ending tokens = (second value).run ending rest := by
  rw [run_bind, ran]

/-- A step that failed fails the whole sequence. -/
theorem run_bind_error {first : Parser α} {second : α → Parser β} {error : ParseError}
    (ran : first.run ending tokens = .error error) :
    (first >>= second).run ending tokens = .error error := by
  rw [run_bind, ran]

/-- Discarding the value of a parser leaves what the parser leaves. -/
theorem run_discard {parser : Parser α} {value : α}
    (ran : parser.run ending tokens = .ok (value, rest)) :
    (discard parser).run ending tokens = .ok ((), rest) := by
  change (parser >>= fun _ => pure ()).run ending tokens = _
  rw [run_bind_ok ran, run_pure]

/-- A look ahead sees a token or, behind the last one, the end marker. -/
theorem run_peekAt (distance : Nat) :
    (peekAt distance).run ending tokens = .ok (tokens[distance]?.getD ending, tokens) := rfl

/-- A look at the next token leaves all tokens. -/
theorem run_peek : peek.run ending tokens = .ok (next ending tokens, tokens) := by
  cases tokens <;> rfl

/-- Where there is a token, advancing takes it. -/
theorem run_advance : advance.run ending (token :: rest) = .ok (token, rest) := rfl

/-- A look at the kind of the next token leaves all tokens. -/
theorem run_nextIs :
    (nextIs kind).run ending tokens = .ok ((next ending tokens).kind == kind, tokens) := by
  unfold nextIs
  rw [run_bind_ok run_peek, run_pure]

/-- A failure at a token is reported as what the token records, if it records a failure. -/
theorem run_failAt {cause : ParseError.Cause} :
    (failAt token cause : Parser α).run ending tokens = .error (ParseError.foundAt token cause) :=
  rfl

/-- A failure is reported at the next token. -/
theorem run_fail {cause : ParseError.Cause} :
    (fail cause : Parser α).run ending tokens =
      .error (ParseError.foundAt (next ending tokens) cause) := by
  unfold fail
  rw [run_bind_ok run_peek, run_failAt]

/-- A token of the kind asked for is taken. -/
theorem run_take_same (same : token.kind = kind) :
    (take kind).run ending (token :: rest) = .ok (true, rest) := by
  unfold take
  rw [run_bind_ok run_nextIs]
  simp only [next_cons, same, beq_self_eq_true, if_true]
  rw [run_bind_ok (run_discard run_advance), run_pure]

/-- If the next token is of another kind, nothing is taken. -/
theorem run_take_other (other : (next ending tokens).kind ≠ kind) :
    (take kind).run ending tokens = .ok (false, tokens) := by
  unfold take
  rw [run_bind_ok run_nextIs]
  simp [other]

/-- A token of the kind that has to stand there is taken. -/
theorem run_expect (same : token.kind = kind) :
    (expect kind).run ending (token :: rest) = .ok (token, rest) := by
  unfold expect
  rw [run_bind_ok run_nextIs]
  simp [same, run_advance]

/-- A token of one of the kinds that may stand there is taken. -/
theorem run_expectAny {kinds : List Kind} (listed : token.kind ∈ kinds) :
    (expectAny kinds).run ending (token :: rest) = .ok (token, rest) := by
  unfold expectAny
  rw [run_bind_ok run_peek, next_cons, if_pos listed, run_advance]

/-- Where a token of another kind stands, that is the error. -/
theorem run_expectAny_other {kinds : List Kind} (other : (next ending tokens).kind ∉ kinds) :
    (expectAny kinds).run ending tokens =
      .error (ParseError.foundAt (next ending tokens) (.expectedAny kinds)) := by
  unfold expectAny
  rw [run_bind_ok run_peek, if_neg other, run_fail]

/-- A sequence succeeds exactly if both steps do, the second on what the first leaves. -/
theorem run_bind_eq_ok {first : Parser α} {second : α → Parser β} {result : β} :
    (first >>= second).run ending tokens = .ok (result, rest) ↔
      ∃ value middle, first.run ending tokens = .ok (value, middle) ∧
        (second value).run ending middle = .ok (result, rest) := by
  rw [run_bind]
  cases first.run ending tokens with
  | error error => simp
  | ok outcome =>
    obtain ⟨value, middle⟩ := outcome
    simp only [Except.ok.injEq, Prod.mk.injEq]
    constructor
    · intro ran
      exact ⟨value, middle, ⟨rfl, rfl⟩, ran⟩
    · rintro ⟨value, middle, ⟨rfl, rfl⟩, ran⟩
      exact ran

/-- What is given back without a step is the value, with all tokens left. -/
theorem run_pure_eq_ok {value result : α} :
    (pure value : Parser α).run ending tokens = .ok (result, rest) ↔
      value = result ∧ tokens = rest := by
  rw [run_pure, Except.ok.injEq, Prod.mk.injEq]

/-- A parser whose value is discarded succeeds where the parser does. -/
theorem run_discard_eq_ok {parser : Parser α} {result : Unit} :
    (discard parser).run ending tokens = .ok (result, rest) ↔
      ∃ value, parser.run ending tokens = .ok (value, rest) := by
  change (parser >>= fun _ => pure ()).run ending tokens = _ ↔ _
  rw [run_bind_eq_ok]
  constructor
  · rintro ⟨value, middle, ran, finished⟩
    obtain ⟨-, rfl⟩ := run_pure_eq_ok.mp finished
    exact ⟨value, ran⟩
  · rintro ⟨value, ran⟩
    exact ⟨value, rest, ran, rfl⟩

/-- A parser whose value is only wrapped up succeeds exactly if it does without. -/
theorem run_map_eq_ok {parser : Parser α} {wrap : α → β} {result : β} :
    (parser >>= fun value => pure (wrap value)).run ending tokens = .ok (result, rest) ↔
      ∃ value, parser.run ending tokens = .ok (value, rest) ∧ wrap value = result := by
  rw [run_bind_eq_ok]
  constructor
  · rintro ⟨value, middle, ran, finished⟩
    obtain ⟨rfl, rfl⟩ := run_pure_eq_ok.mp finished
    exact ⟨value, ran, rfl⟩
  · rintro ⟨value, ran, rfl⟩
    exact ⟨value, rest, ran, rfl⟩

/-- A failure at a token is no success. -/
theorem failAt_ne_ok {cause : ParseError.Cause} {value : α} :
    (failAt token cause : Parser α).run ending tokens ≠ .ok (value, rest) := by
  intro ran
  cases ran

/-- A failure is no success. -/
theorem fail_ne_ok {cause : ParseError.Cause} {value : α} :
    (fail cause : Parser α).run ending tokens ≠ .ok (value, rest) := by
  rw [run_fail]
  intro ran
  cases ran

/-- A step that looked ahead took nothing. -/
theorem run_peek_eq_ok {seen : Token} (ran : peek.run ending tokens = .ok (seen, rest)) :
    seen = next ending tokens ∧ rest = tokens := by
  rw [run_peek, Except.ok.injEq, Prod.mk.injEq] at ran
  exact ⟨ran.1.symm, ran.2.symm⟩

/-- What is answered about the next token is its kind. -/
theorem run_nextIs_eq_ok {answer : Bool}
    (ran : (nextIs kind).run ending tokens = .ok (answer, rest)) :
    answer = ((next ending tokens).kind == kind) ∧ rest = tokens := by
  rw [run_nextIs, Except.ok.injEq, Prod.mk.injEq] at ran
  exact ⟨ran.1.symm, ran.2.symm⟩

section AtEnd

variable (isEnding : ending.kind = .ending)
include isEnding

/-- A token of a kind other than the end marker's that is seen next is the first of the list. -/
theorem eq_cons_of_next (seen : (next ending tokens).kind = kind) (notEnding : kind ≠ .ending) :
    ∃ rest, tokens = next ending tokens :: rest := by
  cases tokens with
  | nil => exact absurd (seen.symm.trans isEnding) notEnding
  | cons first rest => exact ⟨rest, rfl⟩

/-- What was asked for and taken stood at the front. -/
theorem run_expect_eq_ok (notEnding : kind ≠ .ending)
    (ran : (expect kind).run ending tokens = .ok (token, rest)) :
    token.kind = kind ∧ tokens = token :: rest := by
  obtain ⟨answer, middle, asked, taken⟩ := run_bind_eq_ok.mp ran
  obtain ⟨rfl, rfl⟩ := run_nextIs_eq_ok asked
  split at taken
  · rename_i same
    have seen : (next ending middle).kind = kind := by simpa using same
    obtain ⟨later, stands⟩ := eq_cons_of_next isEnding seen notEnding
    rw [stands, run_advance, Except.ok.injEq, Prod.mk.injEq] at taken
    obtain ⟨rfl, rfl⟩ := taken
    exact ⟨seen, stands⟩
  · exact absurd taken fail_ne_ok

/-- So did what was asked for by several kinds. -/
theorem run_expectAny_eq_ok {kinds : List Kind} (notEnding : Kind.ending ∉ kinds)
    (ran : (expectAny kinds).run ending tokens = .ok (token, rest)) :
    token.kind ∈ kinds ∧ tokens = token :: rest := by
  by_cases listed : (next ending tokens).kind ∈ kinds
  · have other : (next ending tokens).kind ≠ .ending := fun same => notEnding (same ▸ listed)
    obtain ⟨later, stands⟩ := eq_cons_of_next isEnding rfl other
    rw [stands, run_expectAny listed, Except.ok.injEq, Prod.mk.injEq] at ran
    obtain ⟨rfl, rfl⟩ := ran
    exact ⟨listed, stands⟩
  · rw [run_expectAny_other listed] at ran
    cases ran

/-- A token that is asked for and then of no further interest stood at the front. -/
theorem run_skip_eq_ok {second : Unit → Parser α} {result : α} (notEnding : kind ≠ .ending)
    (ran : (discard (expect kind) >>= second).run ending tokens = .ok (result, rest)) :
    ∃ token later, token.kind = kind ∧ tokens = token :: later ∧
      (second ()).run ending later = .ok (result, rest) := by
  obtain ⟨_, later, skipped, ran⟩ := run_bind_eq_ok.mp ran
  obtain ⟨token, expected⟩ := run_discard_eq_ok.mp skipped
  obtain ⟨same, stands⟩ := run_expect_eq_ok isEnding notEnding expected
  exact ⟨token, later, same, stands, ran⟩

/-- Either the token asked for stood at the front and was taken, or nothing was. -/
theorem run_take_eq_ok {answer : Bool} (notEnding : kind ≠ .ending)
    (ran : (take kind).run ending tokens = .ok (answer, rest)) :
    (answer = true ∧ ∃ token, token.kind = kind ∧ tokens = token :: rest) ∨
      (answer = false ∧ (next ending tokens).kind ≠ kind ∧ tokens = rest) := by
  by_cases seen : (next ending tokens).kind = kind
  · obtain ⟨later, stands⟩ := eq_cons_of_next isEnding seen notEnding
    rw [stands, run_take_same (by simpa using seen), Except.ok.injEq, Prod.mk.injEq] at ran
    obtain ⟨rfl, rfl⟩ := ran
    exact .inl ⟨rfl, _, seen, stands⟩
  · rw [run_take_other seen, Except.ok.injEq, Prod.mk.injEq] at ran
    obtain ⟨rfl, rfl⟩ := ran
    exact .inr ⟨rfl, seen, rfl⟩

/-- A token that was taken stood at the front if it is not the end marker. -/
theorem run_advance_eq_ok (ran : advance.run ending tokens = .ok (token, rest))
    (same : token.kind = kind) (notEnding : kind ≠ .ending) : tokens = token :: rest := by
  cases tokens with
  | nil =>
    rw [show advance.run ending [] = .ok (ending, []) from rfl, Except.ok.injEq,
      Prod.mk.injEq] at ran
    obtain ⟨rfl, -⟩ := ran
    exact absurd (same.symm.trans isEnding) notEnding
  | cons first later =>
    rw [run_advance, Except.ok.injEq, Prod.mk.injEq] at ran
    obtain ⟨rfl, rfl⟩ := ran
    rfl

end AtEnd

/-- Parsing ends in the report that nesting is too deep. -/
def TooDeep (parser : Parser α) (ending : Token) (tokens : List Token) : Prop :=
  ∃ token, parser.run ending tokens = .error ⟨.nestingTooDeep, token⟩

/-- A parser reads a value off the front if there is room for its levels of nesting, and otherwise
reports that nesting is too deep. -/
structure Reads (parser : Parser α) (ending : Token) (levels room : Nat) (tokens : List Token)
    (value : α) (rest : List Token) : Prop where
  fits : levels ≤ room → parser.run ending tokens = .ok (value, rest)
  exceeds : room < levels → TooDeep parser ending tokens

/-- A token that records no lexical failure lets the report about nesting through. -/
theorem tooDeep_fail (sound : Failure.of? (next ending tokens) = none) :
    TooDeep (fail .nestingTooDeep : Parser α) ending tokens := by
  refine ⟨next ending tokens, ?_⟩
  rw [run_fail, ParseError.foundAt, sound]

/-- What fails in the first step fails in the sequence. -/
theorem TooDeep.bind {first : Parser α} {second : α → Parser β}
    (tooDeep : TooDeep first ending tokens) : TooDeep (first >>= second) ending tokens := by
  obtain ⟨token, ran⟩ := tooDeep
  exact ⟨token, run_bind_error ran⟩

/-- What fails in the second step fails in the sequence. -/
theorem TooDeep.of_ok {first : Parser α} {second : α → Parser β} {value : α}
    (ran : first.run ending tokens = .ok (value, rest))
    (tooDeep : TooDeep (second value) ending rest) : TooDeep (first >>= second) ending tokens := by
  obtain ⟨token, failed⟩ := tooDeep
  exact ⟨token, (run_bind_ok ran).trans failed⟩

namespace Reads

variable {levels more room : Nat} {value : α} {result : β}

/-- A value that is there already needs no room. -/
theorem pure : Reads (Pure.pure value) ending 0 room tokens value tokens :=
  ⟨fun _ => rfl, fun impossible => absurd impossible (Nat.not_lt_zero room)⟩

/-- A step that succeeds whatever the room does not count. -/
theorem step {first : Parser α} {second : α → Parser β}
    (ran : first.run ending tokens = .ok (value, middle))
    (reads : Reads (second value) ending levels room middle result rest) :
    Reads (first >>= second) ending levels room tokens result rest :=
  ⟨fun fits => (run_bind_ok ran).trans (reads.fits fits),
    fun exceeds => .of_ok ran (reads.exceeds exceeds)⟩

/-- Two parts one after the other need the room of the one that nests deeper. -/
theorem bind {first : Parser α} {second : α → Parser β}
    (before : Reads first ending levels room tokens value middle)
    (after : Reads (second value) ending more room middle result rest) :
    Reads (first >>= second) ending (max levels more) room tokens result rest := by
  constructor
  · intro fits
    rw [run_bind_ok (before.fits (by omega)), after.fits (by omega)]
  · intro exceeds
    by_cases first : room < levels
    · exact .bind (before.exceeds first)
    · exact .of_ok (before.fits (by omega)) (after.exceeds (by omega))

/-- A value that is only wrapped up costs nothing more. -/
theorem map {parser : Parser α} {wrap : α → β}
    (reads : Reads parser ending levels room tokens value rest) :
    Reads (parser >>= fun value => Pure.pure (wrap value)) ending levels room tokens
      (wrap value) rest := by
  have both : Reads (parser >>= fun value => Pure.pure (wrap value)) ending (max levels 0) room
      tokens (wrap value) rest := reads.bind Reads.pure
  rwa [Nat.max_zero] at both

/-- A construct that takes a level itself, and fails without one, leaves one less to what is below
it. -/
theorem descend {parser : Nat → Parser α} (zero : parser 0 = fail .nestingTooDeep)
    (sound : Failure.of? (next ending tokens) = none)
    (below : ∀ room, Reads (parser (room + 1)) ending levels room tokens value rest) (room : Nat) :
    Reads (parser room) ending (levels + 1) room tokens value rest := by
  cases room with
  | zero =>
    refine ⟨fun impossible => absurd impossible (Nat.not_succ_le_zero levels), fun _ => ?_⟩
    rw [zero]
    exact tooDeep_fail sound
  | succ room =>
    exact ⟨fun fits => (below room).fits (Nat.le_of_succ_le_succ fits),
      fun exceeds => (below room).exceeds (Nat.lt_of_succ_lt_succ exceeds)⟩

end Reads

/-- A repetition goes on at a token that neither closes the list nor ends the input. -/
def GoesOn (closing : List Kind) (token : Token) : Prop :=
  token.kind ≠ .ending ∧ token.kind ∉ closing

section Repetition

variable {closing : List Kind} {close : Kind} {item : Parser α} {value : α} {values : List α}
  {levels more room : Nat}

/-- A repetition stops before a token that closes the list. -/
theorem run_manyUntil_stop (stops : ¬ GoesOn closing (next ending tokens)) :
    (manyUntil closing item).run ending tokens = .ok ([], tokens) := by
  have stopped : (next ending tokens).kind = .ending ∨ (next ending tokens).kind ∈ closing :=
    Decidable.or_iff_not_not_and_not.mpr stops
  change manyUntil closing item ending tokens = _
  rw [manyUntil]
  exact if_pos stopped

/-- A round of a repetition runs the item and goes on with what it leaves, if that is less. -/
theorem run_manyUntil (goesOn : GoesOn closing (next ending tokens)) :
    (manyUntil closing item).run ending tokens =
      match item.run ending tokens with
      | .error error => .error error
      | .ok (first, rest) =>
        if rest.length < tokens.length then
          match (manyUntil closing item).run ending rest with
          | .error error => .error error
          | .ok (later, left) => .ok (first :: later, left)
        else .ok ([first], rest) := by
  have going : ¬ ((next ending tokens).kind = .ending ∨ (next ending tokens).kind ∈ closing) :=
    not_or.mpr goesOn
  change manyUntil closing item ending tokens = _
  rw [manyUntil]
  exact if_neg going

/-- A repetition that succeeded was at its end, or it read an item and then succeeded on what that
left, if that was less. -/
theorem run_manyUntil_eq_ok
    (ran : (manyUntil closing item).run ending tokens = .ok (values, rest)) :
    (values = [] ∧ tokens = rest ∧ ¬ GoesOn closing (next ending rest)) ∨
      ∃ first later middle, values = first :: later ∧ GoesOn closing (next ending tokens) ∧
        item.run ending tokens = .ok (first, middle) ∧
        (middle.length < tokens.length →
          (manyUntil closing item).run ending middle = .ok (later, rest)) := by
  by_cases goesOn : GoesOn closing (next ending tokens)
  · rw [run_manyUntil goesOn] at ran
    split at ran
    · cases ran
    · rename_i first middle itemRan
      right
      split at ran
      · split at ran
        · cases ran
        · rename_i later left laterRan
          cases ran
          exact ⟨first, later, middle, rfl, goesOn, itemRan, fun _ => laterRan⟩
      · rename_i notShorter
        cases ran
        exact ⟨first, [], rest, rfl, goesOn, itemRan,
          fun shorter => absurd shorter notShorter⟩
  · rw [run_manyUntil_stop goesOn, Except.ok.injEq, Prod.mk.injEq] at ran
    obtain ⟨rfl, rfl⟩ := ran
    exact .inl ⟨rfl, rfl, goesOn⟩

/-- No item is read where the list is closed at once. -/
theorem Reads.manyUntil_stop (stops : ¬ GoesOn closing (next ending tokens)) :
    Reads (manyUntil closing item) ending 0 room tokens [] tokens :=
  ⟨fun _ => run_manyUntil_stop stops, fun impossible => absurd impossible (Nat.not_lt_zero room)⟩

/-- An item that takes a token is read in front of the items that follow it. -/
theorem Reads.manyUntil_step (goesOn : GoesOn closing (next ending tokens))
    (first : Reads item ending levels room tokens value middle)
    (shorter : middle.length < tokens.length)
    (later : Reads (manyUntil closing item) ending more room middle values rest) :
    Reads (manyUntil closing item) ending (max levels more) room tokens (value :: values) rest := by
  constructor
  · intro fits
    rw [run_manyUntil goesOn, first.fits (by omega)]
    simp only [shorter, if_true]
    rw [later.fits (by omega)]
  · intro exceeds
    by_cases inFirst : room < levels
    · obtain ⟨token, failed⟩ := first.exceeds inFirst
      exact ⟨token, by rw [run_manyUntil goesOn, failed]⟩
    · obtain ⟨token, failed⟩ := later.exceeds (by omega)
      refine ⟨token, ?_⟩
      rw [run_manyUntil goesOn, first.fits (by omega)]
      simp only [shorter, if_true]
      rw [failed]

/-- A comma separates two items and is taken. -/
theorem run_separator_comma (comma : token.kind = .comma) :
    (separator close).run ending (token :: rest) = .ok ((), rest) := by
  unfold separator
  rw [run_bind_ok (run_take_same comma)]
  rfl

/-- Before the closing token no comma is needed. -/
theorem run_separator_close (closes : (next ending tokens).kind = close)
    (notComma : close ≠ .comma) : (separator close).run ending tokens = .ok ((), tokens) := by
  unfold separator
  rw [run_bind_ok (run_take_other (by rwa [closes]))]
  simp only [Bool.false_eq_true, if_false]
  rw [run_bind_ok run_nextIs, closes]
  simp

/-- Behind an item stood a comma, or the token that closes the list stands there. -/
theorem run_separator_eq_ok {done : Unit} (isEnding : ending.kind = .ending)
    (ran : (separator close).run ending tokens = .ok (done, rest)) :
    (∃ token, token.kind = .comma ∧ tokens = token :: rest) ∨
      (tokens = rest ∧ (next ending rest).kind = close) := by
  obtain ⟨taken, middle, asked, behind⟩ := run_bind_eq_ok.mp ran
  rcases run_take_eq_ok isEnding (by decide) asked with ⟨rfl, token, comma, stands⟩ | ⟨rfl, -, rfl⟩
  · cases behind
    exact .inl ⟨token, comma, stands⟩
  · simp only [Bool.false_eq_true, if_false] at behind
    obtain ⟨closes, left, looked, finished⟩ := run_bind_eq_ok.mp behind
    obtain ⟨rfl, rfl⟩ := run_nextIs_eq_ok looked
    split at finished
    · rename_i same
      cases finished
      exact .inr ⟨rfl, by simpa using same⟩
    · exact absurd finished fail_ne_ok

/-- A list in brackets is empty if the bracket closes at once. -/
theorem Reads.commaList_nil (closes : (next ending tokens).kind = close) :
    Reads (commaList close item) ending 0 room tokens [] tokens := by
  refine Reads.manyUntil_stop ?_
  simp [GoesOn, closes]

/-- The last item of a list may stand without a comma. -/
theorem Reads.commaList_last (goesOn : GoesOn [close] (next ending tokens))
    (notComma : close ≠ .comma) (reads : Reads item ending levels room tokens value rest)
    (shorter : rest.length < tokens.length) (closes : (next ending rest).kind = close) :
    Reads (commaList close item) ending levels room tokens [value] rest := by
  have separated : Reads (do
      let value ← item
      separator close
      return value) ending (max levels 0) room tokens value rest :=
    reads.bind (Reads.step (run_separator_close closes notComma) Reads.pure)
  have whole :
      Reads (commaList close item) ending (max (max levels 0) 0) room tokens [value] rest :=
    Reads.manyUntil_step goesOn separated shorter (Reads.commaList_nil closes)
  rwa [Nat.max_zero, Nat.max_zero] at whole

/-- Behind an item and a comma the list goes on. -/
theorem Reads.commaList_cons (goesOn : GoesOn [close] (next ending tokens))
    (reads : Reads item ending levels room tokens value (token :: middle))
    (comma : token.kind = .comma) (shorter : middle.length < tokens.length)
    (later : Reads (commaList close item) ending more room middle values rest) :
    Reads (commaList close item) ending (max levels more) room tokens (value :: values) rest := by
  have separated : Reads (do
      let value ← item
      separator close
      return value) ending (max levels 0) room tokens value middle :=
    reads.bind (Reads.step (run_separator_comma comma) Reads.pure)
  rw [Nat.max_zero] at separated
  exact Reads.manyUntil_step goesOn separated shorter later

end Repetition

end SystemsLang.Parser
