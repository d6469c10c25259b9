import SystemsLang.Proofs.Parsing.Run

/-!
# Parsers on tokens that stand elsewhere

No parser looks at the position of a token; it only copies positions into what it builds. So with
every token moved a parser takes the same steps, and what it gives back is moved too: its value, the
tokens that are left, and the token of an error.

`Lockstep` says this of two parsers, given what their values have to do with each other. It is
closed under the primitives that parsers are put together from, repetition included. All tokens that
a parser meets come from a pool that is fixed throughout, so the lockstep says besides that an error
is reported only at a token that was there.
-/

namespace SystemsLang

/-- A token with its position moved. -/
def Token.moved (place : Position → Position) (token : Token) : Token :=
  { token with position := place token.position }

/-- A token that is moved keeps its kind. -/
theorem Token.kind_moved (place : Position → Position) (token : Token) :
    (token.moved place).kind = token.kind := rfl

/-- A token that is moved keeps its text. -/
theorem Token.text_moved (place : Position → Position) (token : Token) :
    (token.moved place).text = token.text := rfl

namespace Parser

open Token (Kind Failure)
open Syntax (ParseError)

variable {α β : Type} (place : Position → Position) (pool : Token → Prop)

/-- Two outcomes of a parser, of which the second is the first with everything moved. The tokens in
the first belong to the pool. -/
inductive Alike (related : α → α → Prop) :
    Except ParseError (α × List Token) → Except ParseError (α × List Token) → Prop
  | ok {value value' : α} {rest : List Token} (values : related value value')
      (left : ∀ token ∈ rest, pool token) :
    Alike related (.ok (value, rest)) (.ok (value', rest.map (Token.moved place)))
  | error {cause : ParseError.Cause} {token : Token} (member : pool token) :
    Alike related (.error ⟨cause, token⟩) (.error ⟨cause, token.moved place⟩)

/-- The first parser, on tokens of the pool, does what the second does when these are moved. -/
def Lockstep (related : α → α → Prop) (first second : Parser α) : Prop :=
  ∀ ending tokens, pool ending → (∀ token ∈ tokens, pool token) →
    Alike place pool related (first.run ending tokens)
      (second.run (ending.moved place) (tokens.map (Token.moved place)))

/-- A token of the pool and the same token moved. -/
inductive Twin : Token → Token → Prop
  | mk {token : Token} (member : pool token) : Twin token (token.moved place)

/-- A value and what moving makes of it. -/
inductive MovedTo (move : α → α) : α → α → Prop
  | mk {value : α} : MovedTo move value (move value)

/-- A value that is what moving makes of another. -/
theorem MovedTo.of_eq {move : α → α} {value value' : α} (same : value' = move value) :
    MovedTo move value value' :=
  same ▸ ⟨⟩

variable {place pool} {related : α → α → Prop} {related' : β → β → Prop} {first second : Parser α}

/-- Values that are related are given back with no step taken. -/
theorem lockstep_pure {value value' : α} (values : related value value') :
    Lockstep place pool related (pure value) (pure value') :=
  fun _ _ _ members => .ok values members

/-- Steps in sequence go in lockstep if the later ones do for all related values. -/
theorem Lockstep.bind {next next' : α → Parser β} (step : Lockstep place pool related first second)
    (goesOn : ∀ value value', related value value' →
      Lockstep place pool related' (next value) (next' value')) :
    Lockstep place pool related' (first >>= next) (second >>= next') := by
  intro ending tokens member members
  have alike := step ending tokens member members
  rw [run_bind, run_bind]
  generalize first.run ending tokens = outcome, second.run _ _ = outcome' at alike ⊢
  cases alike with
  | ok values left => exact goesOn _ _ values ending _ member left
  | error failed => exact .error failed

/-- A step that gives a token. -/
theorem Lockstep.token {step step' : Parser Token} {next next' : Token → Parser β}
    (steps : Lockstep place pool (Twin place pool) step step')
    (goesOn : ∀ token, pool token →
      Lockstep place pool related' (next token) (next' (token.moved place))) :
    Lockstep place pool related' (step >>= next) (step' >>= next') :=
  steps.bind fun _ _ ⟨member⟩ => goesOn _ member

/-- A step that gives a value with positions in it. -/
theorem Lockstep.value {move : α → α} {next next' : α → Parser β}
    (steps : Lockstep place pool (MovedTo move) first second)
    (goesOn : ∀ value, Lockstep place pool related' (next value) (next' (move value))) :
    Lockstep place pool related' (first >>= next) (second >>= next') :=
  steps.bind fun _ _ ⟨⟩ => goesOn _

/-- A step that gives an answer in which there are no positions. -/
theorem Lockstep.answer {next next' : α → Parser β} (steps : Lockstep place pool Eq first second)
    (goesOn : ∀ answer, Lockstep place pool related' (next answer) (next' answer)) :
    Lockstep place pool related' (first >>= next) (second >>= next') := by
  refine steps.bind ?_
  rintro answer _ rfl
  exact goesOn answer

/-- A choice that does not depend on positions goes the same way. -/
theorem Lockstep.ite {condition : Prop} [Decidable condition] {first' second' : Parser α}
    (yes : Lockstep place pool related first first')
    (no : Lockstep place pool related second second') :
    Lockstep place pool related (if condition then first else second)
      (if condition then first' else second') := by
  split
  · exact yes
  · exact no

/-- What a failure is reported as depends on the kind and the text of the token only. -/
theorem foundAt_moved (place : Position → Position) (token : Token) (cause : ParseError.Cause) :
    ∃ found, ParseError.foundAt token cause = ⟨found, token⟩ ∧
      ParseError.foundAt (token.moved place) cause = ⟨found, token.moved place⟩ := by
  have same : Failure.of? (token.moved place) = Failure.of? token := rfl
  unfold ParseError.foundAt
  rw [same]
  split
  · exact ⟨_, rfl, rfl⟩
  · exact ⟨_, rfl, rfl⟩

/-- A failure at a token of the pool moves with the token. -/
theorem lockstep_failAt {token token' : Token} (cause : ParseError.Cause)
    (twin : Twin place pool token token') :
    Lockstep place pool related (failAt token cause) (failAt token' cause) := by
  intro ending tokens _ _
  obtain ⟨member⟩ := twin
  obtain ⟨found, here, there⟩ := foundAt_moved place token cause
  rw [run_failAt, run_failAt, here, there]
  exact .error member

/-- A look ahead sees the same token moved, or the end marker moved. -/
theorem lockstep_peekAt (distance : Nat) :
    Lockstep place pool (Twin place pool) (peekAt distance) (peekAt distance) := by
  intro ending tokens member members
  rw [run_peekAt, run_peekAt, List.getElem?_map]
  cases found : tokens[distance]? with
  | none => exact .ok ⟨member⟩ members
  | some token => exact .ok ⟨members token (List.mem_of_getElem? found)⟩ members

/-- The next token is the same one moved. -/
theorem lockstep_peek : Lockstep place pool (Twin place pool) peek peek :=
  lockstep_peekAt 0

/-- The token that is taken is the same one moved. -/
theorem lockstep_advance : Lockstep place pool (Twin place pool) advance advance := by
  intro ending tokens member members
  cases tokens with
  | nil => exact .ok ⟨member⟩ members
  | cons token rest =>
    obtain ⟨here, later⟩ := List.forall_mem_cons.mp members
    exact .ok ⟨here⟩ later

/-- A failure at the next token moves with it. -/
theorem lockstep_fail (cause : ParseError.Cause) :
    Lockstep place pool related (fail cause) (fail cause) :=
  lockstep_peek.bind fun _ _ => lockstep_failAt cause

/-- The kind of the next token is the same. -/
theorem lockstep_nextIs (kind : Kind) : Lockstep place pool Eq (nextIs kind) (nextIs kind) :=
  lockstep_peek.token fun _ _ => lockstep_pure rfl

/-- Where the value is discarded it need not be compared. -/
theorem lockstep_discard (step : Lockstep place pool related first second) :
    Lockstep place pool Eq (discard first) (discard second) :=
  step.bind fun _ _ _ => lockstep_pure rfl

/-- A token that may be there is there in both or in none. -/
theorem lockstep_take (kind : Kind) : Lockstep place pool Eq (take kind) (take kind) :=
  (lockstep_nextIs kind).answer fun _ =>
    .ite ((lockstep_discard lockstep_advance).answer fun _ => lockstep_pure rfl)
      (lockstep_pure rfl)

/-- An expected token is found in both or missing in both. -/
theorem lockstep_expect (kind : Kind) :
    Lockstep place pool (Twin place pool) (expect kind) (expect kind) :=
  (lockstep_nextIs kind).answer fun _ => .ite lockstep_advance (lockstep_fail _)

/-- The same for a token of several kinds. -/
theorem lockstep_expectAny (kinds : List Kind) :
    Lockstep place pool (Twin place pool) (expectAny kinds) (expectAny kinds) := by
  refine lockstep_peek.token fun token _ => ?_
  rw [Token.kind_moved]
  exact .ite lockstep_advance (lockstep_fail _)

/-- A token that is asked for and of no further interest. -/
theorem lockstep_skip (kind : Kind) :
    Lockstep place pool Eq (discard (expect kind)) (discard (expect kind)) :=
  lockstep_discard (lockstep_expect kind)

section Repetition

variable {move : α → α} {item item' : Parser α}

/-- Whether a repetition goes on does not depend on positions. -/
theorem goesOn_moved (closing : List Kind) (ending : Token) (tokens : List Token) :
    GoesOn closing (next (ending.moved place) (tokens.map (Token.moved place))) ↔
      GoesOn closing (next ending tokens) := by
  cases tokens <;> rfl

/-- A repetition is in lockstep if its item is. -/
theorem lockstep_manyUntil (closing : List Kind)
    (step : Lockstep place pool (MovedTo move) item item') :
    Lockstep place pool (MovedTo (List.map move)) (manyUntil closing item)
      (manyUntil closing item') := by
  intro ending tokens member members
  induction size : tokens.length using Nat.strongRecOn generalizing tokens with
  | _ size inductionHypothesis =>
  by_cases goesOn : GoesOn closing (next ending tokens)
  · have alike := step ending tokens member members
    rw [run_manyUntil goesOn, run_manyUntil ((goesOn_moved closing ending tokens).mpr goesOn),
      List.length_map]
    generalize item.run ending tokens = outcome, item'.run _ _ = outcome' at alike ⊢
    cases alike with
    | error failed => exact .error failed
    | @ok value _ rest values left =>
      obtain ⟨⟩ := values
      simp only [List.length_map]
      split
      · rename_i shorter
        have alike := inductionHypothesis rest.length (size ▸ shorter) rest left rfl
        generalize (manyUntil closing item).run ending rest = outcome,
          (manyUntil closing item').run _ _ = outcome' at alike ⊢
        cases alike with
        | error failed => exact .error failed
        | ok values left =>
          obtain ⟨⟩ := values
          exact .ok ⟨⟩ left
      · exact .ok ⟨⟩ left
  · rw [run_manyUntil_stop goesOn,
      run_manyUntil_stop (mt (goesOn_moved closing ending tokens).mp goesOn)]
    exact .ok ⟨⟩ members

/-- What separates the items of a list has no position. -/
theorem lockstep_separator (closing : Kind) :
    Lockstep place pool Eq (separator closing) (separator closing) :=
  (lockstep_take _).answer fun _ =>
    .ite (lockstep_pure rfl) ((lockstep_nextIs _).answer fun _ =>
      .ite (lockstep_pure rfl) (lockstep_fail _))

/-- A list moves with its items. -/
theorem lockstep_commaList (closing : Kind)
    (step : Lockstep place pool (MovedTo move) item item') :
    Lockstep place pool (MovedTo (List.map move)) (commaList closing item)
      (commaList closing item') :=
  lockstep_manyUntil _ (step.value fun _ =>
    (lockstep_separator closing).answer fun _ => lockstep_pure ⟨⟩)

/-- A part that may be left out moves if it is there. -/
theorem lockstep_optionalAfter (kind : Kind)
    (step : Lockstep place pool (MovedTo move) item item') :
    Lockstep place pool (MovedTo (Option.map move)) (optionalAfter kind item)
      (optionalAfter kind item') :=
  (lockstep_take kind).answer fun _ =>
    .ite (step.value fun _ => lockstep_pure ⟨⟩) (lockstep_pure ⟨⟩)

end Repetition

end Parser

end SystemsLang
