import SystemsLang.Proofs.Parsing.Settled
import SystemsLang.Proofs.Parsing.Walk

/-!
# Walks that do what parsers do

A walk tracks a parser if it ends as the parser does wherever it starts with a certain number of
levels around it: with the same value in front of the same tokens, or with the same error. It is
never cut off. On the way it takes at least a given number of tokens, none of which is an end
marker, and goes no deeper than the limit; and if it ends with a value, a known number of levels is
around it.

`Tracks` is closed under the ways walks and parsers are put together. A sequence takes the tokens
that its parts take, so a part that takes one lets the whole take one, and for this reason alone no
loop goes round more often than there are tokens (`Tracks.manyUntil`).
-/

namespace SystemsLang

open Token (Kind endingOf)
open Syntax (ParseError maxDepth)
open SystemsLang.Parser (next eq_cons_of_next GoesOn)

/-- The end marker that belongs to a list is one. -/
theorem Token.kind_endingOf (tokens : List Token) : (endingOf tokens).kind = .ending :=
  rfl

namespace Walk

variable {α β : Type} {tokens rest : List Token} {before after : Standing}
  {depth middle final least more place : Nat}

/-- What is left behind at least the given number of tokens, none of which is an end marker. -/
def Passes (least : Nat) (tokens rest : List Token) : Prop :=
  ∃ taken, tokens = taken ++ rest ∧ least ≤ taken.length ∧ ∀ token ∈ taken, token.kind ≠ .ending

namespace Passes

/-- Nothing has been taken where the tokens are the same. -/
theorem none (tokens : List Token) : Passes 0 tokens tokens :=
  ⟨[], rfl, Nat.le_refl 0, by simp⟩

/-- A token that is no end marker may be taken. -/
theorem one {token : Token} (usable : token.kind ≠ .ending) : Passes 1 (token :: rest) rest :=
  ⟨[token], rfl, Nat.le_refl 1, by simpa using usable⟩

/-- What is taken in two parts is taken together. -/
theorem trans {later : List Token} (first : Passes least tokens rest)
    (second : Passes more rest later) : Passes (least + more) tokens later := by
  obtain ⟨taken, rfl, enough, usable⟩ := first
  obtain ⟨behind, rfl, enoughBehind, usableBehind⟩ := second
  refine ⟨taken ++ behind, (List.append_assoc taken behind later).symm, ?_, ?_⟩
  · rw [List.length_append]
    omega
  · intro token member
    exact (List.mem_append.mp member).elim (usable token) (usableBehind token)

/-- The tokens that are taken need not be counted. -/
theorem any (passes : Passes least tokens rest) : Passes 0 tokens rest := by
  obtain ⟨taken, stands, -, usable⟩ := passes
  exact ⟨taken, stands, Nat.zero_le taken.length, usable⟩

/-- There are fewer tokens left, by as many as were taken at least. -/
theorem length_le (passes : Passes least tokens rest) : rest.length + least ≤ tokens.length := by
  obtain ⟨taken, rfl, enough, -⟩ := passes
  rw [List.length_append]
  omega

/-- The tokens left are found by counting those of the whole list. -/
theorem drop_eq (passes : Passes least (tokens.drop place) rest) :
    tokens.drop (tokens.length - rest.length) = rest := by
  obtain ⟨taken, stands, -, -⟩ := passes
  have suffix : rest <:+ tokens := ⟨tokens.take place ++ taken, by
    rw [List.append_assoc, ← stands, List.take_append_drop]⟩
  exact (List.suffix_iff_eq_drop.mp suffix).symm

/-- A place behind tokens that have been passed is that much further, and between the two places
there is no end marker. -/
theorem places (passes : Passes least (tokens.drop place) (tokens.drop after.place))
    (inside : place ≤ tokens.length) (within : after.place ≤ tokens.length) :
    place + least ≤ after.place ∧
      ∀ token ∈ (tokens.drop place).take (after.place - place), token.kind ≠ .ending := by
  obtain ⟨taken, stands, enough, usable⟩ := passes
  have lengths := congrArg List.length stands
  rw [List.length_append, List.length_drop, List.length_drop] at lengths
  have same : after.place - place = taken.length := by omega
  constructor
  · omega
  · rw [same, stands, List.take_left]
    exact usable

end Passes

/-- A machine that may start: it stands in the list or at its end, with the given number of levels
around it, and has not been too deep. -/
structure Standing.Ready (tokens : List Token) (depth : Nat) (before : Standing) : Prop where
  within : before.place ≤ tokens.length
  level : before.depth = depth
  shallow : before.deepest ≤ maxDepth

/-- A walk from a place ends as a parser does. There is no way for it to be cut off. -/
inductive Agrees (tokens : List Token) (least place final : Nat) :
    Outcome α → Except ParseError (α × List Token) → Prop
  | returned {value : α} {after : Standing}
      (passes : Passes least (tokens.drop place) (tokens.drop after.place))
      (ready : after.Ready tokens final) :
    Agrees tokens least place final (.returned value after) (.ok (value, tokens.drop after.place))
  | failed {error : ParseError} {last : Standing} (shallow : last.deepest ≤ maxDepth) :
    Agrees tokens least place final (.failed error last) (.error error)

/-- A walk that starts with one number of levels around it ends as a parser does, with a value only
if another number of levels is around it then. -/
def Tracks (depth final least : Nat) (walk : Walk α) (parser : Parser α) : Prop :=
  ∀ tokens (before : Standing), before.Ready tokens depth →
    Agrees tokens least before.place final (walk.run tokens before)
      (parser.run (endingOf tokens) (tokens.drop before.place))

section Sequences

variable {walk first : Walk α} {parser parser' : Parser α} {second : α → Walk β}
  {goesOn : α → Parser β}

/-- A walk that goes on from a further place agrees from the earlier place too, with the tokens in
between added to those it takes. -/
theorem Agrees.since {outcome : Outcome α} {result : Except ParseError (α × List Token)}
    {further : Nat} (passes : Passes least (tokens.drop place) (tokens.drop further))
    (agrees : Agrees tokens more further final outcome result) :
    Agrees tokens (least + more) place final outcome result := by
  cases agrees with
  | returned later ready => exact .returned (passes.trans later) ready
  | failed shallow => exact .failed shallow

/-- Sequences agree if the first parts do and the second parts track one another; what both parts
take adds up. -/
theorem Agrees.bind_add
    (agrees : Agrees tokens least before.place middle (first.run tokens before)
      (parser.run (endingOf tokens) (tokens.drop before.place)))
    (tracks : ∀ value, Tracks middle final more (second value) (goesOn value)) :
    Agrees tokens (least + more) before.place final ((first >>= second).run tokens before)
      ((parser >>= goesOn).run (endingOf tokens) (tokens.drop before.place)) := by
  rw [Parser.run_bind, run_bind]
  generalize first.run tokens before = outcome,
    parser.run (endingOf tokens) (tokens.drop before.place) = result at agrees ⊢
  cases agrees with
  | returned passes ready => exact (tracks _ tokens _ ready).since passes
  | failed shallow => exact .failed shallow

/-- A sequence takes what its first part takes. -/
theorem Agrees.bind
    (agrees : Agrees tokens least before.place middle (first.run tokens before)
      (parser.run (endingOf tokens) (tokens.drop before.place)))
    (tracks : ∀ value, Tracks middle final 0 (second value) (goesOn value)) :
    Agrees tokens least before.place final ((first >>= second).run tokens before)
      ((parser >>= goesOn).run (endingOf tokens) (tokens.drop before.place)) :=
  agrees.bind_add tracks

/-- Where it does not matter how much is taken. -/
theorem Agrees.any {outcome : Outcome α} {result : Except ParseError (α × List Token)}
    (agrees : Agrees tokens least place final outcome result) :
    Agrees tokens 0 place final outcome result := by
  cases agrees with
  | returned passes ready => exact .returned passes.any ready
  | failed shallow => exact .failed shallow

/-- The tokens that a walk takes need not be counted. -/
theorem Tracks.any (tracks : Tracks depth final least walk parser) :
    Tracks depth final 0 walk parser :=
  fun tokens before ready => (tracks tokens before ready).any

/-- A sequence takes at least what its first part takes. -/
theorem Tracks.bind (tracks : Tracks depth middle least first parser)
    (later : ∀ value, Tracks middle final 0 (second value) (goesOn value)) :
    Tracks depth final least (first >>= second) (parser >>= goesOn) :=
  fun tokens before ready => (tracks tokens before ready).bind later

/-- A sequence takes what its second part takes. -/
theorem Tracks.step (tracks : Tracks depth middle 0 first parser)
    (later : ∀ value, Tracks middle final least (second value) (goesOn value)) :
    Tracks depth final least (first >>= second) (parser >>= goesOn) := by
  intro tokens before ready
  have agrees := (tracks tokens before ready).bind_add later
  rwa [Nat.zero_add] at agrees

/-- A choice that does not depend on the tokens is the same for walk and parser. -/
theorem Tracks.ite {condition : Prop} [Decidable condition] {other : Walk α}
    (yes : Tracks depth final least walk parser) (no : Tracks depth final least other parser') :
    Tracks depth final least (if condition then walk else other)
      (if condition then parser else parser') := by
  by_cases holds : condition
  · rw [if_pos holds, if_pos holds]
    exact yes
  · rw [if_neg holds, if_neg holds]
    exact no

/-- A value is given back with no token taken. -/
theorem tracks_pure (value : α) : Tracks depth depth 0 (pure value) (pure value) :=
  fun tokens before ready => .returned (.none (tokens.drop before.place)) ready

/-- What a walk gives back may be wrapped. -/
theorem Tracks.map {wrap : α → β} (tracks : Tracks depth final least walk parser) :
    Tracks depth final least (do return wrap (← walk)) (do return wrap (← parser)) :=
  tracks.bind fun value => tracks_pure (wrap value)

end Sequences

section Tokens

variable {parser : Parser α} {walk : Token → Walk α} {goesOn : Token → Parser α} {kind : Kind}

/-- What a walk reads is decided by the tokens from its place on, and only its place changes. -/
theorem run_read :
    (read parser).run tokens before =
      match parser.run (endingOf tokens) (tokens.drop before.place) with
      | .ok (value, rest) => .returned value (before.atPlace (tokens.length - rest.length))
      | .error error => .failed error before := rfl

/-- A walk that does what a parser does with the tokens ahead agrees with it if tokens are taken
from the front only and none is an end marker. -/
theorem agrees_read (ready : before.Ready tokens depth)
    (passes : ∀ value rest,
      parser.run (endingOf tokens) (tokens.drop before.place) = .ok (value, rest) →
        Passes least (tokens.drop before.place) rest) :
    Agrees tokens least before.place depth ((read parser).run tokens before)
      (parser.run (endingOf tokens) (tokens.drop before.place)) := by
  rw [run_read]
  cases ran : parser.run (endingOf tokens) (tokens.drop before.place) with
  | error error => exact .failed ready.shallow
  | ok result =>
    obtain ⟨value, rest⟩ := result
    have passed := passes value rest ran
    have stands := passed.drop_eq
    have inside : tokens.length - rest.length ≤ tokens.length := Nat.sub_le _ _
    let after := before.atPlace (tokens.length - rest.length)
    have agrees : Agrees tokens least before.place depth (.returned value after)
        (.ok (value, tokens.drop after.place)) := by
      refine .returned ?_ ⟨inside, ready.level, ready.shallow⟩
      rwa [show tokens.drop after.place = rest from stands]
    rwa [show tokens.drop after.place = rest from stands] at agrees

/-- A parser takes at least so many tokens from the front, none of which is an end marker. -/
def Takes (least : Nat) (parser : Parser α) : Prop :=
  ∀ ending tokens value rest, ending.kind = .ending →
    parser.run ending tokens = .ok (value, rest) → Passes least tokens rest

/-- A parser that takes tokens from the front is tracked by the walk that reads with it. -/
theorem Takes.read (takes : Takes least parser) :
    Tracks depth depth least (read parser) parser :=
  fun tokens _ ready => agrees_read ready fun value rest ran =>
    takes (endingOf tokens) _ value rest (Token.kind_endingOf tokens) ran

/-- Discarding the value of a parser takes no more and no fewer tokens. -/
theorem Takes.discard (takes : Takes least parser) : Takes least (discard parser) := by
  intro ending tokens value rest isEnding ran
  obtain ⟨inner, ran⟩ := Parser.run_discard_eq_ok.mp ran
  exact takes ending tokens inner rest isEnding ran

/-- Wrapping the value of a parser takes no more and no fewer tokens. -/
theorem Takes.map {wrap : α → β} (takes : Takes least parser) :
    Takes least (do return wrap (← parser)) := by
  intro ending tokens value rest isEnding ran
  obtain ⟨inner, ran, -⟩ := Parser.run_map_eq_ok.mp ran
  exact takes ending tokens inner rest isEnding ran

/-- A parser that settles takes usable tokens from the front. -/
theorem takes_of_settling (settling : Parser.Settling parser) : Takes 0 parser := by
  intro ending tokens value rest isEnding ran
  cases settling ending tokens isEnding with
  | ok value' taken within usable again =>
    have same := (again ending tokens (.refl isEnding _ tokens)).symm.trans ran
    rw [Except.ok.injEq, Prod.mk.injEq] at same
    obtain ⟨-, rfl⟩ := same
    exact ⟨tokens.take taken, (List.take_append_drop taken tokens).symm, Nat.zero_le _,
      fun token member => (usable token member).1⟩
  | error cause place within usable structural again =>
    have same := (again ending tokens (.refl isEnding _ tokens)).symm.trans ran
    cases same

/-- A parser that only looks ahead takes nothing. -/
theorem takes_of_stays
    (stays : ∀ ending tokens value rest, parser.run ending tokens = .ok (value, rest) →
      rest = tokens) : Takes 0 parser := by
  intro ending tokens value rest _ ran
  rw [stays ending tokens value rest ran]
  exact .none tokens

/-- A parser that fails takes as many tokens as one likes, since there is no value behind them. -/
theorem takes_fail {cause : ParseError.Cause} : Takes least (Parser.fail cause : Parser α) :=
  fun _ _ _ _ _ ran => absurd ran Parser.fail_ne_ok

/-- The same for a parser that fails at a given token. -/
theorem takes_failAt {token : Token} {cause : ParseError.Cause} :
    Takes least (Parser.failAt token cause : Parser α) :=
  fun _ _ _ _ _ ran => absurd ran Parser.failAt_ne_ok

/-- A token of an expected kind is taken unless that kind is the end marker. -/
theorem takes_expect (notEnding : kind ≠ .ending) : Takes 1 (Parser.expect kind) := by
  intro ending tokens token rest isEnding ran
  obtain ⟨rfl, rfl⟩ := Parser.run_expect_eq_ok isEnding notEnding ran
  exact .one notEnding

/-- A token of several expected kinds is taken unless the end marker is among them. -/
theorem takes_expectAny {kinds : List Kind} (notEnding : Kind.ending ∉ kinds) :
    Takes 1 (Parser.expectAny kinds) := by
  intro ending tokens token rest isEnding ran
  obtain ⟨listed, rfl⟩ := Parser.run_expectAny_eq_ok isEnding notEnding ran
  exact .one fun same => notEnding (same ▸ listed)

/-- A token that has to stand there and is of no further interest. -/
theorem tracks_skip (notEnding : kind ≠ .ending) :
    Tracks depth depth 1 (read (discard (.expect kind))) (discard (.expect kind)) :=
  (takes_expect notEnding).discard.read

/-- A token that may be there is taken if it is. -/
theorem tracks_take (usable : kind.Usable) :
    Tracks depth depth 0 (read (.take kind)) (.take kind) :=
  (takes_of_settling (Parser.settling_take usable)).read

/-- A look at the kind of the next token takes nothing. -/
theorem tracks_nextIs : Tracks depth depth 0 (read (.nextIs kind)) (.nextIs kind) :=
  (takes_of_stays fun _ _ _ _ ran => (Parser.run_nextIs_eq_ok ran).2).read

/-- A look ahead moves nothing. -/
theorem run_read_ahead {value : α} (within : before.place ≤ tokens.length)
    (ran : parser.run (endingOf tokens) (tokens.drop before.place) =
      .ok (value, tokens.drop before.place)) :
    (read parser).run tokens before = .returned value before := by
  have back : tokens.length - (tokens.drop before.place).length = before.place := by
    rw [List.length_drop]
    omega
  rw [run_read, ran]
  simp only [back]
  rfl

/-- A look at the next token leaves the walk where it is. -/
theorem run_read_peek (within : before.place ≤ tokens.length) :
    (read .peek).run tokens before =
      .returned (next (endingOf tokens) (tokens.drop before.place)) before :=
  run_read_ahead within Parser.run_peek

/-- What follows a look at the next token has to agree where that token is the next one. -/
theorem Tracks.peek
    (later : ∀ tokens (before : Standing), before.Ready tokens depth →
      Agrees tokens least before.place final
        ((walk (next (endingOf tokens) (tokens.drop before.place))).run tokens before)
        ((goesOn (next (endingOf tokens) (tokens.drop before.place))).run (endingOf tokens)
          (tokens.drop before.place))) :
    Tracks depth final least (read .peek >>= walk) (.peek >>= goesOn) := by
  intro tokens before ready
  have agrees := later tokens before ready
  rw [Parser.run_bind_ok Parser.run_peek, run_bind, run_read_peek ready.within]
  exact agrees

/-- A walk that advances gives the next token and stands behind it, or stays at the end. -/
theorem run_read_advance :
    (read .advance).run tokens before =
      .returned (next (endingOf tokens) (tokens.drop before.place))
        (before.atPlace (tokens.length - (tokens.drop before.place).tail.length)) := by
  rw [run_read, Parser.run_advance_next]

/-- A token other than an end marker is taken. -/
theorem Agrees.advance (ready : before.Ready tokens depth)
    (notEnding : (next (endingOf tokens) (tokens.drop before.place)).kind ≠ .ending)
    (later : Tracks depth final 0 (walk (next (endingOf tokens) (tokens.drop before.place)))
      (goesOn (next (endingOf tokens) (tokens.drop before.place)))) :
    Agrees tokens 1 before.place final ((read .advance >>= walk).run tokens before)
      ((Parser.advance >>= goesOn).run (endingOf tokens) (tokens.drop before.place)) := by
  obtain ⟨others, stands⟩ := eq_cons_of_next (Token.kind_endingOf tokens) rfl notEnding
  have passes : Passes 1 (tokens.drop before.place) (tokens.drop before.place).tail := by
    rw [stands]
    exact .one notEnding
  let after := before.atPlace (tokens.length - (tokens.drop before.place).tail.length)
  have behind : tokens.drop after.place = (tokens.drop before.place).tail := passes.drop_eq
  have ready : after.Ready tokens depth := ⟨Nat.sub_le _ _, ready.level, ready.shallow⟩
  have agrees := (later tokens after ready).since (behind.symm ▸ passes)
  rw [behind] at agrees
  rw [run_bind, run_read_advance, Parser.run_bind_ok Parser.run_advance_next]
  exact agrees

/-- A token that has been looked at is taken. -/
theorem Agrees.skip {second : Unit → Walk β} {behind : Unit → Parser β}
    (ready : before.Ready tokens depth)
    (seen : (next (endingOf tokens) (tokens.drop before.place)).kind = kind)
    (notEnding : kind ≠ .ending) (later : Tracks depth final 0 (second ()) (behind ())) :
    Agrees tokens 1 before.place final ((read (discard .advance) >>= second).run tokens before)
      ((discard .advance >>= behind).run (endingOf tokens) (tokens.drop before.place)) :=
  Agrees.bind (agrees_read ready fun _ _ ran => by
    obtain ⟨token, ran⟩ := Parser.run_discard_eq_ok.mp ran
    obtain ⟨others, stands⟩ := eq_cons_of_next (Token.kind_endingOf tokens) seen notEnding
    rw [stands, Parser.run_advance, Except.ok.injEq, Prod.mk.injEq] at ran
    obtain ⟨-, rfl⟩ := ran
    rw [stands]
    exact .one (seen ▸ notEnding)) fun _ => later

/-- A token is taken unseen if what follows fails at an end marker. -/
theorem Tracks.advance
    (fails : ∀ token : Token, token.kind = .ending →
      ∃ cause, walk token = read (.failAt token cause) ∧ goesOn token = .failAt token cause)
    (later : ∀ token, Tracks depth final 0 (walk token) (goesOn token)) :
    Tracks depth final 1 (read .advance >>= walk) (.advance >>= goesOn) := by
  intro tokens before ready
  by_cases ends : (next (endingOf tokens) (tokens.drop before.place)).kind = .ending
  · obtain ⟨cause, walks, goes⟩ := fails _ ends
    rw [run_bind, run_read_advance, Parser.run_bind_ok Parser.run_advance_next]
    simp only [walks, goes]
    exact .failed ready.shallow
  · exact .advance ready ends (later _)

end Tokens

section Levels

variable {walk : Walk α} {parser : Parser α} {goesOn : Nat → Walk α}

/-- At the limit no level is entered. -/
theorem run_enter_full (full : ¬ before.depth < maxDepth) :
    enter.run tokens before = (read (.fail .nestingTooDeep)).run tokens before := by
  change (if before.depth < maxDepth then _ else read (.fail .nestingTooDeep) : Walk Nat).run
    tokens before = _
  rw [if_neg full]

/-- Below the limit a level is entered without a look at any token. -/
theorem run_enter_below (below : before.depth < maxDepth) :
    enter.run tokens before = .returned before.depth (before.atDepth (before.depth + 1)) := by
  change (if before.depth < maxDepth then _ else read (.fail .nestingTooDeep) : Walk Nat).run
    tokens before = _
  rw [if_pos below]
  rfl

/-- With all levels around it a construct fails before it looks at a token. -/
theorem tracks_enter_full :
    Tracks maxDepth final least (enter >>= goesOn) (.fail .nestingTooDeep) := by
  intro tokens before ready
  have full : ¬ before.depth < maxDepth := by
    rw [ready.level]
    exact Nat.lt_irrefl maxDepth
  rw [run_bind, run_enter_full full, run_read, Parser.run_fail, Parser.run_fail]
  exact .failed ready.shallow

/-- Where there is room for a level, what is inside agrees as soon as it does one level deeper. -/
theorem Agrees.enter (ready : before.Ready tokens depth) (below : depth < maxDepth)
    (later : ∀ {inside : Standing}, inside.place = before.place →
      inside.Ready tokens (depth + 1) →
        Agrees tokens least before.place final ((goesOn depth).run tokens inside)
          (parser.run (endingOf tokens) (tokens.drop before.place))) :
    Agrees tokens least before.place final ((enter >>= goesOn).run tokens before)
      (parser.run (endingOf tokens) (tokens.drop before.place)) := by
  have belowToo : before.depth < maxDepth := ready.level ▸ below
  rw [run_bind, run_enter_below belowToo, ready.level]
  exact later rfl ⟨ready.within, rfl, Nat.max_le.mpr ⟨ready.shallow, below⟩⟩

/-- Where there is room for a level, what is inside has to track the parser one level deeper. -/
theorem Tracks.enter (below : depth < maxDepth)
    (later : Tracks (depth + 1) final least (goesOn depth) parser) :
    Tracks depth final least (enter >>= goesOn) parser := by
  intro tokens before ready
  refine .enter ready below fun {inside} same readyInside => ?_
  rw [← same]
  exact later tokens inside readyInside

/-- Levels are given back without a look at any token. -/
theorem tracks_leave {value : α} (within : final ≤ maxDepth) :
    Tracks depth final 0 (do setDepth final; return value) (pure value) :=
  fun tokens before ready => .returned (.none (tokens.drop before.place))
    ⟨ready.within, rfl, Nat.max_le.mpr ⟨ready.shallow, within⟩⟩

/-- A construct that nests tracks a parser for which there is room for one level less inside. -/
theorem Tracks.inLevel {parser : Nat → Parser α} {room : Nat} (limit : depth + room = maxDepth)
    (full : parser 0 = .fail .nestingTooDeep)
    (inside : ∀ lower, room = lower + 1 →
      Tracks (depth + 1) (depth + 1) least walk (parser (lower + 1))) :
    Tracks depth depth least (inLevel walk) (parser room) := by
  cases room with
  | zero =>
    rw [full]
    exact (Nat.add_zero depth).symm.trans limit ▸ tracks_enter_full
  | succ lower =>
    have below : depth < maxDepth := by omega
    have body : Tracks (depth + 1) depth least (do
        let value ← walk
        setDepth depth
        return value) (parser (lower + 1) >>= pure) :=
      (inside lower rfl).bind fun value => tracks_leave (Nat.le_of_lt below)
    rw [bind_pure] at body
    exact .enter below body

end Levels

section Loops

variable {item : Walk α} {parser : Parser α} {kind : Kind}

/-- A loop whose items take a token tracks the repetition, within one round more than there are
tokens ahead.

Proof: by induction on the rounds. Each leaves fewer tokens ahead to the rounds behind it, and one
is left for the look at what closes the list. -/
theorem Tracks.manyWithin (closing : List Kind) (tracks : Tracks depth depth 1 item parser)
    {rounds : Nat} (ready : before.Ready tokens depth)
    (enough : (tokens.drop before.place).length < rounds) :
    Agrees tokens 0 before.place depth ((manyWithin closing item rounds).run tokens before)
      ((Parser.manyUntil closing parser).run (endingOf tokens) (tokens.drop before.place)) := by
  induction rounds generalizing before with
  | zero => exact absurd enough (Nat.not_lt_zero _)
  | succ rounds inductionHypothesis =>
    unfold Walk.manyWithin
    rw [run_bind, run_read_peek ready.within]
    by_cases goesOn : GoesOn closing (next (endingOf tokens) (tokens.drop before.place))
    · simp only [if_neg (not_or.mpr goesOn)]
      rw [run_bind, Parser.run_manyUntil goesOn]
      have agrees := tracks tokens before ready
      generalize item.run tokens before = outcome,
        parser.run (endingOf tokens) (tokens.drop before.place) = result at agrees ⊢
      cases agrees with
      | failed shallow => exact .failed shallow
      | @returned value after passes readyAfter =>
        have shorter : (tokens.drop after.place).length < (tokens.drop before.place).length :=
          passes.length_le
        have later := inductionHypothesis readyAfter (by omega)
        simp only [shorter, if_true]
        rw [run_bind]
        generalize (Walk.manyWithin closing item rounds).run tokens after = outcome,
          (Parser.manyUntil closing parser).run (endingOf tokens)
            (tokens.drop after.place) = result at later ⊢
        cases later with
        | failed shallow => exact .failed shallow
        | returned passesLater readyLast =>
          exact .returned (passes.trans passesLater).any readyLast
    · simp only [if_pos (Decidable.or_iff_not_not_and_not.mpr goesOn)]
      rw [Parser.run_manyUntil_stop goesOn]
      exact .returned (.none _) ready

/-- A loop tracks the repetition of what its item tracks, if each item takes a token. -/
theorem Tracks.manyUntil (closing : List Kind) (tracks : Tracks depth depth 1 item parser) :
    Tracks depth depth 0 (manyUntil closing item) (.manyUntil closing parser) := by
  intro tokens before ready
  refine tracks.manyWithin closing ready ?_
  rw [List.length_drop]
  omega

/-- A list up to a closing token, with commas between its items, is tracked if an item is. -/
theorem Tracks.commaList (closing : Kind) (tracks : Tracks depth depth 1 item parser) :
    Tracks depth depth 0 (commaList closing item) (.commaList closing parser) :=
  .manyUntil [closing] (tracks.bind fun _ =>
    (takes_of_settling (Parser.settling_separator closing)).read.bind fun _ => tracks_pure _)

/-- What may follow a token of a certain kind is tracked if it is where that token stands. -/
theorem Tracks.optionalAfter (usable : kind.Usable)
    (tracks : Tracks depth depth least item parser) :
    Tracks depth depth 0 (optionalAfter kind item) (.optionalAfter kind parser) :=
  (tracks_take usable).bind fun _ => .ite tracks.any.map (tracks_pure none)

end Loops

end Walk

end SystemsLang
