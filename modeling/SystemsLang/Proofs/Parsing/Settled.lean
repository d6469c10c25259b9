import SystemsLang.Proofs.Parsing.Run

/-!
# How far a parser looks

A parser ends with a value behind the tokens it has taken, or with an error at some token. Either
way the outcome is settled by the tokens up to just past there: one token more than the one behind
those taken, or than the one in the error, may be looked at, and no other. On the way only tokens
are taken that can belong to a program, so a lexical failure and an end marker stop every parser.
What stands behind an end marker makes no difference at all (`SameAhead`), even where a parser looks
at it.

`Settles` says this of a parser on given tokens. Its main law is `Settles.after`: a parser that
takes some tokens and then does what another parser does settles if that one does. From it come the
laws of sequences and of repetition, so each parser of the grammar settles because its parts do.
-/

namespace SystemsLang

open Token (Kind Failure)
open Syntax (ParseError)

/-- Tokens of the kind can belong to a program: they neither end the input nor record a lexical
failure. -/
def Token.Kind.Usable (kind : Kind) : Prop :=
  kind ≠ .ending ∧ kind.isFailure = false

instance : DecidablePred Token.Kind.Usable := fun _ => inferInstanceAs (Decidable (_ ∧ _))

/-- The cause is that a token records a lexical failure. -/
def Syntax.ParseError.Cause.isLexical : ParseError.Cause → Bool
  | .lexical _ => true
  | _ => false

namespace Parser

variable {α β : Type} {ending ending' : Token} {tokens others rest : List Token} {kind : Kind}

/-- Two inputs look the same in the first places, up to an end marker if there is one among these:
what stands behind an end marker does not count. -/
inductive SameAhead : Nat → Token → List Token → Token → List Token → Prop
  | none {ending ending' : Token} {tokens others : List Token} :
    SameAhead 0 ending tokens ending' others
  | ending {count : Nat} {ending ending' : Token} {tokens others : List Token}
      (ends : (next ending tokens).kind = .ending)
      (same : next ending' others = next ending tokens) :
    SameAhead count ending tokens ending' others
  | token {count : Nat} {ending ending' token : Token} {tokens others : List Token}
      (later : SameAhead count ending tokens ending' others) :
    SameAhead (count + 1) ending (token :: tokens) ending' (token :: others)

namespace SameAhead

variable {count fewer taken : Nat}

/-- Inputs look the same as themselves. -/
theorem refl (isEnding : ending.kind = .ending) (count : Nat) (tokens : List Token) :
    SameAhead count ending tokens ending tokens := by
  induction count generalizing tokens with
  | zero => exact .none
  | succ count inductionHypothesis =>
    cases tokens with
    | nil => exact .ending isEnding rfl
    | cons token rest => exact .token (inductionHypothesis rest)

/-- Inputs that look the same in some places do so in the first of these. -/
theorem mono (same : SameAhead count ending tokens ending' others) (le : fewer ≤ count) :
    SameAhead fewer ending tokens ending' others := by
  induction same generalizing fewer with
  | none =>
    obtain rfl : fewer = 0 := Nat.le_zero.mp le
    exact .none
  | ending ends same => exact .ending ends same
  | token _ inductionHypothesis =>
    cases fewer with
    | zero => exact .none
    | succ fewer => exact .token (inductionHypothesis (Nat.le_of_succ_le_succ le))

/-- What a parser sees next is the same in both inputs. -/
theorem next (same : SameAhead count ending tokens ending' others) (some : 0 < count) :
    Parser.next ending' others = Parser.next ending tokens := by
  cases same with
  | none => exact absurd some (Nat.lt_irrefl 0)
  | ending _ same => exact same
  | token => rfl

/-- If the one input begins with a token that is no end marker, so does the other. -/
theorem exists_cons {token : Token} (notEnding : token.kind ≠ .ending)
    (same : SameAhead (count + 1) ending (token :: rest) ending' others) :
    ∃ later, others = token :: later ∧ SameAhead count ending rest ending' later := by
  cases same with
  | ending ends => exact absurd ends notEnding
  | token later => exact ⟨_, rfl, later⟩

/-- The token behind the next is the same in both inputs as well, unless the next is an end
marker. -/
theorem next_tail (isEnding : ending.kind = .ending)
    (notEnding : (Parser.next ending tokens).kind ≠ .ending)
    (same : SameAhead (count + 2) ending tokens ending' others) :
    Parser.next ending' others.tail = Parser.next ending tokens.tail := by
  cases tokens with
  | nil => exact absurd isEnding notEnding
  | cons token rest =>
    obtain ⟨later, rfl, behind⟩ := same.exists_cons notEnding
    exact behind.next (Nat.succ_pos count)

/-- If the one input begins with tokens that are no end markers, so does the other. -/
theorem exists_append {known : List Token} (notEnding : ∀ token ∈ known, token.kind ≠ .ending)
    (same : SameAhead (known.length + count) ending (known ++ rest) ending' others) :
    ∃ later, others = known ++ later ∧ SameAhead count ending rest ending' later := by
  induction known generalizing others with
  | nil =>
    rw [List.length_nil, Nat.zero_add] at same
    exact ⟨others, rfl, same⟩
  | cons token known inductionHypothesis =>
    obtain ⟨here, later⟩ := List.forall_mem_cons.mp notEnding
    rw [List.length_cons, Nat.add_right_comm] at same
    obtain ⟨behind, rfl, sameBehind⟩ := same.exists_cons here
    obtain ⟨left, rfl, sameLeft⟩ := inductionHypothesis later sameBehind
    exact ⟨left, rfl, sameLeft⟩

/-- Behind the same number of tokens inputs look the same in the places that are left. -/
theorem drop (same : SameAhead (taken + count) ending tokens ending' others)
    (within : taken ≤ tokens.length) (usable : ∀ token ∈ tokens.take taken, token.kind.Usable) :
    SameAhead count ending (tokens.drop taken) ending' (others.drop taken) := by
  obtain ⟨known, rest, rfl, rfl⟩ :
      ∃ known rest, tokens = known ++ rest ∧ known.length = taken :=
    ⟨tokens.take taken, tokens.drop taken, (List.take_append_drop taken tokens).symm,
      List.length_take_of_le within⟩
  rw [List.take_left] at usable
  obtain ⟨later, rfl, sameLater⟩ :=
    same.exists_append fun token member => (usable token member).1
  rwa [List.drop_left, List.drop_left]

end SameAhead

/-- The outcome of a parser on the given tokens is settled by the tokens up to just past those it
takes, or just past the one it fails at, and the tokens before there are all usable. -/
inductive Settles (parser : Parser α) (ending : Token) (tokens : List Token) : Prop
  | ok (value : α) (taken : Nat) (within : taken ≤ tokens.length)
      (usable : ∀ token ∈ tokens.take taken, token.kind.Usable)
      (again : ∀ ending' others, SameAhead (taken + 2) ending tokens ending' others →
        parser.run ending' others = .ok (value, others.drop taken))
  | error (cause : ParseError.Cause) (place : Nat) (within : place ≤ tokens.length)
      (usable : ∀ token ∈ tokens.take place, token.kind.Usable)
      (structural : cause.isLexical = false)
      (again : ∀ ending' others, SameAhead (place + 2) ending tokens ending' others →
        parser.run ending' others = .error (.foundAt (others[place]?.getD ending') cause))

/-- A parser settles on all inputs. -/
def Settling (parser : Parser α) : Prop :=
  ∀ ending tokens, ending.kind = .ending → Settles parser ending tokens

namespace Settles

variable {parser first : Parser α} {second : α → Parser β} {inner : Parser α}

/-- A parser that takes no token and looks at two at most. -/
theorem stops (value : α)
    (again : ∀ ending' others, SameAhead 2 ending tokens ending' others →
      parser.run ending' others = .ok (value, others)) :
    Settles parser ending tokens :=
  .ok value 0 (Nat.zero_le _) (by simp) again

/-- A parser that fails at the next token. -/
theorem fails (cause : ParseError.Cause) (structural : cause.isLexical = false)
    (again : ∀ ending' others, SameAhead 2 ending tokens ending' others →
      parser.run ending' others = .error (.foundAt (next ending' others) cause)) :
    Settles parser ending tokens := by
  refine .error cause 0 (Nat.zero_le _) (by simp) structural fun ending' others agrees => ?_
  rw [again ending' others agrees, next, List.head?_eq_getElem?]

/-- A parser that takes some tokens and then does what another one does settles if that one
does. -/
theorem after (taken : Nat) (within : taken ≤ tokens.length)
    (usable : ∀ token ∈ tokens.take taken, token.kind.Usable)
    (steps : ∀ ending' others, SameAhead (taken + 2) ending tokens ending' others →
      parser.run ending' others = inner.run ending' (others.drop taken))
    (settles : Settles inner ending (tokens.drop taken)) : Settles parser ending tokens := by
  have allUsable {count : Nat}
      (later : ∀ token ∈ (tokens.drop taken).take count, token.kind.Usable) :
      ∀ token ∈ tokens.take (taken + count), token.kind.Usable := by
    intro token member
    rw [List.take_add] at member
    exact (List.mem_append.mp member).elim (usable token) (later token)
  have bound {count : Nat} (inside : count ≤ (tokens.drop taken).length) :
      taken + count ≤ tokens.length := by
    rw [List.length_drop] at inside
    omega
  cases settles with
  | ok value count inside usableLater again =>
    refine .ok value (taken + count) (bound inside) (allUsable usableLater) ?_
    intro ending' others agrees
    rw [steps ending' others (agrees.mono (by omega)),
      again ending' (others.drop taken) (.drop (agrees.mono (by omega)) within usable),
      List.drop_drop]
  | error cause place inside usableLater structural again =>
    refine .error cause (taken + place) (bound inside) (allUsable usableLater) structural ?_
    intro ending' others agrees
    rw [steps ending' others (agrees.mono (by omega)),
      again ending' (others.drop taken) (.drop (agrees.mono (by omega)) within usable),
      List.getElem?_drop]

/-- A parser that takes no token and then does what another one does. -/
theorem congr (steps : ∀ ending' others, SameAhead 2 ending tokens ending' others →
      parser.run ending' others = inner.run ending' others)
    (settles : Settles inner ending tokens) : Settles parser ending tokens :=
  .after 0 (Nat.zero_le _) (by simp) steps settles

/-- A parser that takes known tokens and then does what another one does. -/
theorem behind {known : List Token} (usable : ∀ token ∈ known, token.kind.Usable)
    (steps : ∀ ending' others, SameAhead 2 ending rest ending' others →
      parser.run ending' (known ++ others) = inner.run ending' others)
    (settles : Settles inner ending rest) : Settles parser ending (known ++ rest) := by
  refine .after known.length (by simp) (by simpa using usable) ?_ (by simpa using settles)
  intro ending' others agrees
  obtain ⟨later, rfl, laterAgrees⟩ :=
    agrees.exists_append fun token member => (usable token member).1
  rw [List.drop_left]
  exact steps ending' later laterAgrees

/-- A parser that takes one token and then does what another one does. -/
theorem behindOne {token : Token} (usable : token.kind.Usable)
    (steps : ∀ ending' others, SameAhead 2 ending rest ending' others →
      parser.run ending' (token :: others) = inner.run ending' others)
    (settles : Settles inner ending rest) : Settles parser ending (token :: rest) := by
  have known : ∀ other ∈ [token], other.kind.Usable := List.forall_mem_singleton.mpr usable
  exact .behind known steps settles

/-- Two parsers in sequence settle if both do. -/
theorem bind (settles : Settles first ending tokens)
    (goesOn : ∀ value rest, Settles (second value) ending rest) :
    Settles (first >>= second) ending tokens := by
  cases settles with
  | ok value taken within usable again =>
    refine .after taken within usable (fun ending' others agrees => ?_) (goesOn value _)
    exact run_bind_ok (again ending' others agrees)
  | error cause place within usable structural again =>
    refine .error cause place within usable structural fun ending' others agrees => ?_
    exact run_bind_error (again ending' others agrees)

end Settles

section Primitives

variable {parser : Parser α} {first : Parser α} {second : α → Parser β} {goesOn : Token → Parser α}
  {cause : ParseError.Cause}

/-- A value is given back with no look at any token. -/
theorem settling_pure (value : α) : Settling (pure value) :=
  fun _ _ _ => .stops value fun _ _ _ => rfl

/-- A sequence settles if its parts do. -/
theorem Settling.bind (settling : Settling first) (later : ∀ value, Settling (second value)) :
    Settling (first >>= second) :=
  fun ending tokens isEnding => (settling ending tokens isEnding).bind fun value rest =>
    later value ending rest isEnding

/-- Discarding a value needs no look at a token. -/
theorem Settling.discard (settling : Settling parser) : Settling (discard parser) :=
  settling.bind fun _ => settling_pure ()

/-- A choice that does not depend on the tokens. -/
theorem Settling.ite {condition : Prop} [Decidable condition] {other : Parser α}
    (yes : Settling parser) (no : Settling other) :
    Settling (if condition then parser else other) := by
  split
  · exact yes
  · exact no

/-- A failure is at the next token, and no further one is looked at. -/
theorem settling_fail (structural : cause.isLexical = false) :
    Settling (fail cause : Parser α) :=
  fun _ _ _ => .fails cause structural fun _ _ _ => run_fail

/-- What follows a look at the next token has to settle where that token is the next one. -/
theorem Settling.peek (later : ∀ ending tokens, ending.kind = .ending →
    Settles (goesOn (next ending tokens)) ending tokens) : Settling (peek >>= goesOn) := by
  intro ending tokens isEnding
  refine .congr (fun ending' others agrees => ?_) (later ending tokens isEnding)
  rw [run_bind_ok run_peek, agrees.next (by omega)]

/-- The kind of the next token is all that is looked at. -/
theorem settling_nextIs (kind : Kind) : Settling (nextIs kind) :=
  .peek fun _ _ _ => settling_pure _ _ _ ‹_›

/-- A token that may be there is taken if it can belong to a program. -/
theorem settling_take (usable : kind.Usable) : Settling (take kind) := by
  intro ending tokens isEnding
  by_cases seen : (next ending tokens).kind = kind
  · obtain ⟨rest, stands⟩ := eq_cons_of_next isEnding seen usable.1
    rw [stands]
    refine .behindOne (seen ▸ usable) (fun ending' others _ => ?_)
      (settling_pure true ending rest isEnding)
    exact run_take_same seen
  · refine .stops false fun ending' others agrees => run_take_other ?_
    rwa [agrees.next (by omega)]

/-- Where a token of another kind stands than the one that has to, that is the error. -/
theorem run_expect_other (other : (next ending tokens).kind ≠ kind) :
    (expect kind).run ending tokens =
      .error (ParseError.foundAt (next ending tokens) (.expected kind)) := by
  unfold expect
  rw [run_bind_ok run_nextIs]
  simp [other, run_fail]

/-- An expected token can belong to a program, so an end marker is never taken for it. -/
theorem settling_expect (usable : kind.Usable) : Settling (expect kind) := by
  intro ending tokens isEnding
  by_cases seen : (next ending tokens).kind = kind
  · obtain ⟨rest, stands⟩ := eq_cons_of_next isEnding seen usable.1
    rw [stands]
    refine .behindOne (seen ▸ usable) (fun ending' others _ => ?_)
      (settling_pure (next ending tokens) ending rest isEnding)
    exact run_expect seen
  · refine .fails (.expected kind) rfl fun ending' others agrees => run_expect_other ?_
    rwa [agrees.next (by omega)]

/-- The same for a token of several kinds. -/
theorem settling_expectAny {kinds : List Kind} (usable : ∀ kind ∈ kinds, kind.Usable) :
    Settling (expectAny kinds) := by
  intro ending tokens isEnding
  by_cases listed : (next ending tokens).kind ∈ kinds
  · have usableNext := usable _ listed
    obtain ⟨rest, stands⟩ := eq_cons_of_next isEnding rfl usableNext.1
    rw [stands]
    refine .behindOne usableNext (fun ending' others _ => ?_)
      (settling_pure (next ending tokens) ending rest isEnding)
    exact run_expectAny listed
  · refine .fails (.expectedAny kinds) rfl fun ending' others agrees => run_expectAny_other ?_
    rwa [agrees.next (by omega)]

/-- A token that is asked for and of no further interest. -/
theorem settling_skip (usable : kind.Usable) : Settling (discard (expect kind)) :=
  (settling_expect usable).discard

/-- What a parser may do with a token that it has taken: go on if the token is usable, or fail at
it. -/
inductive Continues (token : Token) : Parser α → Prop
  | goesOn {parser : Parser α} (usable : token.kind.Usable) (settling : Settling parser) :
    Continues token parser
  | fails {cause : ParseError.Cause} (structural : cause.isLexical = false) :
    Continues token (failAt token cause)

/-- The next token is taken whatever it is; the end marker stays. -/
theorem run_advance_next : advance.run ending tokens = .ok (next ending tokens, tokens.tail) := by
  cases tokens <;> rfl

/-- A token is taken unseen if what follows goes on behind a usable one only, and else fails. -/
theorem Settles.advance (isEnding : ending.kind = .ending)
    (continues : Continues (next ending tokens) (goesOn (next ending tokens))) :
    Settles (advance >>= goesOn) ending tokens := by
  generalize follows : goesOn (next ending tokens) = parser at continues
  cases continues with
  | goesOn usable settling =>
    obtain ⟨rest, stands⟩ := eq_cons_of_next isEnding rfl usable.1
    rw [stands]
    refine .behindOne usable (fun ending' others _ => ?_) (settling ending rest isEnding)
    rw [run_bind_ok run_advance, follows]
  | @fails cause structural =>
    refine .fails cause structural fun ending' others agrees => ?_
    rw [run_bind_ok run_advance_next, agrees.next (by omega), follows, run_failAt]

/-- A parser that takes the next token unseen settles if what follows fails at tokens that belong to
no program. -/
theorem Settling.advance (later : ∀ token, Continues token (goesOn token)) :
    Settling (advance >>= goesOn) :=
  fun _ _ isEnding => .advance isEnding (later _)

/-- A usable token that has been looked at is taken. -/
theorem Settles.skip {second : Unit → Parser β} (isEnding : ending.kind = .ending)
    (usable : (next ending tokens).kind.Usable) (settling : Settling (second ())) :
    Settles (discard Parser.advance >>= second) ending tokens := by
  obtain ⟨rest, stands⟩ := eq_cons_of_next isEnding rfl usable.1
  rw [stands]
  refine .behindOne usable (fun ending' others _ => ?_) (settling ending rest isEnding)
  exact run_bind_ok (run_discard run_advance)

end Primitives

section Repetition

variable {item : Parser α}

/-- A repetition settles if its item does.

Proof: by induction on the number of tokens, of which a round that takes any leaves fewer to the
rounds behind it. -/
theorem Settling.manyUntil (closing : List Kind) (settling : Settling item) :
    Settling (manyUntil closing item) := by
  intro ending tokens isEnding
  induction size : tokens.length using Nat.strongRecOn generalizing tokens with
  | _ size inductionHypothesis =>
  by_cases goesOn : GoesOn closing (next ending tokens)
  · have goesOnToo {ending' : Token} {others : List Token} {count : Nat}
        (agrees : SameAhead (count + 2) ending tokens ending' others) :
        GoesOn closing (next ending' others) := by
      rwa [agrees.next (by omega)]
    cases settling ending tokens isEnding with
    | error cause place within usable structural again =>
      refine .error cause place within usable structural fun ending' others agrees => ?_
      rw [run_manyUntil (goesOnToo agrees), again ending' others agrees]
    | ok value taken within usable again =>
      have nonempty {ending' : Token} {others : List Token}
          (agrees : SameAhead (taken + 2) ending tokens ending' others) : 0 < others.length := by
        obtain ⟨rest, stands⟩ := eq_cons_of_next isEnding rfl goesOn.1
        rw [stands] at agrees
        obtain ⟨later, rfl, -⟩ := agrees.exists_cons goesOn.1
        exact Nat.zero_lt_succ _
      by_cases idle : taken = 0
      · -- The round is the last, as it is on each input that agrees: it takes nothing there either.
        subst idle
        refine .stops [value] fun ending' others agrees => ?_
        rw [run_manyUntil (goesOnToo agrees), again ending' others agrees]
        simp
      · have shorter : (tokens.drop taken).length < tokens.length := by
          have some := nonempty (.refl isEnding _ tokens)
          rw [List.length_drop]
          omega
        have rounds := inductionHypothesis _ (size ▸ shorter) (tokens.drop taken) rfl
        have whole : Settles (do return value :: (← Parser.manyUntil closing item)) ending
            (tokens.drop taken) :=
          rounds.bind fun values rest => settling_pure (value :: values) ending rest isEnding
        refine .after taken within usable (fun ending' others agrees => ?_) whole
        have some := nonempty agrees
        have shorterToo : (others.drop taken).length < others.length := by
          rw [List.length_drop]
          omega
        rw [run_manyUntil (goesOnToo agrees), again ending' others agrees]
        simp only [shorterToo, if_true]
        rw [run_bind]
        cases (Parser.manyUntil closing item).run ending' (others.drop taken) <;> rfl
  · refine .stops [] fun ending' others agrees => run_manyUntil_stop ?_
    rwa [agrees.next (by omega)]

/-- What separates the items of a list settles. -/
theorem settling_separator (closing : Kind) : Settling (separator closing) :=
  (settling_take (by decide)).bind fun _ =>
    .ite (settling_pure ()) ((settling_nextIs closing).bind fun _ =>
      .ite (settling_pure ()) (settling_fail rfl))

/-- A list settles if its items do. -/
theorem Settling.commaList (closing : Kind) (settling : Settling item) :
    Settling (commaList closing item) :=
  .manyUntil [closing] (settling.bind fun value =>
    (settling_separator closing).bind fun _ => settling_pure value)

/-- A part that may be left out settles if it does where it is there. -/
theorem Settling.optionalAfter (usable : kind.Usable) (settling : Settling item) :
    Settling (optionalAfter kind item) :=
  (settling_take usable).bind fun _ =>
    .ite (settling.bind fun value => settling_pure (some value)) (settling_pure none)

end Repetition

end Parser

end SystemsLang
