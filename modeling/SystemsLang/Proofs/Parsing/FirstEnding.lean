import SystemsLang.Proofs.Parsing.SettledProgram

/-!
# Where the input ends

Parsing stops at the first end marker. Whatever stands behind it does not change the result
(`ofTokens_append_marker`), and the marker itself may be missing: then parsing gives what it gives
with the marker that belongs to the list (`ofTokens_append_endingOf`).

Both are cases of one law. Two inputs that have the same tokens and the same end marker behind them
look the same however far a parser looks, so a parser that settles gives the same value for both, or
the same error at the same token. That one run passes over a marker in the list while the other
stays at the end of its list makes no difference, because a parser that has taken an end marker
looks at no further token.
-/

namespace SystemsLang

namespace Parser

variable {α : Type} {ending ending' : Token} {tokens others rest : List Token} {parser : Parser α}

/-- Behind the same tokens, inputs look the same if the same end marker comes next in both. -/
theorem SameAhead.append (ends : (Parser.next ending rest).kind = .ending)
    (same : Parser.next ending' others = Parser.next ending rest) (count : Nat)
    (tokens : List Token) :
    SameAhead count ending (tokens ++ rest) ending' (tokens ++ others) := by
  induction tokens generalizing count with
  | nil => exact .ending ends same
  | cons token tokens inductionHypothesis =>
    cases count with
    | zero => exact .none
    | succ count => exact .token (inductionHypothesis count)

/-- Behind usable tokens, the token in a place is the same in inputs that look the same. -/
theorem SameAhead.getD {place : Nat} (same : SameAhead (place + 1) ending tokens ending' others)
    (within : place ≤ tokens.length) (usable : ∀ token ∈ tokens.take place, token.kind.Usable) :
    others[place]?.getD ending' = tokens[place]?.getD ending := by
  have seen := (same.drop within usable).next Nat.zero_lt_one
  rwa [Parser.next, Parser.next, List.head?_drop, List.head?_drop] at seen

/-- On inputs that look the same, a parser that settles gives the same value, or the same error at
the same token. -/
theorem Settling.run_congr (settling : Settling parser) (isEnding : ending.kind = .ending)
    (same : ∀ count, SameAhead count ending tokens ending' others) :
    (parser.run ending' others).map Prod.fst = (parser.run ending tokens).map Prod.fst := by
  cases settling ending tokens isEnding with
  | ok value taken _ _ again =>
    rw [again ending' others (same _), again ending tokens (.refl isEnding _ tokens)]
    rfl
  | error cause place within usable _ again =>
    rw [again ending' others (same _), again ending tokens (.refl isEnding _ tokens),
      (same (place + 1)).getD within usable]

end Parser

namespace Syntax

open Token (endingOf)

variable {marker : Token}

/-- Behind the same tokens, lists spell the same program if the same end marker comes next. -/
theorem Program.ofTokens_append (tokens rest others : List Token)
    (ends : (Parser.next (endingOf (tokens ++ rest)) rest).kind = .ending)
    (same : Parser.next (endingOf (tokens ++ others)) others =
      Parser.next (endingOf (tokens ++ rest)) rest) :
    Program.ofTokens (tokens ++ others) = Program.ofTokens (tokens ++ rest) := by
  apply (Parser.settling_program maxDepth).run_congr rfl
  intro count
  exact .append ends same count tokens

/-- What stands behind an end marker does not count. -/
theorem ofTokens_append_marker (isEnding : marker.kind = .ending) (tokens rest : List Token) :
    Program.ofTokens (tokens ++ marker :: rest) = Program.ofTokens (tokens ++ [marker]) := by
  apply Program.ofTokens_append
  · exact isEnding
  · rfl

/-- Parsing stops at the first end marker and does not need one. Every list, with or without an end
marker in it, spells what it spells with the marker that belongs to it at its end, an error and the
token of the error included; and whatever follows that marker does not change the result. -/
theorem ofTokens_append_endingOf (tokens : List Token) :
    Program.ofTokens (tokens ++ [endingOf tokens]) = Program.ofTokens tokens ∧
      ∀ rest, Program.ofTokens (tokens ++ endingOf tokens :: rest) =
        Program.ofTokens (tokens ++ [endingOf tokens]) := by
  constructor
  · have markerless := Program.ofTokens_append tokens [] [endingOf tokens]
    rw [List.append_nil] at markerless
    apply markerless
    · rfl
    · rfl
  · intro rest
    exact ofTokens_append_marker rfl tokens rest

end Syntax

end SystemsLang
