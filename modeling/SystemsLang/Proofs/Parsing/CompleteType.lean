import SystemsLang.Parser.TypeExpr
import SystemsLang.Proofs.Grammar.TypeExpr
import SystemsLang.Proofs.Parsing.Run

/-!
# What spells a type is read

Tokens that the grammar derives a type from are read as that type, whatever stands behind them,
exactly if there is room for the levels of the derivation. The proof follows the derivation; the
parser takes one level before it looks at a token, as the measure does.
-/

namespace SystemsLang.Parser

open Token (Kind Failure)
open Syntax (ParseError TypeExpr Ident)
open Grammar

variable {ending token : Token} {tokens rest : List Token} {levels room : Nat}

/-- A token that begins a type records no lexical failure. -/
theorem of?_eq_none_of_startsType (starts : startsType token.kind = true) :
    Failure.of? token = none := by
  unfold Failure.of?
  split <;> simp_all [startsType]

/-- A token that begins a type is none of the kinds that no type begins with. -/
theorem kind_ne_of_startsType {kind : Kind} (starts : startsType token.kind = true)
    (other : startsType kind = false) : token.kind ≠ kind := by
  intro same
  rw [same, other] at starts
  cases starts

/-- A mark that may be left out is seen exactly if it is there, provided that what follows it is of
another kind. -/
theorem run_take_mark {kind : Kind} {mark : List Token} {present : Bool}
    (marked : Mark kind mark present) (other : (next ending rest).kind ≠ kind) :
    (take kind).run ending (mark ++ rest) = .ok (present, rest) := by
  cases marked with
  | absent => exact run_take_other other
  | present same => exact run_take_same same

/-- The name that has to stand next. -/
theorem run_ident (named : token.kind = .identifier) :
    ident.run ending (token :: rest) = .ok (⟨token.text, token.position⟩, rest) := by
  unfold ident
  rw [run_bind_ok (run_expect named), run_pure]

/-- The digits of a length denote it, whether or not a plus sign stands before them. -/
theorem readWord?_of_length {length : UInt64} (counts : Length token length) :
    Text.readWord? token.text.toList = some length := by
  obtain ⟨-, digits, text, nonempty, decimal, value⟩ := counts
  have small : Text.valueOfDigits digits < UInt64.size := by
    rw [value]
    exact length.toNat_lt
  have unsigned : Text.unsigned token.text.toList = digits := by
    rcases text with same | same
    · rw [same, Text.unsigned_eq_self decimal]
    · rw [same, Text.unsigned]
  unfold Text.readWord?
  rw [unsigned, if_pos ⟨nonempty, decimal, small⟩, value, UInt64.ofNat_toNat]

/-- The number that has to stand next as a length. -/
theorem run_arrayLength {length : UInt64} (counts : Length token length) :
    arrayLength.run ending (token :: rest) = .ok (length, rest) := by
  unfold arrayLength
  rw [run_bind_ok (run_expect counts.1), readWord?_of_length counts, run_pure]

/-- A type is read below the level that it stands on itself. -/
theorem Reads.typeExpr_descend {type : TypeExpr} (starts : startsType token.kind = true)
    (below : ∀ room, Reads (typeExpr (room + 1)) ending levels room (token :: tokens) type rest)
    (room : Nat) : Reads (typeExpr room) ending (levels + 1) room (token :: tokens) type rest :=
  .descend (by rw [typeExpr]) (by rw [next_cons, of?_eq_none_of_startsType starts]) below room

/-- Tokens that spell a type are read as that type exactly if there is room for its levels. -/
theorem reads_typeExpr {type : TypeExpr} (derived : DerivesType tokens type levels)
    (room : Nat) (rest : List Token) :
    Reads (typeExpr room) ending levels room (tokens ++ rest) type rest := by
  induction derived generalizing room rest with
  | primitive kind =>
    refine .typeExpr_descend (by rw [kind]; rfl) (fun room => ?_) room
    refine .step run_advance ?_
    simp only [kind]
    exact .pure
  | named kind =>
    refine .typeExpr_descend (by rw [kind]; rfl) (fun room => ?_) room
    refine .step run_advance ?_
    simp only [kind]
    exact .pure
  | pointer kind marked derived inductionHypothesis =>
    obtain ⟨first, later, rfl, starts⟩ := derived.starts
    rw [List.cons_append, List.append_assoc]
    refine .typeExpr_descend (by rw [kind]; rfl) (fun room => ?_) room
    refine .step run_advance ?_
    simp only [kind]
    refine .step (run_take_mark marked (kind_ne_of_startsType starts rfl)) ?_
    exact (inductionHypothesis room rest).map
  | array opens counts closes derived inductionHypothesis =>
    simp only [List.cons_append]
    refine .typeExpr_descend (by rw [opens]; rfl) (fun room => ?_) room
    refine .step run_advance ?_
    simp only [opens]
    refine .step (run_take_other (by rw [next_cons, counts.1]; decide)) ?_
    simp only [Bool.false_eq_true, if_false]
    refine .step (run_arrayLength counts) (.step (run_discard (run_expect closes)) ?_)
    exact (inductionHypothesis room rest).map
  | slice opens closes marked derived inductionHypothesis =>
    obtain ⟨first, later, rfl, starts⟩ := derived.starts
    rw [List.cons_append, List.cons_append, List.append_assoc]
    refine .typeExpr_descend (by rw [opens]; rfl) (fun room => ?_) room
    refine .step run_advance ?_
    simp only [opens]
    refine .step (run_take_same closes) ?_
    simp only [if_true]
    refine .step (run_take_mark marked (kind_ne_of_startsType starts rfl)) ?_
    exact (inductionHypothesis room rest).map
  | optional kind derived inductionHypothesis =>
    refine .typeExpr_descend (by rw [kind]; rfl) (fun room => ?_) room
    refine .step run_advance ?_
    simp only [kind]
    exact (inductionHypothesis room rest).map
  | errorUnion kind derived inductionHypothesis =>
    refine .typeExpr_descend (by rw [kind]; rfl) (fun room => ?_) room
    refine .step run_advance ?_
    simp only [kind]
    exact (inductionHypothesis room rest).map

end SystemsLang.Parser
