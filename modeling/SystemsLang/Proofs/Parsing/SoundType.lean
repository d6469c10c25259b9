import SystemsLang.Parser.TypeExpr
import SystemsLang.Proofs.Grammar.TypeExpr
import SystemsLang.Proofs.Parsing.Run

/-!
# What is read as a type spells it

A parser is sound for a relation between token lists and values if the tokens that it took stand in
the relation to the value that it gives. Soundness of the parser of types is shown by induction on
the room: a type that was read begins with a token of one of the kinds that the parser asks for, and
what stands behind its mark was read with less room.
-/

namespace SystemsLang.Parser

open Token (Kind Failure)
open Syntax (ParseError TypeExpr Ident)
open Grammar

variable {ending token : Token} {tokens rest : List Token} {room : Nat} {α : Type}

/-- The tokens that a parser took spell the value that it gave. -/
def Sound (parser : Parser α) (Spells : List Token → α → Prop) : Prop :=
  ∀ ending tokens value rest, ending.kind = .ending →
    parser.run ending tokens = .ok (value, rest) →
      ∃ taken, tokens = taken ++ rest ∧ Spells taken value

/-- What was read as a type spells it on some number of levels. -/
def SpellsType (tokens : List Token) (type : TypeExpr) : Prop :=
  ∃ levels, DerivesType tokens type levels

/-- What is read together with the closing bracket behind it is spelled before that bracket. -/
theorem Sound.closed {β : Type} {parser : Parser α} {Spells : List Token → α → Prop} {wrap : α → β}
    {result : β} {kind : Kind} (sound : Sound parser Spells) (isEnding : ending.kind = .ending)
    (notEnding : kind ≠ .ending)
    (ran : (do
      let value ← parser
      discard (expect kind)
      return wrap value : Parser β).run ending tokens = .ok (result, rest)) :
    ∃ taken closing value, tokens = taken ++ closing :: rest ∧ closing.kind = kind ∧
      Spells taken value ∧ wrap value = result := by
  obtain ⟨value, middle, parserRan, behind⟩ := run_bind_eq_ok.mp ran
  obtain ⟨taken, rfl, spells⟩ := sound _ _ _ _ isEnding parserRan
  obtain ⟨closing, later, closes, rfl, finished⟩ := run_skip_eq_ok isEnding notEnding behind
  obtain ⟨rfl, rfl⟩ := run_pure_eq_ok.mp finished
  exact ⟨taken, closing, value, rfl, closes, spells, rfl⟩

/-- What is read as a word that may be there spells it, or nothing. -/
theorem sound_take {kind : Kind} (notEnding : kind ≠ .ending) : Sound (take kind) (Mark kind) := by
  intro ending tokens present rest isEnding ran
  rcases run_take_eq_ok isEnding notEnding ran with ⟨rfl, token, same, stands⟩ | ⟨rfl, -, stands⟩
  · exact ⟨[token], stands, .present same⟩
  · exact ⟨[], stands, .absent⟩

/-- A name that was read stands in one token. -/
theorem run_ident_eq_ok {name : Ident} (isEnding : ending.kind = .ending)
    (ran : ident.run ending tokens = .ok (name, rest)) :
    ∃ token, token.kind = .identifier ∧ tokens = token :: rest ∧
      name = ⟨token.text, token.position⟩ := by
  obtain ⟨token, middle, expected, finished⟩ := run_bind_eq_ok.mp ran
  obtain ⟨rfl, rfl⟩ := run_pure_eq_ok.mp finished
  obtain ⟨named, stands⟩ := run_expect_eq_ok isEnding (by decide) expected
  exact ⟨token, named, stands, rfl⟩

/-- A text that is read as a number is made of the digits of a length. -/
theorem length_of_readWord? {length : UInt64} (number : token.kind = .number)
    (read : Text.readWord? token.text.toList = some length) : Length token length := by
  simp only [Text.readWord?] at read
  split at read
  · rename_i decimal
    obtain ⟨nonempty, digits, small⟩ := decimal
    refine ⟨number, _, ?_, nonempty, digits, ?_⟩
    · unfold Text.unsigned
      split
      · rename_i same
        exact .inr same
      · exact .inl rfl
    · rw [Option.some.injEq] at read
      rw [← read, UInt64.toNat_ofNat', Nat.mod_eq_of_lt small]
  · cases read

/-- A length that was read stands in one token. -/
theorem run_arrayLength_eq_ok {length : UInt64} (isEnding : ending.kind = .ending)
    (ran : arrayLength.run ending tokens = .ok (length, rest)) :
    ∃ token, Length token length ∧ tokens = token :: rest := by
  obtain ⟨token, middle, expected, finished⟩ := run_bind_eq_ok.mp ran
  obtain ⟨number, stands⟩ := run_expect_eq_ok isEnding (by decide) expected
  split at finished
  · rename_i read
    obtain ⟨rfl, rfl⟩ := run_pure_eq_ok.mp finished
    exact ⟨token, length_of_readWord? number read, stands⟩
  · exact absurd finished failAt_ne_ok

/-- The tokens that were read as a type spell it. -/
theorem sound_typeExpr (room : Nat) : Sound (typeExpr room) SpellsType := by
  induction room with
  | zero =>
    intro ending tokens type rest _ ran
    exact absurd ran fail_ne_ok
  | succ room inductionHypothesis =>
    intro ending tokens type rest isEnding ran
    obtain ⟨token, middle, advanced, behind⟩ := run_bind_eq_ok.mp ran
    split at behind
    · rename_i kind
      obtain ⟨rfl, rfl⟩ := run_pure_eq_ok.mp behind
      exact ⟨[token], run_advance_eq_ok isEnding advanced kind (by decide), 1, .primitive kind⟩
    · rename_i kind
      obtain ⟨rfl, rfl⟩ := run_pure_eq_ok.mp behind
      exact ⟨[token], run_advance_eq_ok isEnding advanced kind (by decide), 1, .named kind⟩
    · rename_i kind
      obtain ⟨isConst, later, marked, behindMark⟩ := run_bind_eq_ok.mp behind
      obtain ⟨pointee, inner, rfl⟩ := run_map_eq_ok.mp behindMark
      obtain ⟨const, rfl, mark⟩ := sound_take (by decide) _ _ _ _ isEnding marked
      obtain ⟨taken, rfl, levels, derived⟩ := inductionHypothesis _ _ _ _ isEnding inner
      refine ⟨token :: (const ++ taken), ?_, levels + 1, .pointer kind mark derived⟩
      rw [run_advance_eq_ok isEnding advanced kind (by decide), List.cons_append, List.append_assoc]
    · rename_i kind
      obtain ⟨closed, later, asked, within⟩ := run_bind_eq_ok.mp behind
      -- A bracket that closes at once makes a slice. Otherwise the length of an array stands there.
      rcases run_take_eq_ok isEnding (by decide) asked with
        ⟨rfl, closing, closes, rfl⟩ | ⟨rfl, -, rfl⟩
      · obtain ⟨isConst, later, marked, behindMark⟩ := run_bind_eq_ok.mp within
        obtain ⟨element, inner, rfl⟩ := run_map_eq_ok.mp behindMark
        obtain ⟨const, rfl, mark⟩ := sound_take (by decide) _ _ _ _ isEnding marked
        obtain ⟨taken, rfl, levels, derived⟩ := inductionHypothesis _ _ _ _ isEnding inner
        refine ⟨token :: closing :: (const ++ taken), ?_, levels + 1,
          .slice kind closes mark derived⟩
        rw [run_advance_eq_ok isEnding advanced kind (by decide), List.cons_append,
          List.cons_append, List.append_assoc]
      · obtain ⟨length, later, counted, behindLength⟩ := run_bind_eq_ok.mp within
        obtain ⟨number, counts, rfl⟩ := run_arrayLength_eq_ok isEnding counted
        obtain ⟨closing, later, closes, rfl, behindBracket⟩ :=
          run_skip_eq_ok isEnding (by decide) behindLength
        obtain ⟨element, inner, rfl⟩ := run_map_eq_ok.mp behindBracket
        obtain ⟨taken, rfl, levels, derived⟩ := inductionHypothesis _ _ _ _ isEnding inner
        exact ⟨token :: number :: closing :: taken,
          run_advance_eq_ok isEnding advanced kind (by decide), levels + 1,
          .array kind counts closes derived⟩
    · rename_i kind
      obtain ⟨type, inner, rfl⟩ := run_map_eq_ok.mp behind
      obtain ⟨taken, rfl, levels, derived⟩ := inductionHypothesis _ _ _ _ isEnding inner
      exact ⟨token :: taken, run_advance_eq_ok isEnding advanced kind (by decide), levels + 1,
        .optional kind derived⟩
    · rename_i kind
      obtain ⟨type, inner, rfl⟩ := run_map_eq_ok.mp behind
      obtain ⟨taken, rfl, levels, derived⟩ := inductionHypothesis _ _ _ _ isEnding inner
      exact ⟨token :: taken, run_advance_eq_ok isEnding advanced kind (by decide), levels + 1,
        .errorUnion kind derived⟩
    · exact absurd behind failAt_ne_ok

end SystemsLang.Parser
