import SystemsLang.Layout.Piece
import SystemsLang.Proofs.Scanning.Words

/-!
# The tokens of pieces

A piece stands for one token or, if it is a blank, for none. Tokens spell pieces if they are of the
kinds and have the texts that the pieces stand for, in the same order; their positions are free.
What is spelled by a concatenation is split where the pieces are.
-/

namespace SystemsLang

open Token (Kind)

/-- The kind and the text of the token that a piece stands for. -/
def Piece.lexeme? : Piece → Option (Kind × String)
  | mark kind => some (kind, kind.describe)
  | name text => some (Kind.ofWord text, text)
  | number text => some (.number, text)
  | string value => some (.string, value)
  | blank => none

namespace Piece

/-- Behind the first of several groups stand a comma and the others. -/
theorem commas_cons (first second : List Piece) (rest : List (List Piece)) :
    commas (first :: second :: rest) =
      first ++ mark .comma :: blank :: commas (second :: rest) := by
  simp [commas, List.intercalate, List.intersperse]

/-- A single group stands alone. -/
theorem commas_single (group : List Piece) : commas [group] = group := by
  simp [commas, List.intercalate]

end Piece

/-- The tokens are those that the pieces stand for, wherever they are placed. -/
def Spells (tokens : List Token) (pieces : List Piece) : Prop :=
  (tokens.map fun token => (token.kind, token.text)) = pieces.filterMap Piece.lexeme?

namespace Spells

variable {tokens : List Token} {first second : List Piece} {pieces : List Piece}

/-- No pieces are spelled by no tokens. -/
theorem nil : Spells tokens [] → tokens = [] := List.map_eq_nil_iff.mp

/-- Tokens of a concatenation are split into the tokens of its parts. -/
theorem append (spells : Spells tokens (first ++ second)) :
    ∃ before after, tokens = before ++ after ∧ Spells before first ∧ Spells after second := by
  unfold Spells at spells
  rw [List.filterMap_append] at spells
  obtain ⟨before, after, same, firstSpelled, secondSpelled⟩ := List.map_eq_append_iff.mp spells
  exact ⟨before, after, same, firstSpelled, secondSpelled⟩

/-- A blank stands for no token. -/
theorem blank (spells : Spells tokens (.blank :: pieces)) : Spells tokens pieces := spells

/-- Every other piece stands for one. -/
theorem cons {piece : Piece} {kind : Kind} {text : String}
    (spells : Spells tokens (piece :: pieces)) (stands : piece.lexeme? = some (kind, text)) :
    ∃ token later, tokens = token :: later ∧ token.kind = kind ∧ token.text = text ∧
      Spells later pieces := by
  unfold Spells at spells
  rw [List.filterMap_cons, stands] at spells
  obtain ⟨token, later, same, here, spelled⟩ := List.map_eq_cons_iff.mp spells
  obtain ⟨rfl, rfl⟩ := Prod.mk.inj here
  exact ⟨token, later, same, rfl, rfl, spelled⟩

/-- A mark is spelled by a token of its kind. -/
theorem mark {kind : Kind} (spells : Spells tokens (.mark kind :: pieces)) :
    ∃ token later, tokens = token :: later ∧ token.kind = kind ∧ Spells later pieces := by
  obtain ⟨token, later, same, isKind, -, spelled⟩ := spells.cons rfl
  exact ⟨token, later, same, isKind, spelled⟩

/-- A mark by itself stands for one token. -/
theorem lastMark {kind : Kind} (spells : Spells tokens [.mark kind]) :
    ∃ token, tokens = [token] ∧ token.kind = kind := by
  obtain ⟨token, later, rfl, isKind, rest⟩ := spells.mark
  exact ⟨token, by rw [rest.nil], isKind⟩

/-- A name that is an identifier to the scanner stands for an identifier. -/
theorem ident {text : String} (spells : Spells tokens (.name text :: pieces))
    (identifier : Token.IsIdentifier text) :
    ∃ token later, tokens = token :: later ∧ token.kind = .identifier ∧ token.text = text ∧
      Spells later pieces := by
  obtain ⟨token, later, same, kind, isText, spelled⟩ := spells.cons rfl
  exact ⟨token, later, same, kind.trans identifier.plain, isText, spelled⟩

end Spells

end SystemsLang
