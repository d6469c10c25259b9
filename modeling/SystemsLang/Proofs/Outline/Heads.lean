import SystemsLang.Proofs.Layout.RoundTrip

/-!
# What the head of a declaration tells

An outline writes types and the heads of variables and functions as source does. Such a text is
part of the layout of a small program, a variable without a value or a function with an empty body,
and layouts are parsed back. So the text of a type tells the type, and that of a head everything in
the head except the positions.
-/

namespace SystemsLang.Layout

open Syntax Grammar
open Token (IsIdentifier)

/-- Spellable programs that are laid out in the same way differ in positions at most. -/
theorem unplaced_of_format {program other : Program} (spellable : program.Spellable)
    (otherSpellable : other.Spellable) {options : Options}
    (same : program.format options = other.format options) : program.unplaced = other.unplaced := by
  obtain ⟨again, derived, sameAgain⟩ := derives_program spellable (spells_format spellable options)
  obtain ⟨otherAgain, otherDerived, otherSame⟩ :=
    derives_program otherSpellable (spells_format otherSpellable options)
  rw [same] at derived
  rw [← sameAgain, derivesProgram_unique derived otherDerived, otherSame]

/-- The text of a single line. -/
theorem renderAll_single (unit : String) (pieces last : List Piece) :
    Text.Line.renderAll unit [Line.toText ⟨0, pieces ++ last⟩] =
      Piece.textOf pieces ++ (Piece.textOf last ++ "\n") := by
  apply String.toList_injective
  simp [Text.Line.renderAll, Text.Line.render, Text.Line.indentation, Line.toText,
    Piece.toList_textOf_append]

end SystemsLang.Layout

namespace SystemsLang.Syntax

open Layout
open Token (IsIdentifier)

namespace VarDecl

/-- The variable up to its type. -/
def head (declared : VarDecl) : VarDecl :=
  { declared with init := none }

/-- What the head of a variable says. -/
theorem head_injective {declared other : VarDecl} (spellable : declared.Spellable)
    (otherSpellable : other.Spellable)
    (same : Piece.textOf declared.headPieces = Piece.textOf other.headPieces) :
    declared.head.unplaced = other.head.unplaced := by
  have format (declared : VarDecl) : Program.format [.var declared.head] {} =
      Piece.textOf declared.headPieces ++ (Piece.textOf [.mark .semicolon] ++ "\n") := by
    have line : programLines [.var declared.head] =
        [⟨0, declared.headPieces ++ [] ++ [.mark .semicolon]⟩] := rfl
    rw [Program.format, line, List.append_nil]
    exact renderAll_single _ _ _
  have alone {declared : VarDecl} (spellable : declared.Spellable) :
      Program.Spellable [.var declared.head] := by
    intro first member
    obtain rfl := List.mem_singleton.mp member
    refine ⟨spellable.name, spellable.type, ?_⟩
    rintro _ ⟨⟩
  have sameProgram := unplaced_of_format (alone spellable) (alone otherSpellable)
    ((format declared).trans ((congrArg (· ++ _) same).trans (format other).symm))
  exact Decl.var.inj (List.cons.inj sameProgram).1

end VarDecl

namespace FnDecl

/-- The function up to its body. -/
def head (declared : FnDecl) : FnDecl :=
  { declared with body := [] }

/-- What the head of a function says. -/
theorem head_injective {declared other : FnDecl} (spellable : (Decl.fn declared).Spellable)
    (otherSpellable : (Decl.fn other).Spellable)
    (same : Piece.textOf declared.headPieces = Piece.textOf other.headPieces) :
    (Decl.fn declared.head).unplaced = (Decl.fn other.head).unplaced := by
  have format (declared : FnDecl) : Program.format [.fn declared.head] {} =
      Piece.textOf declared.headPieces ++
        (Piece.textOf [.blank, .mark .leftBrace, .mark .rightBrace] ++ "\n") := by
    have line : programLines [.fn declared.head] =
        [⟨0, declared.headPieces ++ [.blank] ++ [.mark .leftBrace, .mark .rightBrace]⟩] := rfl
    rw [Program.format, line, List.append_assoc]
    exact renderAll_single _ _ _
  have alone {declared : FnDecl} (spellable : (Decl.fn declared).Spellable) :
      Program.Spellable [.fn declared.head] := by
    intro first member
    obtain rfl := List.mem_singleton.mp member
    exact ⟨spellable.1, spellable.2.1, spellable.2.2.1, trivial⟩
  have sameProgram := unplaced_of_format (alone spellable) (alone otherSpellable)
    ((format declared).trans ((congrArg (· ++ _) same).trans (format other).symm))
  exact (List.cons.inj sameProgram).1

end FnDecl

/-- The variable of a name with its type. -/
def VarDecl.ofTypedName (name : Ident) (type : TypeExpr) : VarDecl :=
  ⟨false, false, name, some type, none, Position.start⟩

/-- What a name with its type says. -/
theorem typedName_injective {name other : Ident} {type otherType : TypeExpr}
    (identifier : IsIdentifier name.name) (otherIdentifier : IsIdentifier other.name)
    (spellable : type.Spellable) (otherSpellable : otherType.Spellable)
    (same : Piece.textOf (typedName name type) = Piece.textOf (typedName other otherType)) :
    name.unplaced = other.unplaced ∧ type.unplaced = otherType.unplaced := by
  have alone {name : Ident} {type : TypeExpr} (identifier : IsIdentifier name.name)
      (spellable : type.Spellable) : (VarDecl.ofTypedName name type).Spellable :=
    ⟨identifier, fun given member => Option.some.inj member ▸ spellable,
      fun _ impossible => nomatch impossible⟩
  have head (name : Ident) (type : TypeExpr) :
      Piece.textOf (VarDecl.ofTypedName name type).headPieces =
        Piece.textOf [.mark .varWord, .blank] ++ Piece.textOf (typedName name type) := by
    apply String.toList_injective
    rw [String.toList_append, ← Piece.toList_textOf_append]
    rfl
  have sameHead : Piece.textOf (VarDecl.ofTypedName name type).headPieces =
      Piece.textOf (VarDecl.ofTypedName other otherType).headPieces := by
    rw [head, head, same]
  have sameVar := VarDecl.head_injective (alone identifier spellable)
    (alone otherIdentifier otherSpellable) sameHead
  obtain ⟨-, -, sameName, sameType, -, -⟩ := VarDecl.mk.inj sameVar
  exact ⟨sameName, Option.some.inj sameType⟩

/-- What the text of a type says. -/
theorem TypeExpr.text_injective {type other : TypeExpr} (spellable : type.Spellable)
    (otherSpellable : other.Spellable) (same : type.text = other.text) :
    type.unplaced = other.unplaced := by
  have identifier : IsIdentifier "x" := ⟨by decide, by decide⟩
  have split (type : TypeExpr) : Piece.textOf (typedName ⟨"x", Position.start⟩ type) =
      Piece.textOf [.name "x", .mark .colon, .blank] ++ type.text := by
    apply String.toList_injective
    rw [String.toList_append, TypeExpr.text, ← Piece.toList_textOf_append]
    rfl
  have sameName : Piece.textOf (typedName ⟨"x", Position.start⟩ type) =
      Piece.textOf (typedName ⟨"x", Position.start⟩ other) := by
    rw [split, split, same]
  exact (typedName_injective identifier identifier spellable otherSpellable sameName).2

end SystemsLang.Syntax
