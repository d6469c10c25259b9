import SystemsLang.Syntax.TypeExpr
import SystemsLang.Text.Decimal
import SystemsLang.Token

/-!
# The grammar of type expressions

Which token lists spell which trees is a relation of its own, stated without any parser. It is given
here for types, together with the two shapes that recur all over the grammar: a word that may be
left out, and items with commas between them.

Every derivation is measured by the levels of nesting that it takes up, which are one for each type
that stands inside another. The measure has no part in what is derived; it only says how deep.
-/

namespace SystemsLang.Grammar

open Token (Kind)
open Syntax

/-- A token that may be left out, and whether it is there. -/
inductive Mark (kind : Kind) : List Token → Bool → Prop
  | absent : Mark kind [] false
  | present {token : Token} (same : token.kind = kind) : Mark kind [token] true

/-- Items with commas between them. A comma may stand behind the last one, so what follows a comma
is again such a list, if need be an empty one. -/
inductive CommaList {α : Type} (Item : List Token → α → Nat → Prop) :
    List Token → List α → Nat → Prop
  | nil : CommaList Item [] [] 0
  | last {tokens : List Token} {value : α} {levels : Nat} (item : Item tokens value levels) :
    CommaList Item tokens [value] levels
  | cons {before after : List Token} {comma : Token} {value : α} {values : List α}
      {levels more : Nat} (item : Item before value levels) (separates : comma.kind = .comma)
      (later : CommaList Item after values more) :
    CommaList Item (before ++ comma :: after) (value :: values) (max levels more)

/-- What a mark announces, if the mark is there. -/
inductive OptionalAfter {α : Type} (kind : Kind) (Item : List Token → α → Nat → Prop) :
    List Token → Option α → Nat → Prop
  | absent : OptionalAfter kind Item [] none 0
  | present {mark : Token} {tokens : List Token} {value : α} {levels : Nat}
      (same : mark.kind = kind) (item : Item tokens value levels) :
    OptionalAfter kind Item (mark :: tokens) (some value) levels

/-- A number token whose text is a whole decimal, and the 64-bit value that it has. A plus sign
before the digits is let through for the sake of token lists made by hand; no number that is
scanned from a text has one. -/
def Length (token : Token) (length : UInt64) : Prop :=
  token.kind = .number ∧ ∃ digits : List Char,
    (token.text.toList = digits ∨ token.text.toList = '+' :: digits) ∧
      digits ≠ [] ∧ digits.all Char.isDigit = true ∧ Text.valueOfDigits digits = length.toNat

/-- The token lists that spell a type. The word `const` may stand behind the mark of a pointer or a
slice and nowhere else. -/
inductive DerivesType : List Token → TypeExpr → Nat → Prop
  | primitive {name : Token} (kind : name.kind = .primitiveType) :
    DerivesType [name] (.primitive name.position name.text) 1
  | named {name : Token} (kind : name.kind = .identifier) :
    DerivesType [name] (.named name.position name.text) 1
  | pointer {star : Token} {const tokens : List Token} {isConst : Bool} {pointee : TypeExpr}
      {levels : Nat} (kind : star.kind = .star) (mark : Mark .constWord const isConst)
      (inner : DerivesType tokens pointee levels) :
    DerivesType (star :: (const ++ tokens)) (.pointer star.position isConst pointee) (levels + 1)
  | array {opening number closing : Token} {tokens : List Token} {length : UInt64}
      {element : TypeExpr} {levels : Nat} (opens : opening.kind = .leftBracket)
      (counts : Length number length) (closes : closing.kind = .rightBracket)
      (inner : DerivesType tokens element levels) :
    DerivesType (opening :: number :: closing :: tokens) (.array opening.position length element)
      (levels + 1)
  | slice {opening closing : Token} {const tokens : List Token} {isConst : Bool}
      {element : TypeExpr} {levels : Nat} (opens : opening.kind = .leftBracket)
      (closes : closing.kind = .rightBracket) (mark : Mark .constWord const isConst)
      (inner : DerivesType tokens element levels) :
    DerivesType (opening :: closing :: (const ++ tokens)) (.slice opening.position isConst element)
      (levels + 1)
  | optional {mark : Token} {tokens : List Token} {type : TypeExpr} {levels : Nat}
      (kind : mark.kind = .question) (inner : DerivesType tokens type levels) :
    DerivesType (mark :: tokens) (.optional mark.position type) (levels + 1)
  | errorUnion {mark : Token} {tokens : List Token} {type : TypeExpr} {levels : Nat}
      (kind : mark.kind = .bang) (inner : DerivesType tokens type levels) :
    DerivesType (mark :: tokens) (.errorUnion mark.position type) (levels + 1)

/-- The kinds of token that a type begins with. -/
def startsType : Kind → Bool
  | .primitiveType | .identifier | .star | .leftBracket | .question | .bang => true
  | _ => false

namespace DerivesType

variable {tokens : List Token} {type : TypeExpr} {levels : Nat}

/-- A type has a first token, which is of one of the kinds that begin types. -/
theorem starts (derived : DerivesType tokens type levels) :
    ∃ first rest, tokens = first :: rest ∧ startsType first.kind = true := by
  cases derived with
  | primitive kind | named kind | pointer kind | array kind | slice kind | optional kind
  | errorUnion kind => exact ⟨_, _, rfl, by rw [kind]; rfl⟩

end DerivesType

end SystemsLang.Grammar
