import SystemsLang.Proofs.Typing.Rules
import SystemsLang.Typing.Program

/-!
# What the checks of single types decide

The checker asks about types by functions with Boolean results. Each of them decides a relation or a
property of the rules.
-/

namespace SystemsLang.Typing

open Syntax

/-- The checker's test for the unknown type. -/
theorem isUnknown_iff {type : Ty} : type.isUnknown = true ↔ type = .unknown := by
  cases type <;> simp [Ty.isUnknown]

/-- The checker's test for `void`. -/
theorem isVoid_iff {type : Ty} : type.isVoid = true ↔ type = .void := by
  cases type <;> simp [Ty.isVoid]

/-- The checker's test for integer types. -/
theorem isInteger_iff {type : Ty} :
    type.isInteger = true ↔ ∃ name ∈ Ty.integerNames, type = .primitive name := by
  cases type <;> simp [Ty.isInteger]

/-- The checker's test for floating-point types. -/
theorem isFloat_iff {type : Ty} :
    type.isFloat = true ↔ ∃ name ∈ Ty.floatNames, type = .primitive name := by
  cases type <;> simp [Ty.isFloat]

/-- What may be a number is computed with. -/
theorem mayBeNumeric_iff {type : Ty} : mayBeNumeric type = true ↔ Numeric type := by
  unfold mayBeNumeric Numeric Ty.isNumeric
  rw [Bool.or_eq_true, Bool.or_eq_true, isUnknown_iff, isInteger_iff, isFloat_iff]
  constructor
  · rintro (unknown | ⟨name, member, same⟩ | ⟨name, member, same⟩)
    · exact .inl unknown
    · exact .inr ⟨name, same, .inl member⟩
    · exact .inr ⟨name, same, .inr member⟩
  · rintro (unknown | ⟨name, same, member | member⟩)
    · exact .inl unknown
    · exact .inr (.inl ⟨name, member, same⟩)
    · exact .inr (.inr ⟨name, member, same⟩)

/-- What may be a truth value can be a condition. -/
theorem mayBeBool_iff {type : Ty} : mayBeBool type = true ↔ Boolean type := by
  cases type <;> simp [mayBeBool, Boolean, Ty.isUnknown, Ty.isBool, Ty.bool]

/-- What may be an integer can be a subscript. -/
theorem mayBeInteger_iff {type : Ty} :
    (type.isUnknown || type.isInteger) = true ↔ Integral type := by
  rw [Bool.or_eq_true, isUnknown_iff, isInteger_iff]
  rfl

/-- Which primitive types the compile-time numbers go with. -/
theorem numberCoercesTo_iff {actual expected : String} :
    Ty.numberCoercesTo actual expected = true ↔
      actual = "comptime_int" ∧ (expected ∈ Ty.integerNames ∨ expected ∈ Ty.floatNames) ∨
        actual = "comptime_float" ∧ expected ∈ Ty.floatNames := by
  unfold Ty.numberCoercesTo
  split
  · rename_i same
    simp [same]
  · split
    · rename_i same
      simp [same]
    · rename_i notInt notFloat
      simp [notInt, notFloat]

/-- Where neither an optional nor an error union is expected, a coercion changes nothing but the
size of a number or what may be written to. -/
theorem coerces_plain {actual expected : Ty} (notOptional : ∀ inner, expected ≠ .optional inner)
    (notUnion : ∀ inner, expected ≠ .errorUnion inner) :
    actual.coercesTo expected = true ↔ Coerces Eq actual expected := by
  constructor
  · intro fits
    unfold Ty.coercesTo at fits
    split at fits
    · exact absurd rfl (notOptional _)
    · exact absurd rfl (notUnion _)
    · simp only [Bool.or_eq_true, isUnknown_iff, beq_iff_eq] at fits
      rcases fits with ((rfl | rfl) | rfl) | fits
      · exact .fromUnknown _
      · exact .toUnknown _
      · exact .same rfl
      · split at fits
        · rcases numberCoercesTo_iff.mp fits with ⟨rfl, number⟩ | ⟨rfl, number⟩
          · exact .integer number
          · exact .float number
        · obtain rfl := beq_iff_eq.mp fits
          exact .pointer rfl
        · obtain rfl := beq_iff_eq.mp fits
          exact .slice rfl
        · cases fits
  · intro fits
    cases fits with
    | same same =>
      obtain rfl := same
      unfold Ty.coercesTo
      split <;> simp
    | fromUnknown =>
      unfold Ty.coercesTo
      split <;> simp [Ty.isUnknown]
    | toUnknown => simp [Ty.coercesTo, Ty.isUnknown]
    | integer number => simp [Ty.coercesTo, Ty.comptimeInt, numberCoercesTo_iff, number]
    | float number => simp [Ty.coercesTo, Ty.comptimeFloat, numberCoercesTo_iff, number]
    | null | optional => exact absurd rfl (notOptional _)
    | errorUnion => exact absurd rfl (notUnion _)
    | pointer same | slice same => simp [Ty.coercesTo, same]

/-- The check of a coercion decides the relation. -/
theorem coercesTo_iff (actual expected : Ty) :
    actual.coercesTo expected = true ↔ Coerces Eq actual expected := by
  cases expected with
  | optional inner =>
    rw [Ty.coercesTo, Bool.or_eq_true, Bool.or_eq_true, Bool.or_eq_true, isUnknown_iff,
      beq_iff_eq, beq_iff_eq, coercesTo_iff actual inner]
    constructor
    · rintro (((rfl | rfl) | rfl) | fits)
      · exact .fromUnknown _
      · exact .same rfl
      · exact .null _
      · exact .optional fits
    · intro fits
      cases fits with
      | same same => exact .inl (.inl (.inr same))
      | fromUnknown => exact .inl (.inl (.inl rfl))
      | null => exact .inl (.inr rfl)
      | optional fits => exact .inr fits
  | errorUnion inner =>
    rw [Ty.coercesTo, Bool.or_eq_true, Bool.or_eq_true, isUnknown_iff, beq_iff_eq,
      coercesTo_iff actual inner]
    constructor
    · rintro ((rfl | rfl) | fits)
      · exact .fromUnknown _
      · exact .same rfl
      · exact .errorUnion fits
    · intro fits
      cases fits with
      | same same => exact .inl (.inr same)
      | fromUnknown => exact .inl (.inl rfl)
      | errorUnion fits => exact .inr fits
  | void | unknown | null | primitive | struct | function | pointer | array | slice =>
    exact coerces_plain (by simp) (by simp)

/-- Values are compared if one goes with the other. -/
theorem isComparableWith_iff {first second : Ty} :
    first.isComparableWith second = true ↔ Coerces Eq first second ∨ Coerces Eq second first := by
  rw [Ty.isComparableWith, Bool.or_eq_true, coercesTo_iff, coercesTo_iff]

/-- Which results have to be given back. A result of the unknown type is none that a function of a
well-typed program has. -/
theorem needsValue_iff {result : Ty} (known : result ≠ .unknown) :
    needsValue result = true ↔ NeedsValue result := by
  unfold NeedsValue
  cases result with
  | unknown => exact absurd rfl known
  | errorUnion inner => cases inner <;> simp [needsValue, Ty.isVoid]
  | primitive name => simp [needsValue]
  | void | null | struct | function | pointer | array | slice | optional => simp [needsValue]

mutual

/-- The search for a statement that returns finds one if there is one. -/
theorem returns_iff (statement : Stmt) : returns statement = true ↔ Returns statement := by
  cases statement with
  | returns position value => exact ⟨fun _ => .returns, fun _ => rfl⟩
  | block position body =>
    rw [returns, anyReturns_iff body]
    constructor
    · rintro ⟨inner, member, surely⟩
      exact .block member surely
    · intro surely
      cases surely with
      | block member surely => exact ⟨_, member, surely⟩
  | comptime position body =>
    rw [returns, anyReturns_iff body]
    constructor
    · rintro ⟨inner, member, surely⟩
      exact .comptime member surely
    · intro surely
      cases surely with
      | comptime member surely => exact ⟨_, member, surely⟩
  | branch position condition body otherwise =>
    cases otherwise with
    | none =>
      refine ⟨fun surely => ?_, fun surely => ?_⟩
      · rw [returns] at surely
        · cases surely
        all_goals simp
      · cases surely
    | some otherwise =>
      rw [returns, Bool.and_eq_true, anyReturns_iff body, returns_iff otherwise]
      constructor
      · rintro ⟨⟨inner, member, surely⟩, other⟩
        exact .branch member surely other
      · intro surely
        cases surely with
        | branch member surely other => exact ⟨⟨_, member, surely⟩, other⟩
  | whileLoop | forLoop | breakLoop | continueLoop | expr | declare =>
    refine ⟨fun surely => ?_, fun surely => ?_⟩
    · rw [returns] at surely
      · cases surely
      all_goals simp
    · cases surely

/-- So does the search through several. -/
theorem anyReturns_iff (body : List Stmt) :
    anyReturns body = true ↔ ∃ statement ∈ body, Returns statement := by
  cases body with
  | nil => simp [anyReturns]
  | cons first rest =>
    rw [anyReturns, Bool.or_eq_true, returns_iff first, anyReturns_iff rest]
    simp

end

end SystemsLang.Typing
