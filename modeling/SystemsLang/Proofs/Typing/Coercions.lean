import SystemsLang.Proofs.Typing.Components
import SystemsLang.Proofs.Typing.Decisions

/-!
# Coercion is an order

Every type goes with itself, and what goes with a type goes with everything that the type goes with.
The unknown type in the middle is the exception, since it goes with everything in both directions.
Two definite types that go with each other are the same, so on definite types coercion is a partial
order.

Coercion puts coats around a type, which are optionals and error unions, and takes none away
(`Coerces.coats_le`). Below the coats it makes a number less constant or a pointer more so, and
neither step leads back.
-/

namespace SystemsLang.Typing

variable {first second third actual expected : Ty}

/-- How many optionals and error unions there are around a type. -/
def Ty.coats : Ty → Nat
  | .optional inner | .errorUnion inner => inner.coats + 1
  | _ => 0

/-- The compile-time integer is no floating-point type. -/
theorem comptimeInt_notMem_floatNames : "comptime_int" ∉ Ty.floatNames := by
  decide

/-- What goes with a known type goes with whatever that type goes with.

Proof: by induction on the second coercion, which peels the coats off the third type. What is left
when it has none is a case of its own for each rule: behind a number stands a compile-time number,
and behind a read-only pointer a pointer to the same type. -/
theorem Coerces.trans (before : Coerces Eq first second) (after : Coerces Eq second third)
    (known : second ≠ .unknown) : Coerces Eq first third := by
  induction after with
  | same same => exact same ▸ before
  | fromUnknown => exact absurd rfl known
  | toUnknown => exact .toUnknown first
  | integer number =>
    cases before with
    | same same => exact same ▸ .integer number
    | integer => exact .integer number
    | fromUnknown => exact .fromUnknown _
    | float impossible => exact absurd impossible comptimeInt_notMem_floatNames
  | float number =>
    cases before with
    | same same => exact same ▸ .float number
    | float => exact .float number
    | fromUnknown => exact .fromUnknown _
    | integer => exact .integer (.inr number)
  | null inner =>
    cases before with
    | same same => exact same ▸ .null inner
    | fromUnknown => exact .fromUnknown _
  | optional fits inductionHypothesis => exact .optional (inductionHypothesis before known)
  | errorUnion fits inductionHypothesis => exact .errorUnion (inductionHypothesis before known)
  | pointer same =>
    cases before with
    | same alike => exact alike ▸ .pointer same
    | pointer alike => exact .pointer (alike.trans same)
    | fromUnknown => exact .fromUnknown _
  | slice same =>
    cases before with
    | same alike => exact alike ▸ .slice same
    | slice alike => exact .slice (alike.trans same)
    | fromUnknown => exact .fromUnknown _

/-- A coercion between known types takes no coat away. -/
theorem Coerces.coats_le (fits : Coerces Eq actual expected) (known : actual ≠ .unknown)
    (definite : expected.Definite) : actual.coats ≤ expected.coats := by
  induction fits with
  | same same => exact Nat.le_of_eq (congrArg Ty.coats same)
  | fromUnknown => exact absurd rfl known
  | toUnknown => exact absurd rfl definite.ne_unknown
  | integer | float | null | pointer | slice => exact Nat.zero_le _
  | optional fits inductionHypothesis | errorUnion fits inductionHypothesis =>
    have below := inductionHypothesis known (definite.component List.mem_cons_self)
    exact Nat.le_succ_of_le below

/-- A type with one coat more than what a type goes with does not go back to it. -/
theorem Coerces.not_uncoated {inner : Ty} (fits : Coerces Eq actual inner)
    (coated : expected.coats = inner.coats + 1) (known : expected ≠ .unknown)
    (definite : actual.Definite) (innerDefinite : inner.Definite) :
    ¬ Coerces Eq expected actual := by
  intro back
  have forth : actual.coats ≤ inner.coats := fits.coats_le definite.ne_unknown innerDefinite
  have under : expected.coats ≤ actual.coats := back.coats_le known definite
  omega

/-- Definite types that go with each other are the same. -/
theorem Coerces.antisymm (forth : Coerces Eq first second) (back : Coerces Eq second first)
    (firstDefinite : first.Definite) (secondDefinite : second.Definite) : first = second := by
  cases forth with
  | same same => exact same
  | fromUnknown => exact absurd rfl firstDefinite.ne_unknown
  | toUnknown => exact absurd rfl secondDefinite.ne_unknown
  | integer number =>
    cases back with
    | same same => exact same.symm
    | integer => rfl
    | float impossible => exact absurd impossible comptimeInt_notMem_floatNames
  | float number =>
    cases back with
    | same same => exact same.symm
    | float => rfl
    | integer => exact absurd number comptimeInt_notMem_floatNames
  | null inner =>
    cases back with
    | same same => exact same.symm
  | optional fits | errorUnion fits =>
    have inner := secondDefinite.component List.mem_cons_self
    have lost := fits.not_uncoated rfl secondDefinite.ne_unknown firstDefinite inner
    exact absurd back lost
  | pointer same | slice same =>
    obtain rfl := same
    cases back with
    | same same => exact same.symm
    | _ => rfl

/-- Coercion is reflexive; it is transitive if the type in the middle is not the unknown one; and
between types in which the unknown type stands nowhere it is antisymmetric. -/
theorem coercesTo_order :
    (∀ type : Ty, type.coercesTo type = true) ∧
      (∀ first second third : Ty, second ≠ .unknown → first.coercesTo second = true →
        second.coercesTo third = true → first.coercesTo third = true) ∧
      ∀ first second : Ty, first.Definite → second.Definite → first.coercesTo second = true →
        second.coercesTo first = true → first = second := by
  refine ⟨fun type => ?_, fun first second third known before after => ?_,
    fun first second firstDefinite secondDefinite forth back => ?_⟩
  · exact (coercesTo_iff type type).mpr (.same rfl)
  · have fits : Coerces Eq first second := (coercesTo_iff first second).mp before
    have further : Coerces Eq second third := (coercesTo_iff second third).mp after
    exact (coercesTo_iff first third).mpr (fits.trans further known)
  · have fits : Coerces Eq first second := (coercesTo_iff first second).mp forth
    have backwards : Coerces Eq second first := (coercesTo_iff second first).mp back
    exact fits.antisymm backwards firstDefinite secondDefinite

/-- A whole number known at compile time goes with a fraction known at compile time, and so with an
optional float behind an error union; a type under both coats goes with itself only. -/
theorem coercesTo_order_numbers :
    (Ty.comptimeFloat ≠ .unknown ∧ Ty.comptimeInt.coercesTo .comptimeFloat = true ∧
      Ty.comptimeFloat.coercesTo (.errorUnion (.optional (.primitive "f64"))) = true ∧
      Ty.comptimeInt.coercesTo (.errorUnion (.optional (.primitive "f64"))) = true) ∧
    ((Ty.optional .string).Definite ∧ (Ty.optional .string).coercesTo (.optional .string) = true ∧
      Ty.optional .string = .optional .string) := by
  have known : Ty.comptimeFloat ≠ .unknown := by decide
  have whole : Ty.comptimeInt.coercesTo .comptimeFloat = true := by decide
  have fraction : Ty.comptimeFloat.coercesTo (.errorUnion (.optional (.primitive "f64"))) = true :=
    by decide
  have both := coercesTo_order.2.1 _ _ _ known whole fraction
  have byte : (Ty.primitive "u8").Definite := .of_leaf (by decide) rfl
  have text : Ty.string.Definite := .of_inner (by decide) rfl byte
  have coated : (Ty.optional .string).Definite := .of_inner (by decide) rfl text
  have self := coercesTo_order.1 (.optional .string)
  have same := coercesTo_order.2.2 _ _ coated coated self self
  exact ⟨⟨known, whole, fraction, both⟩, coated, self, same⟩

end SystemsLang.Typing
