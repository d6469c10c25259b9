import SystemsLang.Typing.Ty

/-!
# Coercion

When a value of one type may stand where another type is expected. A type goes with itself, and the
unknown type goes with everything in both directions. Beyond that

* a compile-time integer goes with every number type and a compile-time float with every
  floating-point type,
* `null` goes with every optional,
* what goes with a type goes with its optional and with its error union,
* a pointer or a slice goes with the read-only one to the same type.
-/

namespace SystemsLang.Typing.Ty

/-- Whether a compile-time number of one primitive type goes with another primitive type. -/
def numberCoercesTo (actual expected : String) : Bool :=
  if actual = "comptime_int" then integerNames.contains expected || floatNames.contains expected
  else if actual = "comptime_float" then floatNames.contains expected
  else false

/-- Whether a value of the first type may stand where the second is expected. -/
def coercesTo (actual : Ty) : (expected : Ty) → Bool
  | expected@(optional inner) =>
    actual.isUnknown || actual == expected || actual == null || coercesTo actual inner
  | expected@(errorUnion inner) =>
    actual.isUnknown || actual == expected || coercesTo actual inner
  | expected =>
    actual.isUnknown || expected.isUnknown || actual == expected ||
      match expected, actual with
      | primitive expectedName, primitive actualName => numberCoercesTo actualName expectedName
      | pointer true expectedInner, pointer _ actualInner => actualInner == expectedInner
      | slice true expectedInner, slice _ actualInner => actualInner == expectedInner
      | _, _ => false

/-- Whether values of the two types may be compared, which is so if either coerces to the other. -/
def isComparableWith (first second : Ty) : Bool :=
  first.coercesTo second || second.coercesTo first

end SystemsLang.Typing.Ty
