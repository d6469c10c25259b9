/-!
# Types of values

The types that checking computes with, apart from the type expressions that a source writes.
`Ty.unknown` is the type of whatever could not be resolved; it goes with everything, so that one
failure is not reported over and over. `Ty.text` is the canonical name, which messages show.

Equality is decided by a structural comparison (`Ty.same_iff`).
-/

namespace SystemsLang.Typing

/-- The type of a value. -/
inductive Ty
  | void
  | unknown
  | null
  | primitive (name : String)
  | struct (name : String)
  | function (params : List Ty) (result : Ty)
  | pointer (isConst : Bool) (pointee : Ty)
  | array (length : UInt64) (element : Ty)
  | slice (isConst : Bool) (element : Ty)
  | optional (inner : Ty)
  | errorUnion (inner : Ty)
deriving Inhabited

namespace Ty

mutual

/-- Whether two types are the same. -/
def same : Ty → Ty → Bool
  | void, void => true
  | unknown, unknown => true
  | null, null => true
  | primitive name, primitive name' => name == name'
  | struct name, struct name' => name == name'
  | function params result, function params' result' =>
    sameAll params params' && same result result'
  | pointer isConst pointee, pointer isConst' pointee' =>
    isConst == isConst' && same pointee pointee'
  | array length element, array length' element' => length == length' && same element element'
  | slice isConst element, slice isConst' element' =>
    isConst == isConst' && same element element'
  | optional inner, optional inner' => same inner inner'
  | errorUnion inner, errorUnion inner' => same inner inner'
  | _, _ => false

/-- Whether two lists of types are the same, member by member. -/
def sameAll : List Ty → List Ty → Bool
  | [], [] => true
  | first :: rest, first' :: rest' => same first first' && sameAll rest rest'
  | _, _ => false

end

mutual

/-- The comparison decides equality. -/
theorem same_iff (first second : Ty) : same first second = true ↔ first = second := by
  cases first <;> cases second <;> simp [same, same_iff, sameAll_iff]

/-- The comparison of lists decides equality. -/
theorem sameAll_iff (first second : List Ty) : sameAll first second = true ↔ first = second := by
  cases first <;> cases second <;> simp [sameAll, same_iff, sameAll_iff]

end

instance : DecidableEq Ty := fun first second => decidable_of_iff _ (same_iff first second)

/-- The type that a primitive type name stands for. The name `void` has a type of its own. -/
def ofPrimitive (name : String) : Ty :=
  if name = "void" then void else primitive name

/-- The type of conditions. -/
def bool : Ty := primitive "bool"

/-- The type of a number without a point. -/
def comptimeInt : Ty := primitive "comptime_int"

/-- The type of a number with a point. -/
def comptimeFloat : Ty := primitive "comptime_float"

/-- The type of a string literal, a read-only slice of bytes. -/
def string : Ty := slice true (primitive "u8")

/-- The type of lengths. -/
def size : Ty := primitive "usize"

/-- The names of the integer types. -/
def integerNames : List String :=
  ["i8", "i16", "i32", "i64", "i128", "isize", "u8", "u16", "u32", "u64", "u128", "usize",
    "comptime_int"]

/-- The names of the floating-point types. -/
def floatNames : List String :=
  ["f16", "f32", "f64", "f128", "comptime_float"]

/-- Whether the type is the unknown one. -/
def isUnknown : Ty → Bool
  | unknown => true
  | _ => false

/-- Whether the type is `void`. -/
def isVoid : Ty → Bool
  | void => true
  | _ => false

/-- Whether the type is that of conditions. -/
def isBool : Ty → Bool
  | primitive name => name == "bool"
  | _ => false

/-- Whether the type is an integer type. -/
def isInteger : Ty → Bool
  | primitive name => integerNames.contains name
  | _ => false

/-- Whether the type is a floating-point type. -/
def isFloat : Ty → Bool
  | primitive name => floatNames.contains name
  | _ => false

/-- Whether the type is a number type. -/
def isNumeric (type : Ty) : Bool :=
  type.isInteger || type.isFloat

/-- The word in front of what a read-only pointer or slice refers to. -/
def constMark (isConst : Bool) : String :=
  if isConst then "const " else ""

mutual

/-- The canonical name of a type. -/
def text : Ty → String
  | void => "void"
  | unknown => "unknown"
  | null => "null"
  | primitive name | struct name => name
  | function params result => "fn(" ++ ", ".intercalate (textsOf params) ++ ") " ++ result.text
  | pointer isConst pointee => "*" ++ constMark isConst ++ pointee.text
  | array length element => "[" ++ toString length.toNat ++ "]" ++ element.text
  | slice isConst element => "[]" ++ constMark isConst ++ element.text
  | optional inner => "?" ++ inner.text
  | errorUnion inner => "!" ++ inner.text

/-- The canonical names of several types. -/
def textsOf : List Ty → List String
  | [] => []
  | first :: rest => first.text :: textsOf rest

end

end Ty

end SystemsLang.Typing
