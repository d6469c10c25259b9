/-!
# Decimal numbers of one machine word

The length of an array is written in decimal and has to fit into 64 bits. A number is one digit or
more, with at most one plus sign before them; leading zeros carry no meaning.
-/

namespace SystemsLang.Text

/-- The number that digits denote, read from the most significant one. -/
def valueOfDigits (digits : List Char) : Nat :=
  digits.foldl (fun value digit => 10 * value + (digit.toNat - '0'.toNat)) 0

/-- A number without the plus sign that may stand before it. -/
def unsigned : List Char → List Char
  | '+' :: rest => rest
  | text => text

/-- Digits have no sign to take away. -/
theorem unsigned_eq_self {digits : List Char} (decimal : digits.all Char.isDigit = true) :
    unsigned digits = digits := by
  unfold unsigned
  split
  · have impossible : Char.isDigit '+' = true := List.all_eq_true.mp decimal '+' (by simp)
    exact absurd impossible (by decide)
  · rfl

/-- The number that a text denotes, unless it is no number or does not fit into 64 bits. -/
def readWord? (text : List Char) : Option UInt64 :=
  let digits := unsigned text
  if digits ≠ [] ∧ digits.all Char.isDigit ∧ valueOfDigits digits < UInt64.size then
    some (UInt64.ofNat (valueOfDigits digits))
  else none

end SystemsLang.Text
