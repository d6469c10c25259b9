/-!
# Blank characters

The twenty-five code points that Unicode gives the property `White_Space`. They are the characters
that may stand between two lexemes. The table lists them as inclusive ranges in rising order.
-/

namespace SystemsLang.Text

/-- The inclusive ranges of code points that carry `White_Space`, in rising order. -/
def blankRanges : List (Nat × Nat) :=
  [(0x9, 0xD), (0x20, 0x20), (0x85, 0x85), (0xA0, 0xA0), (0x1680, 0x1680), (0x2000, 0x200A),
    (0x2028, 0x2029), (0x202F, 0x202F), (0x205F, 0x205F), (0x3000, 0x3000)]

/-- Whether a character is blank. -/
def isBlank (character : Char) : Bool :=
  blankRanges.any fun (low, high) => low ≤ character.toNat && character.toNat ≤ high

end SystemsLang.Text
