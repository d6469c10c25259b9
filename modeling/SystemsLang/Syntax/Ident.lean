import SystemsLang.Position

/-!
# Names in the source

A name is kept with the position where it stands, so that a report can point at it.
-/

namespace SystemsLang.Syntax

/-- A name with the position where it stands. -/
structure Ident where
  name : String
  position : Position
deriving DecidableEq, Inhabited

end SystemsLang.Syntax
