/-!
# Indented lines

A text made of lines, each with the level it is indented to. Rendering repeats one unit of
indentation as often as the level says and ends every line with a line break.
-/

namespace SystemsLang.Text

/-- A line without its indentation, and the level it is indented to. -/
structure Line where
  level : Nat
  text : String
deriving DecidableEq, Inhabited

namespace Line

/-- The indentation of a level, the unit repeated. -/
def indentation (unit : String) (level : Nat) : String :=
  String.join (List.replicate level unit)

/-- A line with its indentation and its line break. -/
def render (unit : String) (line : Line) : String :=
  indentation unit line.level ++ line.text ++ "\n"

/-- Lines one below the other. -/
def renderAll (unit : String) (lines : List Line) : String :=
  String.join (lines.map (render unit))

end Line

end SystemsLang.Text
