/-!
# Positions in a source text

A position names the first character of a token, or of the tree node built from it, by line and
column. Both are counted from one and both count Unicode scalar values. `Position.past` follows a
run of characters: a line break starts the next line at its first column, every other character
moves one column on. The order is that of reading, line before column.
-/

namespace SystemsLang

/-- A line and a column of a text, both counted from one. -/
structure Position where
  line : Nat
  column : Nat
deriving DecidableEq, Inhabited

namespace Position

/-- The position of the first character of any text. -/
def start : Position := ⟨1, 1⟩

/-- The position that follows a character standing at the given one. -/
def next (position : Position) (character : Char) : Position :=
  if character = '\n' then ⟨position.line + 1, 1⟩ else ⟨position.line, position.column + 1⟩

/-- The position that follows a run of characters beginning at the given one. -/
def past (position : Position) (characters : List Char) : Position :=
  characters.foldl next position

@[simp] theorem past_nil (position : Position) : position.past [] = position := rfl

@[simp] theorem past_cons (position : Position) (character : Char) (rest : List Char) :
    position.past (character :: rest) = (position.next character).past rest := rfl

/-- Following two runs in turn is following their concatenation. -/
theorem past_append (position : Position) (first second : List Char) :
    position.past (first ++ second) = (position.past first).past second :=
  List.foldl_append

/-- Reading order: an earlier line comes first, and on one line the smaller column does. -/
def notAfter (first second : Position) : Bool :=
  first.line < second.line || (first.line == second.line && first.column ≤ second.column)

/-- The written form, line and column with a colon between. -/
def text (position : Position) : String :=
  toString position.line ++ ":" ++ toString position.column

end Position

end SystemsLang
