import SystemsLang.Layout.Piece
import SystemsLang.Parser.Program
import SystemsLang.Text.Line

/-!
# Laying out source

A program is laid out as lines of pieces. Every block is indented one level deeper than the line
that opens it, a block without statements is closed where it opens, and declarations are set apart
by an empty line. How wide a level is does not show in the lines; it is chosen when they are
rendered.

`Program.format` gives the text of a tree, whether or not a parser could have built it, and
`formatSource` parses a text and lays it out again.
-/

namespace SystemsLang

namespace Layout

open Syntax
open Piece (mark blank textOf commas)

/-- How a level of indentation is written: by a number of spaces, or by a tab. -/
structure Options where
  width : Nat := 4
  useTabs : Bool := false
deriving DecidableEq, Inhabited

/-- The text of one level of indentation. -/
def Options.unit (options : Options) : String :=
  if options.useTabs then "\t" else String.ofList (List.replicate options.width ' ')

/-- A line of pieces and the level it is indented to. -/
structure Line where
  level : Nat
  pieces : List Piece
deriving DecidableEq, Inhabited

/-- A line as text, still without indentation. -/
def Line.toText (line : Line) : Text.Line :=
  ⟨line.level, textOf line.pieces⟩

/-- A line that ends in a semicolon. -/
def sentence (level : Nat) (pieces : List Piece) : Line :=
  ⟨level, pieces ++ [mark .semicolon]⟩

/-- Lines between braces, the opening one behind a head. Braces with no line between them stay on
one line. -/
def enclosed (level : Nat) (head : List Piece) (inner : List Line) : List Line :=
  if inner.isEmpty then [⟨level, head ++ [mark .leftBrace, mark .rightBrace]⟩]
  else ⟨level, head ++ [mark .leftBrace]⟩ :: inner ++ [⟨level, [mark .rightBrace]⟩]

/-- A word with an expression in parentheses, and a blank behind it. -/
def conditionHead (word : Token.Kind) (condition : Expr) : List Piece :=
  [mark word, blank, mark .leftParen] ++ condition.pieces ++ [mark .rightParen, blank]

/-- An expression behind a blank, if there is one. -/
def optionalPart : Option Expr → List Piece
  | some value => blank :: value.pieces
  | none => []

/-- What the header of a `for` begins with. Only a variable or an expression is written. -/
def initPieces : Option Stmt → List Piece
  | some (.declare _ declared) => declared.pieces
  | some (.expr _ value) => value.pieces
  | _ => []

/-- The header of a `for`, with a blank behind it. -/
def forHead (init : Option Stmt) (condition step : Option Expr) : List Piece :=
  [mark .forWord, blank, mark .leftParen] ++ initPieces init ++ [mark .semicolon] ++
    optionalPart condition ++ [mark .semicolon] ++ optionalPart step ++
    [mark .rightParen, blank]

/-- The brace that closes one branch with the word that begins the next, and a blank behind it. -/
def elseHead : List Piece :=
  [mark .rightBrace, blank, mark .elseWord, blank]

mutual

/-- The lines of a statement. -/
def stmtLines (level : Nat) : Stmt → List Line
  | .block _ body => enclosed level [] (blockLines (level + 1) body)
  | .returns _ none => [sentence level [mark .returnWord]]
  | .returns _ (some value) => [sentence level ([mark .returnWord, blank] ++ value.pieces)]
  | .branch _ condition body otherwise =>
    ⟨level, conditionHead .ifWord condition ++ [mark .leftBrace]⟩ ::
      blockLines (level + 1) body ++ elseLines level otherwise
  | .whileLoop _ condition body =>
    enclosed level (conditionHead .whileWord condition) (blockLines (level + 1) body)
  | .forLoop _ init condition step body =>
    enclosed level (forHead init condition step) (blockLines (level + 1) body)
  | .breakLoop _ => [sentence level [mark .breakWord]]
  | .continueLoop _ => [sentence level [mark .continueWord]]
  | .expr _ value => [sentence level value.pieces]
  | .comptime _ body =>
    enclosed level [mark .comptimeWord, blank] (blockLines (level + 1) body)
  | .declare _ declared => [sentence level declared.pieces]

/-- The lines from the brace that closes the first branch of an `if`. A chained `if` goes on at the
same level; any other statement is put between braces, which a block has already. -/
def elseLines (level : Nat) : Option Stmt → List Line
  | none => [⟨level, [mark .rightBrace]⟩]
  | some (.branch _ condition body otherwise) =>
    ⟨level, elseHead ++ conditionHead .ifWord condition ++ [mark .leftBrace]⟩ ::
      blockLines (level + 1) body ++ elseLines level otherwise
  | some (.block _ body) =>
    ⟨level, elseHead ++ [mark .leftBrace]⟩ :: blockLines (level + 1) body ++
      [⟨level, [mark .rightBrace]⟩]
  | some other =>
    ⟨level, elseHead ++ [mark .leftBrace]⟩ :: stmtLines (level + 1) other ++
      [⟨level, [mark .rightBrace]⟩]

/-- The lines of several statements. -/
def blockLines (level : Nat) : List Stmt → List Line
  | [] => []
  | first :: rest => stmtLines level first ++ blockLines level rest

end

/-- The lines of a struct, one for each field with a comma behind it. -/
def structLines (declared : StructDecl) : List Line :=
  let head := pubMark declared.isPub ++ [mark .constWord, blank, .name declared.name.name, blank,
    mark .assign, blank, mark .structWord, blank, mark .leftBrace]
  if declared.fields.isEmpty then [sentence 0 (head ++ [mark .rightBrace])]
  else
    ⟨0, head⟩ ::
      declared.fields.map (fun field => ⟨1, typedName field.name field.type ++ [mark .comma]⟩) ++
      [sentence 0 [mark .rightBrace]]

/-- The lines of a top-level declaration. -/
def declLines : Decl → List Line
  | .fn declared => enclosed 0 (declared.headPieces ++ [blank]) (blockLines 1 declared.body)
  | .var declared => [sentence 0 declared.pieces]
  | .struct declared => structLines declared

/-- The lines of a program, with an empty line between each two declarations. -/
def programLines (program : Program) : List Line :=
  [⟨0, []⟩].intercalate (program.map declLines)

end Layout

namespace Syntax

/-- The text of a program under the given options. -/
def Program.format (program : Program) (options : Layout.Options) : String :=
  Text.Line.renderAll options.unit ((Layout.programLines program).map Layout.Line.toText)

end Syntax

/-- Parses a text and lays it out. Only parsing can fail. -/
def formatSource (source : String) (options : Layout.Options) :
    Except Syntax.ParseError String := do
  let program ← Syntax.Program.ofSource source
  return program.format options

end SystemsLang
