import SystemsLang.Proofs.Outline.Forest

/-!
# The forest of a program

The outline of a program is the text of a forest. An expression and a declaration are one tree each,
a block is a tree for each of its statements, and an `if` with an `else` is two trees side by side,
the second of which has the label alone for its text.
-/

namespace SystemsLang.Layout.Outline

/-- A text with a position behind it, and what belongs to it. -/
def placed (text : String) (position : Position) (children : List Tree) : Tree :=
  .node (text ++ " (" ++ position.text ++ ")") children

/-- A tree with a position has a line of its own, with its children indented below. -/
theorem lines_placed (level : Nat) (text : String) (position : Position) (children : List Tree) :
    (placed text position children).lines level =
      node level text position :: Tree.linesAll (level + 1) children := by
  rw [placed, Tree.lines]
  rfl

end SystemsLang.Layout.Outline

namespace SystemsLang.Syntax

open Layout
open Layout.Outline (Tree placed)

/-- The length of an array as an array literal shows it, which may leave it to be counted. -/
def lengthText : Option UInt64 → String
  | some length => toString length.toNat
  | none => "_"

namespace Expr

/-- What the line of an expression says before the position. -/
def label : Expr → String
  | number _ text => "number " ++ text
  | string _ value => "string " ++ (Piece.string value).text
  | bool _ value => "bool " ++ if value then "true" else "false"
  | null _ => "null"
  | undefined _ => "undefined"
  | ident _ name => "ident " ++ name
  | binary _ operator _ _ => "binary " ++ operator.name
  | unary _ operator _ => "unary " ++ operator.name
  | call .. => "call"
  | member _ _ field => "member " ++ field.name
  | index .. => "index"
  | deref .. => "deref"
  | unwrap .. => "unwrap"
  | assign _ operator _ _ => "assign " ++ (operator.map BinaryOp.symbol).getD "" ++ "="
  | structLit _ name _ => "struct literal " ++ name.name
  | arrayLit _ length elementType _ =>
    "array literal [" ++ lengthText length ++ "]" ++ elementType.text

mutual

/-- The trees below an expression. -/
def parts : Expr → List Tree
  | number .. | string .. | bool .. | null _ | undefined _ | ident .. => []
  | binary _ _ left right =>
    [placed left.label left.position left.parts, placed right.label right.position right.parts]
  | unary _ _ operand => [placed operand.label operand.position operand.parts]
  | call _ callee arguments =>
    placed callee.label callee.position callee.parts ::
      if arguments.isEmpty then [] else [.node "arguments" (treesOf arguments)]
  | member _ object _ | deref _ object | unwrap _ object =>
    [placed object.label object.position object.parts]
  | index _ object subscript =>
    [placed object.label object.position object.parts,
      placed subscript.label subscript.position subscript.parts]
  | assign _ _ target value =>
    [placed target.label target.position target.parts,
      placed value.label value.position value.parts]
  | structLit _ _ fields => fieldTrees fields
  | arrayLit _ _ _ elements => treesOf elements

/-- The trees of several expressions. -/
def treesOf : List Expr → List Tree
  | [] => []
  | first :: rest => placed first.label first.position first.parts :: treesOf rest

/-- The trees of the fields of a struct literal. -/
def fieldTrees : List (Ident × Expr) → List Tree
  | [] => []
  | (name, value) :: rest =>
    .node ("field " ++ name.name) [placed value.label value.position value.parts] ::
      fieldTrees rest

end

/-- The tree of an expression. -/
def tree (value : Expr) : Tree :=
  placed value.label value.position value.parts

mutual

/-- The outline of an expression is its tree. -/
theorem lines_tree (value : Expr) (level : Nat) :
    Outline.expr level value = value.tree.lines level := by
  have below (child : Expr) (inductionHypothesis : ∀ level,
      Outline.expr level child = child.tree.lines level) (others : List Tree) :
      Tree.linesAll (level + 1) (placed child.label child.position child.parts :: others) =
        Outline.expr (level + 1) child ++ Tree.linesAll (level + 1) others := by
    rw [inductionHypothesis]
    rfl
  rw [tree, Outline.lines_placed]
  cases value with
  | number | string | bool | null | undefined | ident => rfl
  | binary _ _ left right =>
    rw [parts, below left (lines_tree left), below right (lines_tree right), Outline.expr]
    rw [Tree.linesAll, List.append_nil]
    rfl
  | unary _ _ operand =>
    rw [parts, below operand (lines_tree operand), Outline.expr]
    rw [Tree.linesAll, List.append_nil]
    rfl
  | call _ callee arguments =>
    rw [parts, below callee (lines_tree callee)]
    cases arguments with
    | nil =>
      rw [List.isEmpty_nil, if_pos rfl, Tree.linesAll]
      rfl
    | cons first rest =>
      have inside := lines_treesOf (first :: rest) (level + 2)
      rw [List.isEmpty_cons, if_neg Bool.false_ne_true, Tree.linesAll, Tree.lines, ← inside,
        Tree.linesAll, List.append_nil]
      rfl
  | member _ object _ | deref _ object | unwrap _ object =>
    rw [parts, below object (lines_tree object), Outline.expr]
    rw [Tree.linesAll, List.append_nil]
    rfl
  | index _ object subscript =>
    rw [parts, below object (lines_tree object), below subscript (lines_tree subscript),
      Outline.expr]
    rw [Tree.linesAll, List.append_nil]
    rfl
  | assign _ _ target value =>
    rw [parts, below target (lines_tree target), below value (lines_tree value), Outline.expr]
    rw [Tree.linesAll, List.append_nil]
    rfl
  | structLit _ _ fields =>
    rw [parts, ← lines_fieldTrees fields]
    rfl
  | arrayLit _ length _ elements =>
    rw [parts, ← lines_treesOf elements]
    cases length <;> rfl

/-- The outlines of several expressions are their trees. -/
theorem lines_treesOf (values : List Expr) (level : Nat) :
    Outline.exprs level values = Tree.linesAll level (treesOf values) := by
  match values with
  | [] => rfl
  | first :: rest =>
    rw [Outline.exprs, treesOf, Tree.linesAll, lines_tree first, lines_treesOf rest, tree]

/-- The outlines of fields are their trees. -/
theorem lines_fieldTrees (fields : List (Ident × Expr)) (level : Nat) :
    Outline.fields level fields = Tree.linesAll level (fieldTrees fields) := by
  match fields with
  | [] => rfl
  | (name, value) :: rest =>
    rw [Outline.fields, fieldTrees, Tree.linesAll, Tree.lines, lines_tree value,
      lines_fieldTrees rest, tree]
    simp [Tree.linesAll]

end

end Expr

/-- A label with the tree of an expression, if there is one. -/
def labelledExpr (label : String) : Option Expr → List Tree
  | some value => [.node label [value.tree]]
  | none => []

/-- The tree of an optional expression. -/
def optionalTree : Option Expr → List Tree
  | some value => [value.tree]
  | none => []

/-- The tree of a variable. -/
def VarDecl.tree (declared : VarDecl) : Tree :=
  placed (Piece.textOf declared.headPieces) declared.position (optionalTree declared.init)

namespace Stmt

mutual

/-- The trees of a statement. -/
def trees : Stmt → List Tree
  | block position body => [placed "block" position (treesOf body)]
  | returns position value => [placed "return" position (optionalTree value)]
  | branch position condition body otherwise =>
    placed "if" position (condition.tree :: treesOf body) :: labelled "else" otherwise
  | whileLoop position condition body =>
    [placed "while" position (condition.tree :: treesOf body)]
  | forLoop position init condition step body =>
    [placed "for" position (labelled "init" init ++
      (labelledExpr "cond" condition ++ (labelledExpr "step" step ++ treesOf body)))]
  | breakLoop position => [placed "break" position []]
  | continueLoop position => [placed "continue" position []]
  | expr _ value => [value.tree]
  | comptime position body => [placed "comptime" position (treesOf body)]
  | declare _ declared => [declared.tree]

/-- A label with the trees of a statement, if there is one. -/
def labelled (label : String) : Option Stmt → List Tree
  | some inner => [.node label inner.trees]
  | none => []

/-- The trees of several statements. -/
def treesOf : List Stmt → List Tree
  | [] => []
  | first :: rest => first.trees ++ treesOf rest

end

end Stmt

/-- The tree of a field, which is its line alone. -/
def Field.tree (field : Field) : Tree :=
  .node ("field " ++ Piece.textOf (typedName field.name field.type)) []

/-- The tree of a top-level declaration. -/
def Decl.tree : Decl → Tree
  | fn declared =>
    placed (Piece.textOf declared.headPieces) declared.position (Stmt.treesOf declared.body)
  | var declared => declared.tree
  | struct declared =>
    placed (Piece.textOf (pubMark declared.isPub) ++ "struct " ++ declared.name.name)
      declared.position (declared.fields.map Field.tree)

/-- An expression under a label is printed as its tree is. -/
theorem lines_labelledExpr (label : String) (value : Option Expr) (level : Nat) :
    Outline.labelled level label value = Tree.linesAll level (labelledExpr label value) := by
  cases value with
  | none => rfl
  | some value => simp [Outline.labelled, labelledExpr, Tree.linesAll, Tree.lines, Expr.lines_tree]

/-- An expression that may be absent is printed as its tree is. -/
theorem lines_optionalTree (value : Option Expr) (level : Nat) :
    Outline.optional level value = Tree.linesAll level (optionalTree value) := by
  cases value with
  | none => rfl
  | some value => simp [Outline.optional, optionalTree, Tree.linesAll, Expr.lines_tree]

/-- A variable declaration is printed as its tree is. -/
theorem VarDecl.lines_tree (declared : VarDecl) (level : Nat) :
    Outline.var level declared = declared.tree.lines level := by
  rw [VarDecl.tree, Outline.lines_placed, ← lines_optionalTree, Outline.var]

namespace Stmt

mutual

/-- The outline of a statement is its trees. -/
theorem lines_trees (statement : Stmt) (level : Nat) :
    Outline.stmt level statement = Tree.linesAll level statement.trees := by
  cases statement with
  | block _ body =>
    simp [Outline.stmt, trees, Tree.linesAll, Outline.lines_placed, lines_treesOf body]
  | returns _ value =>
    simp [Outline.stmt, trees, Tree.linesAll, Outline.lines_placed, lines_optionalTree]
  | branch _ condition body otherwise =>
    simp [Outline.stmt, trees, Tree.linesAll, Outline.lines_placed, lines_treesOf body,
      lines_labelled otherwise, Expr.lines_tree]
  | whileLoop _ condition body =>
    simp [Outline.stmt, trees, Tree.linesAll, Outline.lines_placed, lines_treesOf body,
      Expr.lines_tree]
  | forLoop _ init condition step body =>
    simp [Outline.stmt, trees, Tree.linesAll, Tree.linesAll_append, Outline.lines_placed,
      lines_treesOf body, lines_labelled init, lines_labelledExpr]
  | breakLoop | continueLoop => rfl
  | expr _ value => simp [Outline.stmt, trees, Tree.linesAll, Expr.lines_tree]
  | comptime _ body =>
    simp [Outline.stmt, trees, Tree.linesAll, Outline.lines_placed, lines_treesOf body]
  | declare _ declared => simp [Outline.stmt, trees, Tree.linesAll, VarDecl.lines_tree]

/-- So is that of a statement with a label. -/
theorem lines_labelled {label : String} (statement : Option Stmt) (level : Nat) :
    Outline.labelledStmt level label statement =
      Tree.linesAll level (labelled label statement) := by
  match statement with
  | none => rfl
  | some inner =>
    simp [Outline.labelledStmt, labelled, Tree.linesAll, Tree.lines, lines_trees inner]

/-- So are those of several statements. -/
theorem lines_treesOf (statements : List Stmt) (level : Nat) :
    Outline.stmts level statements = Tree.linesAll level (treesOf statements) := by
  match statements with
  | [] => rfl
  | first :: rest =>
    rw [Outline.stmts, treesOf, Tree.linesAll_append, lines_trees first, lines_treesOf rest]

end

end Stmt

/-- A declaration is printed as its tree is. -/
theorem Decl.lines_tree (declared : Decl) : Outline.decl declared = declared.tree.lines 0 := by
  cases declared with
  | fn declared =>
    rw [Outline.decl, Decl.tree, Outline.lines_placed, Stmt.lines_treesOf]
  | var declared => exact declared.lines_tree 0
  | struct declared =>
    rw [Outline.decl, Decl.tree, Outline.lines_placed]
    congr 1
    induction declared.fields with
    | nil => rfl
    | cons first rest inductionHypothesis =>
      rw [List.map_cons, List.map_cons, Tree.linesAll, ← inductionHypothesis]
      rfl

/-- The outline of a program is the text of its forest. -/
theorem Program.outline_eq (program : Program) :
    program.outline =
      Text.Line.renderAll Outline.unit (Tree.linesAll 0 (program.map Decl.tree)) := by
  rw [Program.outline]
  congr 1
  induction program with
  | nil => rfl
  | cons first rest inductionHypothesis =>
    rw [List.flatMap_cons, List.map_cons, Tree.linesAll, Decl.lines_tree, inductionHypothesis]

end SystemsLang.Syntax
