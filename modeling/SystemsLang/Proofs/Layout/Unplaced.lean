import SystemsLang.Layout.Source

/-!
# Trees up to positions

Laying a tree out and reading it again moves everything in it to another place and changes nothing
else. To say so, `unplaced` takes the positions out of a tree, by moving every node to the start of
the text; two trees are equal in everything but positions if they are equal after that.

The layout of a tree does not look at positions (`Program.format_unplaced`), so trees that are equal
up to positions have the same text.
-/

namespace SystemsLang.Syntax

/-- The name alone. -/
def Ident.unplaced (name : Ident) : Ident :=
  ⟨name.name, Position.start⟩

/-- The type without its positions. -/
def TypeExpr.unplaced : TypeExpr → TypeExpr
  | primitive _ name => primitive Position.start name
  | named _ name => named Position.start name
  | pointer _ isConst pointee => pointer Position.start isConst pointee.unplaced
  | array _ length element => array Position.start length element.unplaced
  | slice _ isConst element => slice Position.start isConst element.unplaced
  | optional _ inner => optional Position.start inner.unplaced
  | errorUnion _ inner => errorUnion Position.start inner.unplaced

namespace Expr

mutual

/-- The expression without its positions. -/
def unplaced : Expr → Expr
  | number _ text => number Position.start text
  | string _ value => string Position.start value
  | bool _ value => bool Position.start value
  | null _ => null Position.start
  | undefined _ => undefined Position.start
  | ident _ name => ident Position.start name
  | binary _ operator left right =>
    binary Position.start operator left.unplaced right.unplaced
  | unary _ operator operand => unary Position.start operator operand.unplaced
  | call _ callee arguments => call Position.start callee.unplaced (unplacedAll arguments)
  | member _ object field => member Position.start object.unplaced field.unplaced
  | index _ object subscript => index Position.start object.unplaced subscript.unplaced
  | deref _ object => deref Position.start object.unplaced
  | unwrap _ object => unwrap Position.start object.unplaced
  | assign _ operator target value =>
    assign Position.start operator target.unplaced value.unplaced
  | structLit _ name fields => structLit Position.start name.unplaced (unplacedFields fields)
  | arrayLit _ length elementType elements =>
    arrayLit Position.start length elementType.unplaced (unplacedAll elements)

/-- Expressions without their positions. -/
def unplacedAll : List Expr → List Expr
  | [] => []
  | first :: rest => first.unplaced :: unplacedAll rest

/-- Named expressions without their positions. -/
def unplacedFields : List (Ident × Expr) → List (Ident × Expr)
  | [] => []
  | (name, value) :: rest => (name.unplaced, value.unplaced) :: unplacedFields rest

end

/-- Where an expression stands does not matter. -/
@[simp] theorem unplaced_moveTo (position : Position) (value : Expr) :
    (value.moveTo position).unplaced = value.unplaced := by
  cases value <;> rfl

/-- Positions have no part in how tightly an expression binds. -/
@[simp] theorem power_unplaced (value : Expr) : value.unplaced.power = value.power := by
  cases value <;> rfl

/-- Positions have no part in what can be assigned to. -/
@[simp] theorem isPlace_unplaced (value : Expr) : value.unplaced.isPlace = value.isPlace := by
  cases value <;> rfl

end Expr

/-- The variable without its positions. -/
def VarDecl.unplaced (declared : VarDecl) : VarDecl :=
  ⟨declared.isPub, declared.isConst, declared.name.unplaced, declared.type.map TypeExpr.unplaced,
    declared.init.map Expr.unplaced, Position.start⟩

namespace Stmt

mutual

/-- The statement without its positions. -/
def unplaced : Stmt → Stmt
  | block _ body => block Position.start (unplacedAll body)
  | returns _ value => returns Position.start (value.map Expr.unplaced)
  | branch _ condition body otherwise =>
    branch Position.start condition.unplaced (unplacedAll body) (unplacedOption otherwise)
  | whileLoop _ condition body => whileLoop Position.start condition.unplaced (unplacedAll body)
  | forLoop _ init condition step body =>
    forLoop Position.start (unplacedOption init) (condition.map Expr.unplaced)
      (step.map Expr.unplaced) (unplacedAll body)
  | breakLoop _ => breakLoop Position.start
  | continueLoop _ => continueLoop Position.start
  | expr _ value => expr Position.start value.unplaced
  | comptime _ body => comptime Position.start (unplacedAll body)
  | declare _ declared => declare Position.start declared.unplaced

/-- Statements without their positions. -/
def unplacedAll : List Stmt → List Stmt
  | [] => []
  | first :: rest => first.unplaced :: unplacedAll rest

/-- A statement that may be missing, without its positions. -/
def unplacedOption : Option Stmt → Option Stmt
  | none => none
  | some statement => some statement.unplaced

end

end Stmt

/-- The parameter without its positions. -/
def Param.unplaced (param : Param) : Param :=
  ⟨param.isComptime, param.name.unplaced, param.type.unplaced, Position.start⟩

/-- The field without its positions. -/
def Field.unplaced (field : Field) : Field :=
  ⟨field.name.unplaced, field.type.unplaced, Position.start⟩

/-- The declaration without its positions. -/
def Decl.unplaced : Decl → Decl
  | fn declared =>
    fn ⟨declared.isPub, declared.modifier, declared.name.unplaced,
      declared.params.map Param.unplaced, declared.returnType.unplaced,
      Stmt.unplacedAll declared.body, Position.start⟩
  | var declared => var declared.unplaced
  | struct declared =>
    struct ⟨declared.isPub, declared.name.unplaced, declared.fields.map Field.unplaced,
      Position.start⟩

/-- The program without its positions. -/
def Program.unplaced (program : Program) : Program :=
  program.map Decl.unplaced

/-- The name of an identifier stays without its position. -/
@[simp] theorem Ident.name_unplaced (name : Ident) : name.unplaced.name = name.name := rfl

/-- A type is laid out without a look at its positions. -/
@[simp] theorem TypeExpr.pieces_unplaced (type : TypeExpr) :
    type.unplaced.pieces = type.pieces := by
  induction type with
  | primitive | named => rfl
  | pointer _ _ _ inductionHypothesis | array _ _ _ inductionHypothesis
  | slice _ _ _ inductionHypothesis | optional _ _ inductionHypothesis
  | errorUnion _ _ inductionHypothesis => simp [unplaced, pieces, inductionHypothesis]

/-- What a prefix operator needs behind it depends on the operator of its operand alone. -/
@[simp] theorem UnaryOp.pieces_unplaced (operator : UnaryOp) (operand : Expr) :
    operator.pieces operand.unplaced = operator.pieces operand := by
  cases operator with
  | addressOf =>
    cases operand with
    | unary _ inner _ => cases inner <;> rfl
    | _ => rfl
  | negate | not | attempt => rfl

mutual

/-- The pieces of an expression do not show where it stands. -/
@[simp] theorem Expr.pieces_unplaced (value : Expr) : value.unplaced.pieces = value.pieces := by
  cases value with
  | number | string | bool | null | undefined | ident => rfl
  | binary _ _ left right =>
    simp [Expr.unplaced, Expr.pieces, Expr.pieces_unplaced left, Expr.pieces_unplaced right]
  | unary _ _ operand => simp [Expr.unplaced, Expr.pieces, Expr.pieces_unplaced operand]
  | call _ callee arguments =>
    simp [Expr.unplaced, Expr.pieces, Expr.pieces_unplaced callee,
      Expr.piecesOfAll_unplaced arguments]
  | member _ object _ => simp [Expr.unplaced, Expr.pieces, Expr.pieces_unplaced object]
  | index _ object subscript =>
    simp [Expr.unplaced, Expr.pieces, Expr.pieces_unplaced object,
      Expr.pieces_unplaced subscript]
  | deref _ object => simp [Expr.unplaced, Expr.pieces, Expr.pieces_unplaced object]
  | unwrap _ object => simp [Expr.unplaced, Expr.pieces, Expr.pieces_unplaced object]
  | assign _ _ target value =>
    simp [Expr.unplaced, Expr.pieces, Expr.pieces_unplaced target, Expr.pieces_unplaced value]
  | structLit _ _ fields =>
    simp [Expr.unplaced, Expr.pieces, Expr.piecesOfFields_unplaced fields]
  | arrayLit _ _ _ elements =>
    simp [Expr.unplaced, Expr.pieces, Expr.piecesOfAll_unplaced elements]

/-- Nor do those of several expressions. -/
theorem Expr.piecesOfAll_unplaced (values : List Expr) :
    Expr.piecesOfAll (Expr.unplacedAll values) = Expr.piecesOfAll values := by
  cases values with
  | nil => rfl
  | cons first rest =>
    simp [Expr.unplacedAll, Expr.piecesOfAll, Expr.pieces_unplaced first,
      Expr.piecesOfAll_unplaced rest]

/-- Nor those of several named expressions. -/
theorem Expr.piecesOfFields_unplaced (values : List (Ident × Expr)) :
    Expr.piecesOfFields (Expr.unplacedFields values) = Expr.piecesOfFields values := by
  match values with
  | [] => rfl
  | (_, value) :: rest =>
    simp [Expr.unplacedFields, Expr.piecesOfFields, Expr.pieces_unplaced value,
      Expr.piecesOfFields_unplaced rest]

end

/-- A variable declaration is laid out without a look at its positions. -/
@[simp] theorem VarDecl.pieces_unplaced (declared : VarDecl) :
    declared.unplaced.pieces = declared.pieces := by
  obtain ⟨isPub, isConst, name, type, init, position⟩ := declared
  cases isConst <;> cases type <;> cases init <;>
    simp [VarDecl.unplaced, VarDecl.pieces, VarDecl.headPieces]

/-- So is a name with its type. -/
@[simp] theorem typedName_unplaced (name : Ident) (type : TypeExpr) :
    typedName name.unplaced type.unplaced = typedName name type := by
  simp [typedName]

/-- So is a parameter. -/
@[simp] theorem Param.pieces_unplaced (param : Param) : param.unplaced.pieces = param.pieces := by
  obtain ⟨isComptime, name, type, position⟩ := param
  cases isComptime <;> simp [Param.unplaced, Param.pieces]

end SystemsLang.Syntax

namespace SystemsLang.Layout

open Syntax

/-- So is a condition with its word. -/
@[simp] theorem conditionHead_unplaced (word : Token.Kind) (condition : Expr) :
    conditionHead word condition.unplaced = conditionHead word condition := by
  simp [conditionHead]

/-- So is a part of a loop header that may be left out. -/
@[simp] theorem optionalPart_unplaced (value : Option Expr) :
    optionalPart (value.map Expr.unplaced) = optionalPart value := by
  cases value <;> simp [optionalPart]

/-- So is the first part of a loop header. -/
@[simp] theorem initPieces_unplaced (init : Option Stmt) :
    initPieces (Stmt.unplacedOption init) = initPieces init := by
  cases init with
  | none => rfl
  | some statement => cases statement <;> simp [Stmt.unplacedOption, Stmt.unplaced, initPieces]

/-- So is a whole loop header. -/
@[simp] theorem forHead_unplaced (init : Option Stmt) (condition step : Option Expr) :
    forHead (Stmt.unplacedOption init) (condition.map Expr.unplaced) (step.map Expr.unplaced) =
      forHead init condition step := by
  simp [forHead]

mutual

/-- The lines of a statement do not show where it stands. -/
theorem stmtLines_unplaced (level : Nat) (statement : Stmt) :
    stmtLines level statement.unplaced = stmtLines level statement := by
  cases statement with
  | block _ body => simp [Stmt.unplaced, stmtLines, blockLines_unplaced _ body]
  | returns _ value => cases value <;> simp [Stmt.unplaced, stmtLines]
  | branch _ _ body otherwise =>
    simp [Stmt.unplaced, stmtLines, blockLines_unplaced _ body, elseLines_unplaced _ otherwise]
  | whileLoop _ _ body => simp [Stmt.unplaced, stmtLines, blockLines_unplaced _ body]
  | forLoop _ _ _ _ body => simp [Stmt.unplaced, stmtLines, blockLines_unplaced _ body]
  | breakLoop | continueLoop => rfl
  | expr | declare => simp [Stmt.unplaced, stmtLines]
  | comptime _ body => simp [Stmt.unplaced, stmtLines, blockLines_unplaced _ body]

/-- Nor do those from the brace that closes the first branch of an `if`. -/
theorem elseLines_unplaced (level : Nat) (otherwise : Option Stmt) :
    elseLines level (Stmt.unplacedOption otherwise) = elseLines level otherwise := by
  match otherwise with
  | none => rfl
  | some (.branch _ _ body other) =>
    simp [Stmt.unplacedOption, Stmt.unplaced, elseLines, blockLines_unplaced _ body,
      elseLines_unplaced _ other]
  | some (.block _ body) =>
    simp [Stmt.unplacedOption, Stmt.unplaced, elseLines, blockLines_unplaced _ body]
  | some (.returns position value) =>
    have lines := stmtLines_unplaced (level + 1) (.returns position value)
    simp only [Stmt.unplaced] at lines
    simp [Stmt.unplacedOption, Stmt.unplaced, elseLines, lines]
  | some (.whileLoop position condition body) =>
    have lines := stmtLines_unplaced (level + 1) (.whileLoop position condition body)
    simp only [Stmt.unplaced] at lines
    simp [Stmt.unplacedOption, Stmt.unplaced, elseLines, lines]
  | some (.forLoop position init condition step body) =>
    have lines := stmtLines_unplaced (level + 1) (.forLoop position init condition step body)
    simp only [Stmt.unplaced] at lines
    simp [Stmt.unplacedOption, Stmt.unplaced, elseLines, lines]
  | some (.comptime position body) =>
    have lines := stmtLines_unplaced (level + 1) (.comptime position body)
    simp only [Stmt.unplaced] at lines
    simp [Stmt.unplacedOption, Stmt.unplaced, elseLines, lines]
  | some (.breakLoop _) | some (.continueLoop _) => rfl
  | some (.expr _ _) | some (.declare _ _) =>
    simp [Stmt.unplacedOption, Stmt.unplaced, elseLines, stmtLines]

/-- Nor do those of several statements. -/
theorem blockLines_unplaced (level : Nat) (body : List Stmt) :
    blockLines level (Stmt.unplacedAll body) = blockLines level body := by
  cases body with
  | nil => rfl
  | cons first rest =>
    simp [Stmt.unplacedAll, blockLines, stmtLines_unplaced _ first, blockLines_unplaced _ rest]

end

/-- The lines of a declaration do not depend on its positions. -/
@[simp] theorem declLines_unplaced (declared : Decl) :
    declLines declared.unplaced = declLines declared := by
  cases declared with
  | fn declared =>
    simp [Decl.unplaced, declLines, FnDecl.headPieces, blockLines_unplaced, Function.comp_def]
  | var declared => simp [Decl.unplaced, declLines]
  | struct declared =>
    simp [Decl.unplaced, declLines, structLines, Field.unplaced, Function.comp_def]

end SystemsLang.Layout

namespace SystemsLang.Syntax

/-- The text of a program does not show where anything stood before. -/
theorem Program.format_unplaced (program : Program) (options : Layout.Options) :
    program.unplaced.format options = program.format options := by
  simp [Program.format, Program.unplaced, Layout.programLines, Function.comp_def]

end SystemsLang.Syntax
