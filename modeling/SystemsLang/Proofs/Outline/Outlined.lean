import SystemsLang.Proofs.Outline.Labels

/-!
# Trees as far as their outline shows them

An outline leaves out some positions: those of names, of parameters, of fields and of the names in a
struct literal, those in types, and that of an expression statement. `outlined` takes these out of a
tree, by moving what stands there to the start of the text, and keeps the rest of the tree as it is.

Main statements: the outline does not show what `outlined` takes out (`Decl.tree_outlined`), and for
expressions it shows all the rest (`Expr.outlined_of_tree`).
-/

namespace SystemsLang.Syntax

open Layout Outline
open Layout.Outline (Tree)

namespace Expr

mutual

/-- The expression without the positions of names and types. -/
def outlined : Expr → Expr
  | number position text => number position text
  | string position value => string position value
  | bool position value => bool position value
  | null position => null position
  | undefined position => undefined position
  | ident position name => ident position name
  | binary position operator left right => binary position operator left.outlined right.outlined
  | unary position operator operand => unary position operator operand.outlined
  | call position callee arguments => call position callee.outlined (outlinedAll arguments)
  | member position object field => member position object.outlined field.unplaced
  | index position object subscript => index position object.outlined subscript.outlined
  | deref position object => deref position object.outlined
  | unwrap position object => unwrap position object.outlined
  | assign position operator target value =>
    assign position operator target.outlined value.outlined
  | structLit position name fields => structLit position name.unplaced (outlinedFields fields)
  | arrayLit position length elementType elements =>
    arrayLit position length elementType.unplaced (outlinedAll elements)

/-- Expressions without the positions of names and types. -/
def outlinedAll : List Expr → List Expr
  | [] => []
  | first :: rest => first.outlined :: outlinedAll rest

/-- Named expressions without the positions of names and types. -/
def outlinedFields : List (Ident × Expr) → List (Ident × Expr)
  | [] => []
  | (name, value) :: rest => (name.unplaced, value.outlined) :: outlinedFields rest

end

end Expr

/-- The variable without the positions of names and types. -/
def VarDecl.outlined (declared : VarDecl) : VarDecl :=
  { declared with
    name := declared.name.unplaced
    type := declared.type.map TypeExpr.unplaced
    init := declared.init.map Expr.outlined }

namespace Stmt

mutual

/-- The statement without the positions of names, types and expression statements. -/
def outlined : Stmt → Stmt
  | block position body => block position (outlinedAll body)
  | returns position value => returns position (value.map Expr.outlined)
  | branch position condition body otherwise =>
    branch position condition.outlined (outlinedAll body) (outlinedOption otherwise)
  | whileLoop position condition body =>
    whileLoop position condition.outlined (outlinedAll body)
  | forLoop position init condition step body =>
    forLoop position (outlinedOption init) (condition.map Expr.outlined)
      (step.map Expr.outlined) (outlinedAll body)
  | breakLoop position => breakLoop position
  | continueLoop position => continueLoop position
  | expr _ value => expr Position.start value.outlined
  | comptime position body => comptime position (outlinedAll body)
  | declare position declared => declare position declared.outlined

/-- Statements without the positions of names, types and expression statements. -/
def outlinedAll : List Stmt → List Stmt
  | [] => []
  | first :: rest => first.outlined :: outlinedAll rest

/-- A statement that may be missing, without those positions. -/
def outlinedOption : Option Stmt → Option Stmt
  | none => none
  | some statement => some statement.outlined

end

end Stmt

/-- The declaration without the positions of names, parameters, fields, types and expression
statements. -/
def Decl.outlined : Decl → Decl
  | fn declared =>
    fn { declared with
      name := declared.name.unplaced
      params := declared.params.map Param.unplaced
      returnType := declared.returnType.unplaced
      body := Stmt.outlinedAll declared.body }
  | var declared => var declared.outlined
  | struct declared =>
    struct { declared with
      name := declared.name.unplaced
      fields := declared.fields.map Field.unplaced }

/-- The program without the positions that its outline leaves out. -/
def Program.outlined (program : Program) : Program :=
  program.map Decl.outlined

namespace Expr

/-- What the outline leaves out is in no label. -/
theorem label_outlined (value : Expr) : value.outlined.label = value.label := by
  cases value with
  | arrayLit position length elementType elements =>
    rw [outlined, label_arrayLit, label_arrayLit, TypeExpr.text, TypeExpr.pieces_unplaced,
      TypeExpr.text]
  | _ => rfl

/-- What the outline leaves out is not the position of an expression. -/
theorem position_outlined (value : Expr) : value.outlined.position = value.position := by
  cases value <;> rfl

mutual

/-- What stands below an expression shows no position of a name or a type. -/
theorem parts_outlined (value : Expr) : value.outlined.parts = value.parts := by
  have child (value : Expr) (inductionHypothesis : value.outlined.parts = value.parts) :
      placed value.outlined.label value.outlined.position value.outlined.parts =
        placed value.label value.position value.parts := by
    rw [label_outlined, position_outlined, inductionHypothesis]
  cases value with
  | number | string | bool | null | undefined | ident => rfl
  | binary _ _ left right =>
    rw [outlined, parts, child left (parts_outlined left), child right (parts_outlined right),
      parts]
  | unary _ _ operand => rw [outlined, parts, child operand (parts_outlined operand), parts]
  | call _ callee arguments =>
    rw [outlined, parts, child callee (parts_outlined callee), treesOf_outlined arguments, parts]
    cases arguments <;> rfl
  | member _ object | deref _ object | unwrap _ object =>
    rw [outlined, parts, child object (parts_outlined object), parts]
  | index _ object subscript =>
    rw [outlined, parts, child object (parts_outlined object),
      child subscript (parts_outlined subscript), parts]
  | assign _ _ target value =>
    rw [outlined, parts, child target (parts_outlined target), child value (parts_outlined value),
      parts]
  | structLit _ _ fields => rw [outlined, parts, fieldTrees_outlined fields, parts]
  | arrayLit _ _ _ elements => rw [outlined, parts, treesOf_outlined elements, parts]

/-- Nor do several expressions. -/
theorem treesOf_outlined (values : List Expr) : treesOf (outlinedAll values) = treesOf values := by
  match values with
  | [] => rfl
  | first :: rest =>
    rw [outlinedAll, treesOf, label_outlined, position_outlined, parts_outlined first,
      treesOf_outlined rest, treesOf]

/-- Nor do fields. -/
theorem fieldTrees_outlined (fields : List (Ident × Expr)) :
    fieldTrees (outlinedFields fields) = fieldTrees fields := by
  match fields with
  | [] => rfl
  | (name, value) :: rest =>
    rw [outlinedFields, fieldTrees, label_outlined, position_outlined, parts_outlined value,
      fieldTrees_outlined rest, fieldTrees, Ident.name_unplaced]

end

/-- An expression is printed without what the outline leaves out. -/
@[simp] theorem tree_outlined (value : Expr) : value.outlined.tree = value.tree := by
  rw [tree, label_outlined, position_outlined, parts_outlined, tree]

end Expr

/-- So is an expression that may be absent. -/
@[simp] theorem optionalTree_outlined (value : Option Expr) :
    optionalTree (value.map Expr.outlined) = optionalTree value := by
  cases value <;> simp [optionalTree]

/-- So is an expression under a label. -/
@[simp] theorem labelledExpr_outlined (label : String) (value : Option Expr) :
    labelledExpr label (value.map Expr.outlined) = labelledExpr label value := by
  cases value <;> simp [labelledExpr]

/-- So is a variable declaration. -/
@[simp] theorem VarDecl.tree_outlined (declared : VarDecl) :
    declared.outlined.tree = declared.tree := by
  have head : declared.outlined.headPieces = declared.headPieces := by
    obtain ⟨isPub, isConst, name, type, init, position⟩ := declared
    cases isConst <;> cases type <;> simp [VarDecl.outlined, VarDecl.headPieces]
  rw [VarDecl.tree, head]
  simp [VarDecl.outlined, VarDecl.tree]

namespace Stmt

mutual

/-- The trees of a statement show none of the positions that are taken out. -/
theorem trees_outlined (statement : Stmt) : statement.outlined.trees = statement.trees := by
  cases statement with
  | block _ body => rw [outlined, trees, treesOf_outlined body, trees]
  | returns => simp [outlined, trees]
  | branch _ _ body otherwise =>
    simp [outlined, trees, treesOf_outlined body, labelled_outlined otherwise]
  | whileLoop _ _ body => simp [outlined, trees, treesOf_outlined body]
  | forLoop _ init _ _ body =>
    simp [outlined, trees, treesOf_outlined body, labelled_outlined init]
  | breakLoop | continueLoop => rfl
  | expr => simp [outlined, trees]
  | comptime _ body => rw [outlined, trees, treesOf_outlined body, trees]
  | declare => simp [outlined, trees]

/-- Nor do those of a statement with a label. -/
theorem labelled_outlined {label : String} (statement : Option Stmt) :
    labelled label (outlinedOption statement) = labelled label statement := by
  match statement with
  | none => rfl
  | some inner => rw [outlinedOption, labelled, trees_outlined inner, labelled]

/-- Nor do those of several statements. -/
theorem treesOf_outlined (statements : List Stmt) :
    treesOf (outlinedAll statements) = treesOf statements := by
  match statements with
  | [] => rfl
  | first :: rest =>
    rw [outlinedAll, treesOf, trees_outlined first, treesOf_outlined rest, treesOf]

end

end Stmt

/-- The tree of a declaration shows none of the positions that are taken out. -/
theorem Decl.tree_outlined (declared : Decl) : declared.outlined.tree = declared.tree := by
  cases declared with
  | fn declared =>
    simp [Decl.outlined, Decl.tree, FnDecl.headPieces, Stmt.treesOf_outlined, Function.comp_def]
  | var declared => exact declared.tree_outlined
  | struct declared =>
    have field (field : Field) : field.unplaced.tree = field.tree := by
      rw [Field.tree, Field.unplaced, typedName_unplaced, Field.tree]
    simp [Decl.outlined, Decl.tree, Function.comp_def, field]

namespace Expr

mutual

/-- The tree of an expression shows all of it but the positions of names and types. -/
theorem outlined_of_tree (value other : Expr) (spellable : value.Spellable)
    (otherSpellable : other.Spellable) (same : value.tree = other.tree) :
    value.outlined = other.outlined := by
  obtain ⟨sameLabel, samePosition, sameParts⟩ := placed_injective same
  have sameBare := bare_of_label spellable otherSpellable sameLabel
  -- The label tells the form of both expressions, so of the other one only that form is left.
  cases value with
  | number | string | bool | null | undefined | ident =>
    cases other <;> cases sameBare
    cases samePosition
    rfl
  | binary _ _ left right =>
    cases other with
    | binary _ _ otherLeft otherRight =>
      obtain ⟨sameLeft, sameRest⟩ := List.cons.inj sameParts
      obtain ⟨sameRight, -⟩ := List.cons.inj sameRest
      cases sameBare
      cases samePosition
      rw [outlined, outlined,
        outlined_of_tree left otherLeft spellable.1 otherSpellable.1 sameLeft,
        outlined_of_tree right otherRight spellable.2 otherSpellable.2 sameRight]
    | _ => cases sameBare
  | unary _ _ operand =>
    cases other with
    | unary _ _ otherOperand =>
      obtain ⟨sameOperand, -⟩ := List.cons.inj sameParts
      cases sameBare
      cases samePosition
      rw [outlined, outlined,
        outlined_of_tree operand otherOperand spellable otherSpellable sameOperand]
    | _ => cases sameBare
  | call _ callee arguments =>
    cases other with
    | call _ otherCallee otherArguments =>
      obtain ⟨sameCallee, sameRest⟩ := List.cons.inj sameParts
      have sameArguments : treesOf arguments = treesOf otherArguments := by
        cases arguments <;> cases otherArguments
        · rfl
        · cases sameRest
        · cases sameRest
        · exact (Tree.node.inj (List.cons.inj sameRest).1).2
      cases samePosition
      rw [outlined, outlined,
        outlined_of_tree callee otherCallee spellable.1 otherSpellable.1 sameCallee,
        outlinedAll_of_trees arguments otherArguments spellable.2 otherSpellable.2 sameArguments]
    | _ => cases sameBare
  | member _ object field =>
    cases other with
    | member _ otherObject otherField =>
      obtain ⟨sameObject, -⟩ := List.cons.inj sameParts
      have sameField : field.unplaced = otherField.unplaced := (member.inj sameBare).2.2
      cases samePosition
      rw [outlined, outlined, sameField,
        outlined_of_tree object otherObject spellable.1 otherSpellable.1 sameObject]
    | _ => cases sameBare
  | index _ object subscript =>
    cases other with
    | index _ otherObject otherSubscript =>
      obtain ⟨sameObject, sameRest⟩ := List.cons.inj sameParts
      obtain ⟨sameSubscript, -⟩ := List.cons.inj sameRest
      cases samePosition
      rw [outlined, outlined,
        outlined_of_tree object otherObject spellable.1 otherSpellable.1 sameObject,
        outlined_of_tree subscript otherSubscript spellable.2 otherSpellable.2 sameSubscript]
    | _ => cases sameBare
  | deref _ object =>
    cases other with
    | deref _ otherObject =>
      obtain ⟨sameObject, -⟩ := List.cons.inj sameParts
      cases samePosition
      rw [outlined, outlined,
        outlined_of_tree object otherObject spellable otherSpellable sameObject]
    | _ => cases sameBare
  | unwrap _ object =>
    cases other with
    | unwrap _ otherObject =>
      obtain ⟨sameObject, -⟩ := List.cons.inj sameParts
      cases samePosition
      rw [outlined, outlined,
        outlined_of_tree object otherObject spellable otherSpellable sameObject]
    | _ => cases sameBare
  | assign _ _ target value =>
    cases other with
    | assign _ _ otherTarget otherValue =>
      obtain ⟨sameTarget, sameRest⟩ := List.cons.inj sameParts
      obtain ⟨sameValue, -⟩ := List.cons.inj sameRest
      obtain ⟨-, -, targetSpellable, valueSpellable⟩ := spellable
      obtain ⟨-, -, otherTargetSpellable, otherValueSpellable⟩ := otherSpellable
      cases sameBare
      cases samePosition
      rw [outlined, outlined,
        outlined_of_tree target otherTarget targetSpellable otherTargetSpellable sameTarget,
        outlined_of_tree value otherValue valueSpellable otherValueSpellable sameValue]
    | _ => cases sameBare
  | structLit _ name fields =>
    cases other with
    | structLit _ otherName otherFields =>
      have sameName : name.unplaced = otherName.unplaced := (structLit.inj sameBare).2.1
      cases samePosition
      rw [outlined, outlined, sameName,
        outlinedFields_of_trees fields otherFields spellable.2 otherSpellable.2 sameParts]
    | _ => cases sameBare
  | arrayLit _ length elementType elements =>
    cases other with
    | arrayLit _ otherLength otherType otherElements =>
      obtain ⟨-, sameLength, sameType, -⟩ := arrayLit.inj sameBare
      cases samePosition
      rw [outlined, outlined, sameLength, sameType,
        outlinedAll_of_trees elements otherElements spellable.2 otherSpellable.2 sameParts]
    | _ => cases sameBare

/-- So do the trees of several expressions. -/
theorem outlinedAll_of_trees (values others : List Expr) (spellable : AllSpellable values)
    (otherSpellable : AllSpellable others) (same : treesOf values = treesOf others) :
    outlinedAll values = outlinedAll others := by
  match values, others with
  | [], [] => rfl
  | [], _ :: _ | _ :: _, [] => cases same
  | first :: rest, other :: others =>
    obtain ⟨sameFirst, sameRest⟩ := List.cons.inj same
    rw [outlinedAll, outlinedAll,
      outlined_of_tree first other spellable.1 otherSpellable.1 sameFirst,
      outlinedAll_of_trees rest others spellable.2 otherSpellable.2 sameRest]

/-- So do those of fields. -/
theorem outlinedFields_of_trees (fields others : List (Ident × Expr))
    (spellable : FieldsSpellable fields) (otherSpellable : FieldsSpellable others)
    (same : fieldTrees fields = fieldTrees others) :
    outlinedFields fields = outlinedFields others := by
  match fields, others with
  | [], [] => rfl
  | [], (_, _) :: _ | (_, _) :: _, [] => cases same
  | (name, value) :: rest, (otherName, otherValue) :: others =>
    obtain ⟨sameFirst, sameRest⟩ := List.cons.inj same
    obtain ⟨sameText, sameValue⟩ := Tree.node.inj sameFirst
    have sameName : name.name = otherName.name := (String.append_right_inj "field ").mp sameText
    rw [outlinedFields, outlinedFields, Ident.unplaced, Ident.unplaced, sameName,
      outlined_of_tree value otherValue spellable.2.1 otherSpellable.2.1
        (List.cons.inj sameValue).1,
      outlinedFields_of_trees rest others spellable.2.2 otherSpellable.2.2 sameRest]

end

end Expr

end SystemsLang.Syntax
