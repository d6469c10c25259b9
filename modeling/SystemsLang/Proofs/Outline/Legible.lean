import SystemsLang.Proofs.Outline.Labels

/-!
# The forest of a program is legible

What the grammar lets a name, a number or a type be has no line break in it, and a line break in a
string literal is written as an escape. So no text in the forest of a spellable program runs over
its line, and each begins with a word.
-/

namespace SystemsLang.Syntax

open Layout Outline
open Layout.Outline.Tree (EachLegible eachLegible_append)
namespace Expr

mutual

/-- What stands below an expression is legible. -/
theorem eachLegible_parts (value : Expr) (spellable : value.Spellable) :
    EachLegible value.parts := by
  have single (child : Expr) (inductionHypothesis : child.Spellable → EachLegible child.parts)
      (spellable : child.Spellable) : child.tree.AllLegible :=
    ⟨(legible_label spellable).placed _, inductionHypothesis spellable⟩
  cases value with
  | number | string | bool | null | undefined | ident => trivial
  | binary _ _ left right =>
    exact ⟨single left (eachLegible_parts left) spellable.1,
      single right (eachLegible_parts right) spellable.2, trivial⟩
  | unary _ _ operand => exact ⟨single operand (eachLegible_parts operand) spellable, trivial⟩
  | call _ callee arguments =>
    refine ⟨single callee (eachLegible_parts callee) spellable.1, ?_⟩
    split
    · trivial
    · exact ⟨⟨by decide, eachLegible_treesOf arguments spellable.2⟩, trivial⟩
  | member _ object => exact ⟨single object (eachLegible_parts object) spellable.1, trivial⟩
  | deref _ object | unwrap _ object =>
    exact ⟨single object (eachLegible_parts object) spellable, trivial⟩
  | index _ object subscript =>
    exact ⟨single object (eachLegible_parts object) spellable.1,
      single subscript (eachLegible_parts subscript) spellable.2, trivial⟩
  | assign _ _ target value =>
    exact ⟨single target (eachLegible_parts target) spellable.2.2.1,
      single value (eachLegible_parts value) spellable.2.2.2, trivial⟩
  | structLit _ _ fields => exact eachLegible_fieldTrees fields spellable.2
  | arrayLit _ _ _ elements => exact eachLegible_treesOf elements spellable.2

/-- So are the trees of several expressions. -/
theorem eachLegible_treesOf (values : List Expr) (spellable : AllSpellable values) :
    EachLegible (treesOf values) := by
  match values with
  | [] => trivial
  | first :: rest =>
    exact ⟨⟨(legible_label spellable.1).placed _, eachLegible_parts first spellable.1⟩,
      eachLegible_treesOf rest spellable.2⟩

/-- So are those of fields. -/
theorem eachLegible_fieldTrees (fields : List (Ident × Expr)) (spellable : FieldsSpellable fields) :
    EachLegible (fieldTrees fields) := by
  match fields with
  | [] => trivial
  | (name, value) :: rest =>
    obtain ⟨identifier, spellable, later⟩ := spellable
    exact ⟨⟨legible_name (by decide : Legible "field ") identifier,
      ⟨(legible_label spellable).placed _, eachLegible_parts value spellable⟩, trivial⟩,
      eachLegible_fieldTrees rest later⟩

end

/-- The tree of an expression is legible. -/
theorem allLegible_tree {value : Expr} (spellable : value.Spellable) : value.tree.AllLegible :=
  ⟨(legible_label spellable).placed _, eachLegible_parts value spellable⟩

end Expr

/-- An expression that may be absent is legible if it is there. -/
theorem eachLegible_optionalTree {value : Option Expr}
    (spellable : ∀ given ∈ value, given.Spellable) : EachLegible (optionalTree value) := by
  cases value with
  | none => trivial
  | some value => exact ⟨Expr.allLegible_tree (spellable value rfl), trivial⟩

/-- An expression is legible under a legible label. -/
theorem eachLegible_labelledExpr {label : String} (legible : Legible label) {value : Option Expr}
    (spellable : ∀ given ∈ value, given.Spellable) :
    EachLegible (labelledExpr label value) := by
  cases value with
  | none => trivial
  | some value => exact ⟨⟨legible, Expr.allLegible_tree (spellable value rfl), trivial⟩, trivial⟩

/-- Joined pieces that begin with a mark are legible. -/
theorem legible_textOf {kind : Token.Kind} {pieces : List Piece}
    (joined : Piece.Joined (.mark kind :: pieces)) :
    Legible (Piece.textOf (.mark kind :: pieces)) := by
  have split : Piece.textOf (.mark kind :: pieces) = kind.describe ++ Piece.textOf pieces := by
    apply String.toList_injective
    rw [Piece.toList_textOf_cons, String.toList_append]
    rfl
  have word : Legible kind.describe := by
    cases kind <;> decide
  rw [split]
  exact word.append (Piece.newline_notMem_textOf joined.2.2)

/-- The head of a variable is legible. -/
theorem VarDecl.legible_head {declared : VarDecl} (spellable : declared.Spellable) :
    Legible (Piece.textOf declared.headPieces) := by
  have joined := whole_varHead spellable [] trivial fun _ impossible => nomatch impossible
  rw [List.append_nil] at joined
  obtain ⟨kind, pieces, same⟩ : ∃ kind pieces, declared.headPieces = .mark kind :: pieces := by
    obtain ⟨isPub, isConst, name, type, init, position⟩ := declared
    cases isPub <;> cases isConst <;> exact ⟨_, _, rfl⟩
  rw [same] at joined ⊢
  exact legible_textOf joined

/-- The head of a function is legible. -/
theorem FnDecl.legible_head {declared : FnDecl} (spellable : (Decl.fn declared).Spellable) :
    Legible (Piece.textOf declared.headPieces) := by
  have joined := whole_fnHead spellable [] trivial fun _ impossible => nomatch impossible
  rw [List.append_nil] at joined
  obtain ⟨kind, pieces, same⟩ : ∃ kind pieces, declared.headPieces = .mark kind :: pieces := by
    obtain ⟨isPub, modifier, name, params, type, body, position⟩ := declared
    rcases modifier with _ | _ | _ <;> cases isPub <;> exact ⟨_, _, rfl⟩
  rw [same] at joined ⊢
  exact legible_textOf joined

/-- A variable declaration is legible. -/
theorem VarDecl.allLegible_tree {declared : VarDecl} (spellable : declared.Spellable) :
    declared.tree.AllLegible :=
  ⟨(VarDecl.legible_head spellable).placed _, eachLegible_optionalTree spellable.init⟩

namespace Stmt

mutual

/-- The trees of a statement are legible. -/
theorem eachLegible_trees (statement : Stmt) (spellable : statement.Spellable) :
    EachLegible statement.trees := by
  have single {text : String} {position : Position} {children : List Tree} (legible : Legible text)
      (below : EachLegible children) : EachLegible [placed text position children] :=
    ⟨⟨legible.placed position, below⟩, trivial⟩
  cases statement with
  | block _ body => exact single (by decide) (eachLegible_treesOf body spellable)
  | returns _ value => exact single (by decide) (eachLegible_optionalTree spellable)
  | branch _ condition body otherwise =>
    obtain ⟨test, inner, other⟩ := spellable
    exact ⟨⟨Legible.placed (by decide) _, Expr.allLegible_tree test,
      eachLegible_treesOf body inner⟩, eachLegible_else otherwise other⟩
  | whileLoop _ condition body =>
    exact single (by decide)
      ⟨Expr.allLegible_tree spellable.1, eachLegible_treesOf body spellable.2⟩
  | forLoop _ init condition step body =>
    obtain ⟨start, test, update, inner⟩ := spellable
    refine single (by decide) (eachLegible_append.mpr ⟨?_, eachLegible_append.mpr
      ⟨eachLegible_labelledExpr (by decide) test, eachLegible_append.mpr
        ⟨eachLegible_labelledExpr (by decide) update, eachLegible_treesOf body inner⟩⟩⟩)
    cases init with
    | none => trivial
    | some given =>
      refine ⟨⟨by decide, ?_⟩, trivial⟩
      cases given with
      | declare _ declared =>
        exact ⟨VarDecl.allLegible_tree (start _ rfl).2, trivial⟩
      | expr _ value => exact ⟨Expr.allLegible_tree (start _ rfl), trivial⟩
      | _ => exact absurd (start _ rfl) id
  | breakLoop => exact single (by decide) trivial
  | continueLoop => exact single (by decide) trivial
  | expr _ value => exact ⟨Expr.allLegible_tree spellable, trivial⟩
  | comptime _ body => exact single (by decide) (eachLegible_treesOf body spellable)
  | declare _ declared => exact ⟨VarDecl.allLegible_tree spellable.2, trivial⟩

/-- So are the trees of what stands behind `else`. -/
theorem eachLegible_else (otherwise : Option Stmt) (spellable : SpellableElse otherwise) :
    EachLegible (labelled "else" otherwise) := by
  match otherwise with
  | none => trivial
  | some (.block position body) =>
    exact ⟨⟨by decide, eachLegible_trees (.block position body) spellable⟩, trivial⟩
  | some (.branch position condition body other) =>
    exact ⟨⟨by decide, eachLegible_trees (.branch position condition body other) spellable⟩,
      trivial⟩

/-- So are those of several statements. -/
theorem eachLegible_treesOf (statements : List Stmt) (spellable : AllSpellable statements) :
    EachLegible (treesOf statements) := by
  match statements with
  | [] => trivial
  | first :: rest =>
    exact eachLegible_append.mpr
      ⟨eachLegible_trees first spellable.1, eachLegible_treesOf rest spellable.2⟩

end

end Stmt

/-- The tree of a declaration is legible. -/
theorem Decl.allLegible_tree {declared : Decl} (spellable : declared.Spellable) :
    declared.tree.AllLegible := by
  cases declared with
  | fn declared =>
    exact ⟨(FnDecl.legible_head spellable).placed _,
      Stmt.eachLegible_treesOf declared.body spellable.2.2.2⟩
  | var declared => exact VarDecl.allLegible_tree spellable
  | struct declared =>
    obtain ⟨isPub, name, fields, position⟩ := declared
    obtain ⟨identifier, fieldsSpellable⟩ := spellable
    have word : Legible (Piece.textOf (pubMark isPub) ++ "struct ") := by
      cases isPub <;> decide
    refine ⟨(legible_name word identifier).placed _, ?_⟩
    clear identifier
    induction fields with
    | nil => trivial
    | cons first rest inductionHypothesis =>
      obtain ⟨here, later⟩ := List.forall_mem_cons.mp fieldsSpellable
      have joined := whole_typedName here.1 here.2 [] trivial fun _ impossible => nomatch impossible
      rw [List.append_nil] at joined
      exact ⟨⟨(by decide : Legible "field ").append (Piece.newline_notMem_textOf joined), trivial⟩,
        inductionHypothesis later⟩

/-- The forest of a spellable program is legible. -/
theorem Program.eachLegible_trees {program : Program} (spellable : program.Spellable) :
    EachLegible (program.map Decl.tree) := by
  induction program with
  | nil => trivial
  | cons first rest inductionHypothesis =>
    obtain ⟨here, later⟩ := List.forall_mem_cons.mp spellable
    exact ⟨Decl.allLegible_tree here, inductionHypothesis later⟩

end SystemsLang.Syntax
