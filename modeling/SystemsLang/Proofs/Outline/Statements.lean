import SystemsLang.Proofs.Outline.Outlined

/-!
# What the trees of a block tell

The first word of a statement's line names the sort of the statement. Where a part may be missing,
the trees below say whether it is there: a part with a label begins with the label alone, which is
the text of no other tree since all others end in a position. So the trees of a block are taken
apart from left to right, an `else` being looked for behind each `if`.

The position of a variable statement is not shown as such. For what the parser gives it is that of
the variable (`Stmt.Aligned`).

Main statement: the trees of a block show all of it but the positions of names, types and expression
statements (`Stmt.outlinedAll_of_trees`).
-/

namespace SystemsLang.Syntax

open Layout Outline
open Layout.Outline (Tree)

namespace Stmt

mutual

/-- Every variable statement in a statement has the position of its variable. -/
def Aligned : Stmt → Prop
  | block _ body | whileLoop _ _ body | comptime _ body => AllAligned body
  | branch _ _ body otherwise => AllAligned body ∧ OptionAligned otherwise
  | forLoop _ init _ _ body => OptionAligned init ∧ AllAligned body
  | declare position declared => position = declared.position
  | returns .. | breakLoop _ | continueLoop _ | expr .. => True

/-- Every variable statement in a block has the position of its variable. -/
def AllAligned : List Stmt → Prop
  | [] => True
  | first :: rest => first.Aligned ∧ AllAligned rest

/-- Every variable statement in an optional statement has the position of its variable. -/
def OptionAligned : Option Stmt → Prop
  | none => True
  | some statement => statement.Aligned

end

end Stmt

/-- Every variable statement in a declaration has the position of its variable. -/
def Decl.Aligned : Decl → Prop
  | fn declared => Stmt.AllAligned declared.body
  | var _ | struct _ => True

end SystemsLang.Syntax

namespace SystemsLang.Grammar

open Syntax

variable {short : Bool} {tokens : List Token} {levels : Nat}

/-- A variable declaration stands where its first word does. -/
theorem DerivesVar.position_eq {isPub : Bool} {position : Position} {declared : VarDecl}
    (derived : DerivesVar isPub position tokens declared levels) :
    position = declared.position := by
  cases derived
  rfl

/-- A declaration that begins a loop header stands where it is declared. -/
theorem ForStart.aligned {init : Option Stmt} (derived : ForStart short tokens init levels) :
    Stmt.OptionAligned init := by
  cases derived with
  | empty | omitted | expr => trivial
  | declare var => exact var.position_eq

/-- What it means for a phrase of statements to be aligned. -/
def StmtPhrase.Aligned : StmtPhrase → Prop
  | .stmt value | .branch value => value.Aligned
  | .block _ inner => Stmt.AllAligned inner
  | .body statements => Stmt.AllAligned statements

/-- What tokens spell is aligned. -/
theorem DerivesStmt.aligned {phrase : StmtPhrase}
    (derived : DerivesStmt short tokens phrase levels) : phrase.Aligned := by
  induction derived with
  | empty | returns | breakLoop | continueLoop | expr => trivial
  | braces _ _ _ inner | branch _ inner | block _ inner => exact inner
  | cons _ _ head tail => exact ⟨head, tail⟩
  | branchOnly _ _ _ _ _ taken => exact ⟨taken, trivial⟩
  | branchElse _ _ _ _ _ _ _ taken last => exact ⟨taken, last⟩
  | branchChain _ _ _ _ _ _ _ taken chained => exact ⟨taken, chained⟩
  | whileLoop _ _ _ _ _ inner | comptime _ _ inner => exact inner
  | forLoop _ _ starts _ _ _ _ _ inner => exact ⟨starts.aligned, inner⟩
  | declare var => exact var.position_eq

/-- In every declaration of a program that is read, declarations stand where statements say. -/
theorem DerivesProgram.aligned {program : Program}
    (derived : DerivesProgram short tokens program levels) :
    ∀ declared ∈ program, declared.Aligned := by
  induction derived with
  | nil => exact fun _ impossible => nomatch impossible
  | cons head _ inductionHypothesis =>
    refine List.forall_mem_cons.mpr ⟨?_, inductionHypothesis⟩
    cases head with
    | fn _ _ _ _ _ _ _ _ inner => exact inner.aligned
    | var | struct => trivial

end SystemsLang.Grammar

namespace SystemsLang.Layout.Outline

/-- The text of a tree. -/
def Tree.text : Tree → String
  | node text _ => text

/-- The trees do not begin with one that has the given text. -/
def Lacks (label : String) (trees : List Tree) : Prop :=
  ∀ tree ∈ trees.head?, tree.text ≠ label

/-- The first of several trees tells its position. -/
theorem placed_cons_injective {text other : String} {position otherPosition : Position}
    {children otherChildren rest others : List Tree}
    (same : placed text position children :: rest =
      placed other otherPosition otherChildren :: others) :
    position = otherPosition ∧ children = otherChildren ∧ rest = others := by
  obtain ⟨sameTree, sameRest⟩ := List.cons.inj same
  obtain ⟨-, samePosition, sameChildren⟩ := placed_injective sameTree
  exact ⟨samePosition, sameChildren, sameRest⟩

/-- A label with trees below it, if there is anything to stand there. -/
def labelledBy (label : String) : Option (List Tree) → List Tree
  | some below => [.node label below]
  | none => []

/-- A part under one label is none under another. -/
theorem lacks_labelledBy {label wanted : String} (differs : label ≠ wanted)
    (below : Option (List Tree)) {rest : List Tree} (lacks : Lacks wanted rest) :
    Lacks wanted (labelledBy label below ++ rest) := by
  cases below with
  | none => exact lacks
  | some below =>
    rintro tree ⟨⟩
    exact differs

/-- What stands with a label is there or not, and is read off if it is: no other tree begins with
the label. -/
theorem labelledBy_append_inj {label : String} {below other : Option (List Tree)}
    {rest others : List Tree} (lacks : Lacks label rest) (otherLacks : Lacks label others)
    (same : labelledBy label below ++ rest = labelledBy label other ++ others) :
    below = other ∧ rest = others := by
  match below, other with
  | none, none => exact ⟨rfl, same⟩
  | none, some other =>
    change rest = .node label other :: others at same
    subst same
    exact absurd rfl (lacks _ rfl)
  | some below, none =>
    change .node label below :: rest = others at same
    subst same
    exact absurd rfl (otherLacks _ rfl)
  | some below, some other =>
    obtain ⟨sameTree, sameRest⟩ := List.cons.inj same
    exact ⟨congrArg some (Tree.node.inj sameTree).2, sameRest⟩

/-- A text with a position ends in a parenthesis, so no label is one. -/
theorem text_placed_ne {label : String} (foreign : label.toList.getLast? ≠ some ')')
    (text : String) (position : Position) (children : List Tree) :
    (placed text position children).text ≠ label := by
  rintro rfl
  refine foreign ?_
  rw [placed, Tree.text, String.toList_append]
  exact List.getLast?_concat

end SystemsLang.Layout.Outline

namespace SystemsLang.Syntax

open Layout Outline
open Layout.Outline (Tree)

/-- An optional expression that nothing stands behind is read off. -/
theorem optionalTree_injective {value other : Option Expr}
    (spellable : ∀ given ∈ value, given.Spellable)
    (otherSpellable : ∀ given ∈ other, given.Spellable)
    (same : optionalTree value = optionalTree other) :
    value.map Expr.outlined = other.map Expr.outlined := by
  match value, other with
  | none, none => rfl
  | none, some _ | some _, none => cases same
  | some value, some other =>
    exact congrArg some (Expr.outlined_of_tree value other (spellable value rfl)
      (otherSpellable other rfl) (List.cons.inj same).1)

/-- An expression under a label, as a tree of its own. -/
theorem labelledExpr_eq (label : String) (value : Option Expr) :
    labelledExpr label value = labelledBy label (value.map fun given => [given.tree]) := by
  cases value <;> rfl

/-- An expression under one label is none under another. -/
theorem lacks_labelledExpr {label wanted : String} (differs : label ≠ wanted)
    (value : Option Expr) {rest : List Tree} (lacks : Lacks wanted rest) :
    Lacks wanted (labelledExpr label value ++ rest) := by
  rw [labelledExpr_eq]
  exact lacks_labelledBy differs _ lacks

/-- An expression with a label is there or not, and is read off if it is. -/
theorem labelledExpr_append_inj {label : String} {value other : Option Expr}
    (spellable : ∀ given ∈ value, given.Spellable)
    (otherSpellable : ∀ given ∈ other, given.Spellable)
    {rest others : List Tree} (lacks : Lacks label rest) (otherLacks : Lacks label others)
    (same : labelledExpr label value ++ rest = labelledExpr label other ++ others) :
    value.map Expr.outlined = other.map Expr.outlined ∧ rest = others := by
  have optional (value : Option Expr) :
      optionalTree value = (value.map fun given => [given.tree]).getD [] := by
    cases value <;> rfl
  rw [labelledExpr_eq, labelledExpr_eq] at same
  obtain ⟨sameTrees, sameRest⟩ := labelledBy_append_inj lacks otherLacks same
  have sameTree : optionalTree value = optionalTree other := by
    rw [optional, sameTrees, optional]
  exact ⟨optionalTree_injective spellable otherSpellable sameTree, sameRest⟩

/-- The tree of a variable shows all of it but the positions of names and types. -/
theorem VarDecl.outlined_of_tree {declared other : VarDecl} (spellable : declared.Spellable)
    (otherSpellable : other.Spellable) (same : declared.tree = other.tree) :
    declared.outlined = other.outlined := by
  obtain ⟨sameHead, samePosition, sameInit⟩ := placed_injective same
  have sameValue := optionalTree_injective spellable.init otherSpellable.init sameInit
  obtain ⟨samePub, sameConst, sameName, sameType, -, -⟩ :=
    VarDecl.mk.inj (VarDecl.head_injective spellable otherSpellable sameHead)
  obtain ⟨isPub, isConst, name, type, init, position⟩ := declared
  obtain ⟨otherPub, otherConst, otherName, otherType, otherInit, otherPosition⟩ := other
  exact VarDecl.mk.injEq .. ▸ ⟨samePub, sameConst, sameName, sameType, sameValue, samePosition⟩

namespace Stmt

/-- What the first line of a statement says before the position. -/
def label : Stmt → String
  | block .. => "block"
  | returns .. => "return"
  | branch .. => "if"
  | whileLoop .. => "while"
  | forLoop .. => "for"
  | breakLoop _ => "break"
  | continueLoop _ => "continue"
  | expr _ value => value.label
  | comptime .. => "comptime"
  | declare _ declared => Piece.textOf declared.headPieces

/-- A statement is printed as a tree under its label, and possibly more behind it. -/
theorem exists_trees (statement : Stmt) : ∃ position children more,
    statement.trees = placed statement.label position children :: more := by
  cases statement <;> exact ⟨_, _, _, rfl⟩

/-- The words that statements begin with, each with the number of its sort in the order of the
type. -/
def words : List (List Char × Nat) :=
  [("block".toList, 0), ("return".toList, 1), ("if".toList, 2), ("while".toList, 3),
    ("for".toList, 4), ("break".toList, 5), ("continue".toList, 6), ("comptime".toList, 8),
    ("const".toList, 9), ("var".toList, 9)]

/-- The number of the sort that a line belongs to. Every other word begins an expression. -/
def sortOf (text : String) : Nat :=
  (words.lookup (firstWord text)).getD 7

/-- The first word of a statement tells its sort. -/
theorem sortOf_label {statement : Stmt} (spellable : statement.Spellable) :
    sortOf statement.label = statement.ctorIdx := by
  cases statement with
  | block => exact (by decide : sortOf "block" = 0)
  | returns => exact (by decide : sortOf "return" = 1)
  | branch => exact (by decide : sortOf "if" = 2)
  | whileLoop => exact (by decide : sortOf "while" = 3)
  | forLoop => exact (by decide : sortOf "for" = 4)
  | breakLoop => exact (by decide : sortOf "break" = 5)
  | continueLoop => exact (by decide : sortOf "continue" = 6)
  | expr position value =>
    have noStatement : words.lookup value.word = none := by cases value <;> rfl
    change sortOf value.label = 7
    rw [sortOf, Expr.word_label, noStatement]
    rfl
  | comptime => exact (by decide : sortOf "comptime" = 8)
  | declare _ declared =>
    obtain ⟨isPub, isConst, name, type, init, place⟩ := declared
    obtain rfl : isPub = false := spellable.1
    cases isConst with
    | false =>
      change sortOf (Piece.textOf (.mark .varWord :: .blank :: _)) = 9
      rw [sortOf, firstWord_textOf _ (by decide)]
      rfl
    | true =>
      change sortOf (Piece.textOf (.mark .constWord :: .blank :: _)) = 9
      rw [sortOf, firstWord_textOf _ (by decide)]
      rfl

/-- A statement under a label, as trees of its own. -/
theorem labelled_eq (label : String) (statement : Option Stmt) :
    labelled label statement = labelledBy label (statement.map trees) := by
  cases statement <;> rfl

/-- Labels of statements end in a position, so a label that does not is none of them. -/
theorem lacks_treesOf {label : String} (foreign : label.toList.getLast? ≠ some ')')
    (statements : List Stmt) : Lacks label (treesOf statements) := by
  cases statements with
  | nil => exact fun _ impossible => nomatch impossible
  | cons first rest =>
    obtain ⟨position, children, more, same⟩ := first.exists_trees
    rw [treesOf, same]
    rintro tree ⟨⟩
    exact text_placed_ne foreign _ _ _

/-- What may stand in the header of a `for` may stand anywhere. -/
theorem spellable_of_spellableStart {start : Stmt} (spellable : start.SpellableStart) :
    start.Spellable := by
  cases start with
  | declare | expr => exact spellable
  | _ => exact spellable.elim

mutual

/-- The trees of a statement show all of it but the positions of names, types and expression
statements, whatever stands behind it but an `else`. -/
theorem outlined_of_trees (statement other : Stmt) (spellable : statement.Spellable)
    (otherSpellable : other.Spellable) (aligned : statement.Aligned)
    (otherAligned : other.Aligned) {rest others : List Tree} (lacks : Lacks "else" rest)
    (otherLacks : Lacks "else" others) (same : statement.trees ++ rest = other.trees ++ others) :
    statement.outlined = other.outlined ∧ rest = others := by
  -- the first lines settle that both are of one sort, before any of the trees below is looked at
  have sameSort : statement.ctorIdx = other.ctorIdx := by
    obtain ⟨_, _, _, trees⟩ := statement.exists_trees
    obtain ⟨_, _, _, otherTrees⟩ := other.exists_trees
    rw [trees, otherTrees] at same
    obtain ⟨sameLabel, -, -⟩ := placed_injective (List.cons.inj same).1
    rw [← sortOf_label spellable, ← sortOf_label otherSpellable, sameLabel]
  cases statement with
  | block position body =>
    cases other with
    | block otherPosition otherBody =>
      obtain ⟨rfl, sameBody, sameRest⟩ := placed_cons_injective same
      rw [outlined, outlined, outlinedAll_of_trees body otherBody spellable otherSpellable aligned
        otherAligned sameBody]
      exact ⟨rfl, sameRest⟩
    | _ => cases sameSort
  | returns position value =>
    cases other with
    | returns otherPosition otherValue =>
      obtain ⟨rfl, sameValue, sameRest⟩ := placed_cons_injective same
      rw [outlined, outlined, optionalTree_injective spellable otherSpellable sameValue]
      exact ⟨rfl, sameRest⟩
    | _ => cases sameSort
  | branch position condition body otherwise =>
    cases other with
    | branch otherPosition otherCondition otherBody otherOtherwise =>
      obtain ⟨test, inner, last⟩ := spellable
      obtain ⟨otherTest, otherInner, otherLast⟩ := otherSpellable
      obtain ⟨rfl, sameParts, sameBehind⟩ := placed_cons_injective same
      obtain ⟨sameCondition, sameBody⟩ := List.cons.inj sameParts
      have spelled {value : Option Stmt} (spellable : SpellableElse value) :
          ∀ given ∈ value, given.Spellable := by
        rintro given rfl
        exact Grammar.spellable_of_spellableElse spellable
      obtain ⟨sameElse, sameRest⟩ := outlinedOption_of_trees otherwise otherOtherwise
        (spelled last) (spelled otherLast) aligned.2 otherAligned.2 lacks otherLacks sameBehind
      rw [outlined, outlined, Expr.outlined_of_tree _ _ test otherTest sameCondition,
        outlinedAll_of_trees body otherBody inner otherInner aligned.1 otherAligned.1 sameBody,
        sameElse]
      exact ⟨rfl, sameRest⟩
    | _ => cases sameSort
  | whileLoop position condition body =>
    cases other with
    | whileLoop otherPosition otherCondition otherBody =>
      obtain ⟨rfl, sameParts, sameRest⟩ := placed_cons_injective same
      obtain ⟨sameCondition, sameBody⟩ := List.cons.inj sameParts
      rw [outlined, outlined,
        Expr.outlined_of_tree _ _ spellable.1 otherSpellable.1 sameCondition,
        outlinedAll_of_trees body otherBody spellable.2 otherSpellable.2 aligned otherAligned
          sameBody]
      exact ⟨rfl, sameRest⟩
    | _ => cases sameSort
  | forLoop position init condition step body =>
    cases other with
    | forLoop otherPosition otherInit otherCondition otherStep otherBody =>
      obtain ⟨start, test, update, inner⟩ := spellable
      obtain ⟨otherStart, otherTest, otherUpdate, otherInner⟩ := otherSpellable
      obtain ⟨rfl, sameParts, sameRest⟩ := placed_cons_injective same
      -- none of the labels begins the body, and each is looked for where the later ones may stand
      obtain ⟨sameInit, sameBehindInit⟩ := outlinedOption_of_trees init otherInit
        (fun given member => spellable_of_spellableStart (start given member))
        (fun given member => spellable_of_spellableStart (otherStart given member))
        aligned.1 otherAligned.1
        (lacks_labelledExpr (by decide) _ (lacks_labelledExpr (by decide) _
          (lacks_treesOf (by decide) body)))
        (lacks_labelledExpr (by decide) _ (lacks_labelledExpr (by decide) _
          (lacks_treesOf (by decide) otherBody)))
        sameParts
      obtain ⟨sameTest, sameBehindTest⟩ := labelledExpr_append_inj test otherTest
        (lacks_labelledExpr (by decide) _ (lacks_treesOf (by decide) body))
        (lacks_labelledExpr (by decide) _ (lacks_treesOf (by decide) otherBody)) sameBehindInit
      obtain ⟨sameStep, sameBody⟩ := labelledExpr_append_inj update otherUpdate
        (lacks_treesOf (by decide) body) (lacks_treesOf (by decide) otherBody) sameBehindTest
      rw [outlined, outlined, sameInit, sameTest, sameStep,
        outlinedAll_of_trees body otherBody inner otherInner aligned.2 otherAligned.2 sameBody]
      exact ⟨rfl, sameRest⟩
    | _ => cases sameSort
  | breakLoop position =>
    cases other with
    | breakLoop otherPosition =>
      obtain ⟨rfl, -, sameRest⟩ := placed_cons_injective same
      exact ⟨rfl, sameRest⟩
    | _ => cases sameSort
  | continueLoop position =>
    cases other with
    | continueLoop otherPosition =>
      obtain ⟨rfl, -, sameRest⟩ := placed_cons_injective same
      exact ⟨rfl, sameRest⟩
    | _ => cases sameSort
  | expr _ value =>
    cases other with
    | expr _ otherValue =>
      obtain ⟨sameTree, sameRest⟩ := List.cons.inj same
      rw [outlined, outlined, Expr.outlined_of_tree _ _ spellable otherSpellable sameTree]
      exact ⟨rfl, sameRest⟩
    | _ => cases sameSort
  | comptime position body =>
    cases other with
    | comptime otherPosition otherBody =>
      obtain ⟨rfl, sameBody, sameRest⟩ := placed_cons_injective same
      rw [outlined, outlined, outlinedAll_of_trees body otherBody spellable otherSpellable aligned
        otherAligned sameBody]
      exact ⟨rfl, sameRest⟩
    | _ => cases sameSort
  | declare position declared =>
    cases other with
    | declare otherPosition otherDeclared =>
      obtain ⟨sameTree, sameRest⟩ := List.cons.inj same
      have samePosition : position = otherPosition := by
        rw [aligned, otherAligned, (placed_injective sameTree).2.1]
      rw [outlined, outlined, samePosition,
        VarDecl.outlined_of_tree spellable.2 otherSpellable.2 sameTree]
      exact ⟨rfl, sameRest⟩
    | _ => cases sameSort

/-- A statement with a label is there or not, and is read off if it is. -/
theorem outlinedOption_of_trees {label : String} (statement other : Option Stmt)
    (spellable : ∀ given ∈ statement, given.Spellable)
    (otherSpellable : ∀ given ∈ other, given.Spellable) (aligned : OptionAligned statement)
    (otherAligned : OptionAligned other) {rest others : List Tree} (lacks : Lacks label rest)
    (otherLacks : Lacks label others)
    (same : labelled label statement ++ rest = labelled label other ++ others) :
    outlinedOption statement = outlinedOption other ∧ rest = others := by
  rw [labelled_eq, labelled_eq] at same
  obtain ⟨sameTrees, sameRest⟩ := labelledBy_append_inj lacks otherLacks same
  refine ⟨?_, sameRest⟩
  match statement, other with
  | none, none => rfl
  | none, some _ | some _, none => cases sameTrees
  | some statement, some other =>
    -- below its label the statement is alone, so nothing behind it can be taken for its `else`
    have nothing : Lacks "else" [] := fun _ impossible => nomatch impossible
    have sameAlone : statement.trees ++ [] = other.trees ++ [] :=
      congrArg (· ++ []) (Option.some.inj sameTrees)
    obtain ⟨sameInner, -⟩ := outlined_of_trees statement other (spellable _ rfl)
      (otherSpellable _ rfl) aligned otherAligned nothing nothing sameAlone
    exact congrArg some sameInner

/-- The trees of a block show all of it but the positions of names, types and expression
statements. -/
theorem outlinedAll_of_trees (statements others : List Stmt) (spellable : AllSpellable statements)
    (otherSpellable : AllSpellable others) (aligned : AllAligned statements)
    (otherAligned : AllAligned others) (same : treesOf statements = treesOf others) :
    outlinedAll statements = outlinedAll others := by
  match statements, others with
  | [], [] => rfl
  | [], other :: others =>
    obtain ⟨_, _, _, trees⟩ := other.exists_trees
    rw [treesOf, treesOf, trees] at same
    cases same
  | first :: rest, [] =>
    obtain ⟨_, _, _, trees⟩ := first.exists_trees
    rw [treesOf, treesOf, trees] at same
    cases same
  | first :: rest, other :: others =>
    obtain ⟨sameFirst, sameRest⟩ := outlined_of_trees first other spellable.1 otherSpellable.1
      aligned.1 otherAligned.1 (lacks_treesOf (by decide) rest) (lacks_treesOf (by decide) others)
      same
    rw [outlinedAll, outlinedAll, sameFirst, outlinedAll_of_trees rest others spellable.2
      otherSpellable.2 aligned.2 otherAligned.2 sameRest]

end

end Stmt

end SystemsLang.Syntax
