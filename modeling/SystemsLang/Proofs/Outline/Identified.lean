import SystemsLang.Proofs.Outline.Legible
import SystemsLang.Proofs.Outline.Statements

/-!
# The outline identifies the program

The text of an outline gives the forest back, the forest gives each declaration back, and a
declaration is given back by the head on its line and the trees below. What is not given back are
the positions that no line shows, and nothing but these is taken out by `outlined`.

Main statement: two programs that the parser gives have the same outline exactly if they are equal
up to the positions of names, parameters, fields, types and expression statements
(`outline_eq_iff`).
-/

namespace SystemsLang.Syntax

open Layout Outline
open Layout.Outline (Tree)

/-- The word behind the one that makes a declaration visible elsewhere, if it stands there, and
otherwise the first word. -/
def keywordOf (text : String) : List Char :=
  if firstWord text = "pub".toList then (text.toList.drop 4).takeWhile (· ≠ ' ') else firstWord text

/-- The keyword of a declaration is found whether or not it is visible elsewhere. -/
theorem keywordOf_textOf (isPub : Bool) {kind : Token.Kind} (pieces : List Piece)
    (whole : ' ' ∉ kind.describe.toList) (noPub : kind.describe.toList ≠ "pub".toList) :
    keywordOf (Piece.textOf (pubMark isPub ++ .mark kind :: .blank :: pieces)) =
      kind.describe.toList := by
  have word := firstWord_textOf pieces whole
  cases isPub with
  | false =>
    change keywordOf (Piece.textOf (.mark kind :: .blank :: pieces)) = _
    rw [keywordOf, word, if_neg noPub]
  | true =>
    change keywordOf (Piece.textOf (.mark .pubWord :: .blank :: .mark kind :: .blank :: pieces)) = _
    rw [keywordOf, firstWord_textOf _ (by decide), if_pos (by decide),
      Piece.toList_textOf_cons, Piece.toList_textOf_cons]
    exact word

namespace Decl

/-- What the first line of a declaration says before the position. -/
def label : Decl → String
  | fn declared => Piece.textOf declared.headPieces
  | var declared => Piece.textOf declared.headPieces
  | struct declared => Piece.textOf (pubMark declared.isPub) ++ "struct " ++ declared.name.name

/-- A declaration is printed as a tree under its label. -/
theorem exists_tree (declared : Decl) :
    ∃ position children, declared.tree = placed declared.label position children := by
  cases declared <;> exact ⟨_, _, rfl⟩

/-- The keywords of declarations, each with the number of its sort in the order of the type. -/
def keywords : List (Token.Kind × Nat) :=
  [(.inlineWord, 0), (.comptimeWord, 0), (.fnWord, 0), (.constWord, 1), (.varWord, 1),
    (.structWord, 2)]

/-- Every declaration begins with its keyword, behind the word that makes it visible elsewhere. -/
theorem exists_keyword (declared : Decl) : ∃ isPub kind pieces,
    declared.label = Piece.textOf (pubMark isPub ++ Piece.mark kind :: Piece.blank :: pieces) ∧
      (kind, declared.ctorIdx) ∈ keywords := by
  cases declared with
  | fn declared =>
    obtain ⟨isPub, modifier, name, params, type, body, position⟩ := declared
    have head : FnDecl.headPieces ⟨isPub, modifier, name, params, type, body, position⟩ =
        pubMark isPub ++ ((modifier.map FnModifier.pieces).getD [] ++
          ([Piece.mark .fnWord, Piece.blank, Piece.name name.name, Piece.mark .leftParen] ++
            (Piece.commas (params.map Param.pieces) ++
              ([Piece.mark .rightParen, Piece.blank] ++ type.pieces)))) := by
      simp only [FnDecl.headPieces, List.append_assoc]
    rcases modifier with _ | _ | _
    · exact ⟨isPub, .fnWord, _, congrArg Piece.textOf head,
        (by decide : (.fnWord, 0) ∈ keywords)⟩
    · exact ⟨isPub, .inlineWord, _, congrArg Piece.textOf head,
        (by decide : (.inlineWord, 0) ∈ keywords)⟩
    · exact ⟨isPub, .comptimeWord, _, congrArg Piece.textOf head,
        (by decide : (.comptimeWord, 0) ∈ keywords)⟩
  | var declared =>
    obtain ⟨isPub, isConst, name, type, init, position⟩ := declared
    have head : VarDecl.headPieces ⟨isPub, isConst, name, type, init, position⟩ = _ :=
      List.append_assoc (pubMark isPub) _ _
    cases isConst with
    | false =>
      exact ⟨isPub, .varWord, _, congrArg Piece.textOf head,
        (by decide : (.varWord, 1) ∈ keywords)⟩
    | true =>
      exact ⟨isPub, .constWord, _, congrArg Piece.textOf head,
        (by decide : (.constWord, 1) ∈ keywords)⟩
  | struct declared =>
    refine ⟨declared.isPub, .structWord, [.name declared.name.name], ?_,
      (by decide : (.structWord, 2) ∈ keywords)⟩
    have nothing : (Piece.textOf []).toList = [] := rfl
    apply String.toList_injective
    rw [Piece.toList_textOf_append, label, String.toList_append, String.toList_append,
      List.append_assoc]
    simp only [Piece.toList_textOf_cons, nothing, List.append_nil]
    rfl

/-- The first line of a declaration tells its sort. -/
theorem ctorIdx_of_label {declared other : Decl} (same : declared.label = other.label) :
    declared.ctorIdx = other.ctorIdx := by
  obtain ⟨isPub, kind, pieces, label, keyword⟩ := declared.exists_keyword
  obtain ⟨otherPub, otherKind, otherPieces, otherLabel, otherKeyword⟩ := other.exists_keyword
  have plain : ∀ entry ∈ keywords,
      ' ' ∉ entry.1.describe.toList ∧ entry.1.describe.toList ≠ "pub".toList := by decide
  have distinct : ∀ entry ∈ keywords, ∀ other ∈ keywords,
      entry.1.describe.toList = other.1.describe.toList → entry.2 = other.2 := by decide
  have word := keywordOf_textOf isPub pieces (plain _ keyword).1 (plain _ keyword).2
  have otherWord := keywordOf_textOf otherPub otherPieces (plain _ otherKeyword).1
    (plain _ otherKeyword).2
  rw [label, otherLabel] at same
  rw [same] at word
  exact distinct _ keyword _ otherKeyword (word.symm.trans otherWord)

/-- The line of a struct tells whether it is visible elsewhere, and its name. -/
theorem structLabel_injective {isPub otherPub : Bool} {name other : String}
    (same : Piece.textOf (pubMark isPub) ++ "struct " ++ name =
      Piece.textOf (pubMark otherPub) ++ "struct " ++ other) : isPub = otherPub ∧ name = other := by
  have first := congrArg (fun text => text.toList.head?) same
  simp only [String.toList_append] at first
  cases isPub <;> cases otherPub
  · exact ⟨rfl, (String.append_right_inj _).mp same⟩
  · exact absurd (Option.some.inj first : 's' = 'p') (by decide)
  · exact absurd (Option.some.inj first : 'p' = 's') (by decide)
  · exact ⟨rfl, (String.append_right_inj _).mp same⟩

end Decl

/-- The lines of fields tell the fields. -/
theorem unplaced_of_fields {fields others : List Field}
    (spellable : ∀ field ∈ fields, field.Spellable)
    (otherSpellable : ∀ field ∈ others, field.Spellable)
    (same : fields.map Field.tree = others.map Field.tree) :
    fields.map Field.unplaced = others.map Field.unplaced := by
  induction fields generalizing others with
  | nil =>
    cases others with
    | nil => rfl
    | cons => cases same
  | cons first rest inductionHypothesis =>
    cases others with
    | nil => cases same
    | cons other others =>
      obtain ⟨here, later⟩ := List.forall_mem_cons.mp spellable
      obtain ⟨otherHere, otherLater⟩ := List.forall_mem_cons.mp otherSpellable
      obtain ⟨sameFirst, sameRest⟩ := List.cons.inj same
      obtain ⟨sameName, sameType⟩ := typedName_injective here.1 otherHere.1 here.2 otherHere.2
        ((String.append_right_inj "field ").mp (Outline.Tree.node.inj sameFirst).1)
      rw [List.map_cons, List.map_cons, inductionHypothesis later otherLater sameRest,
        Field.unplaced, Field.unplaced, sameName, sameType]

namespace Decl

/-- The tree of a declaration shows all of it but the positions of names, parameters, fields, types
and expression statements. -/
theorem outlined_of_tree {declared other : Decl} (spellable : declared.Spellable)
    (otherSpellable : other.Spellable) (aligned : declared.Aligned) (otherAligned : other.Aligned)
    (same : declared.tree = other.tree) : declared.outlined = other.outlined := by
  have sameSort : declared.ctorIdx = other.ctorIdx := by
    obtain ⟨_, _, tree⟩ := declared.exists_tree
    obtain ⟨_, _, otherTree⟩ := other.exists_tree
    rw [tree, otherTree] at same
    exact ctorIdx_of_label (placed_injective same).1
  cases declared with
  | fn declared =>
    cases other with
    | fn other =>
      obtain ⟨sameHead, samePosition, sameBody⟩ := placed_injective same
      have sameBlock := Stmt.outlinedAll_of_trees declared.body other.body spellable.2.2.2
        otherSpellable.2.2.2 aligned otherAligned sameBody
      obtain ⟨samePub, sameModifier, sameName, sameParams, sameType, -, -⟩ :=
        FnDecl.mk.inj (fn.inj (FnDecl.head_injective spellable otherSpellable sameHead))
      obtain ⟨isPub, modifier, name, params, type, body, position⟩ := declared
      obtain ⟨otherPub, otherModifier, otherName, otherParams, otherType, otherBody,
        otherPosition⟩ := other
      exact congrArg fn (FnDecl.mk.injEq .. ▸ ⟨samePub, sameModifier, sameName, sameParams,
        sameType, sameBlock, samePosition⟩)
    | _ => cases sameSort
  | var declared =>
    cases other with
    | var other => exact congrArg var (VarDecl.outlined_of_tree spellable otherSpellable same)
    | _ => cases sameSort
  | struct declared =>
    cases other with
    | struct other =>
      obtain ⟨sameHead, samePosition, sameFields⟩ := placed_injective same
      obtain ⟨samePub, sameName⟩ := structLabel_injective sameHead
      have fields := unplaced_of_fields spellable.2 otherSpellable.2 sameFields
      rw [outlined, outlined, samePub, Ident.unplaced, sameName, fields, samePosition]
      rfl
    | _ => cases sameSort

end Decl

/-- The forest of a program shows all of it but those positions. -/
theorem Program.outlined_of_trees {program other : Program} (spellable : program.Spellable)
    (otherSpellable : other.Spellable) (aligned : ∀ declared ∈ program, declared.Aligned)
    (otherAligned : ∀ declared ∈ other, declared.Aligned)
    (same : program.map Decl.tree = other.map Decl.tree) : program.outlined = other.outlined := by
  induction program generalizing other with
  | nil =>
    cases other with
    | nil => rfl
    | cons => cases same
  | cons first rest inductionHypothesis =>
    cases other with
    | nil => cases same
    | cons otherFirst others =>
      obtain ⟨here, later⟩ := List.forall_mem_cons.mp spellable
      obtain ⟨otherHere, otherLater⟩ := List.forall_mem_cons.mp otherSpellable
      obtain ⟨firstAligned, restAligned⟩ := List.forall_mem_cons.mp aligned
      obtain ⟨otherFirstAligned, othersAligned⟩ := List.forall_mem_cons.mp otherAligned
      obtain ⟨sameFirst, sameRest⟩ := List.cons.inj same
      rw [Program.outlined, Program.outlined, List.map_cons, List.map_cons,
        Decl.outlined_of_tree here otherHere firstAligned otherFirstAligned sameFirst]
      exact congrArg _ (inductionHypothesis later otherLater restAligned othersAligned sameRest)

/-- What the parser gives is aligned. -/
theorem Program.aligned_of_ofSource {source : String} {program : Program}
    (parsed : Program.ofSource source = .ok program) : ∀ declared ∈ program, declared.Aligned := by
  obtain ⟨levels, -, derived⟩ := Grammar.derives_of_ofSource parsed
  exact derived.aligned

/-- Two programs that the parser gives have the same outline exactly if they differ at most in the
positions of names, parameters, fields, types and expression statements. -/
theorem Program.outline_eq_iff {first second : String} {program other : Program}
    (parsed : Program.ofSource first = .ok program)
    (otherParsed : Program.ofSource second = .ok other) :
    program.outline = other.outline ↔ program.outlined = other.outlined := by
  have spellable := spellable_of_ofSource parsed
  have otherSpellable := spellable_of_ofSource otherParsed
  constructor
  · intro same
    rw [Program.outline_eq, Program.outline_eq] at same
    have sameTrees : program.map Decl.tree = other.map Decl.tree :=
      forest_injective (Program.eachLegible_trees spellable)
        (Program.eachLegible_trees otherSpellable) same
    exact Program.outlined_of_trees spellable otherSpellable (Program.aligned_of_ofSource parsed)
      (Program.aligned_of_ofSource otherParsed) sameTrees
  · intro same
    have trees (program : Program) : program.outlined.map Decl.tree = program.map Decl.tree := by
      rw [Program.outlined, List.map_map]
      exact List.map_congr_left fun declared _ => declared.tree_outlined
    rw [Program.outline_eq, Program.outline_eq, ← trees program, same, trees other]

/-- A function whose parameter and return type stand at the given positions. -/
def spaced (param result : Position) : Program :=
  [.fn ⟨false, none, ⟨"f", ⟨1, 4⟩⟩, [⟨false, ⟨"a", param⟩, .primitive ⟨1, 9⟩ "i32", param⟩],
    .primitive result "void", [.expr ⟨1, 21⟩ (.ident ⟨1, 21⟩ "a")], ⟨1, 1⟩⟩]

/-- Where blanks move a parameter and a type and nothing else, the outline stays as it is. -/
theorem Program.outline_eq_iff_spaced :
    Program.ofSource "fn f(a: i32) void { a; }" = .ok (spaced ⟨1, 6⟩ ⟨1, 14⟩) ∧
      Program.ofSource "fn f( a:i32)void  { a; }" = .ok (spaced ⟨1, 7⟩ ⟨1, 13⟩) ∧
      spaced ⟨1, 6⟩ ⟨1, 14⟩ ≠ spaced ⟨1, 7⟩ ⟨1, 13⟩ ∧
      Program.outline (spaced ⟨1, 6⟩ ⟨1, 14⟩) = Program.outline (spaced ⟨1, 7⟩ ⟨1, 13⟩) := by
  have parsed : Program.ofSource "fn f(a: i32) void { a; }" =
      .ok (spaced ⟨1, 6⟩ ⟨1, 14⟩) := by decide +kernel
  have otherParsed : Program.ofSource "fn f( a:i32)void  { a; }" =
      .ok (spaced ⟨1, 7⟩ ⟨1, 13⟩) := by decide +kernel
  refine ⟨parsed, otherParsed, by simp [spaced], ?_⟩
  exact (Program.outline_eq_iff parsed otherParsed).mpr rfl

end SystemsLang.Syntax
