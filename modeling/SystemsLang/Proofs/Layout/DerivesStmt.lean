import SystemsLang.Proofs.Layout.DerivesExpr

/-!
# The layout of a program spells it

Lines matter to the reader of a layout and not to its tokens, so the pieces of all lines are taken
one after the other. For statements the proof follows the tree; the brace that closes the first
branch of an `if` belongs to what stands behind the branch in the layout, and is given back to the
branch here.
-/

namespace SystemsLang.Layout

open Token (Kind)
open Syntax Grammar
open Piece (mark blank commas)

variable {tokens : List Token} {level : Nat}

/-- The pieces of lines, one line after the other. -/
def piecesOf (lines : List Line) : List Piece :=
  lines.flatMap Line.pieces

@[simp] theorem piecesOf_nil : piecesOf [] = [] := rfl

@[simp] theorem piecesOf_cons (line : Line) (lines : List Line) :
    piecesOf (line :: lines) = line.pieces ++ piecesOf lines := rfl

/-- Lines one behind another have their pieces one behind another. -/
@[simp] theorem piecesOf_append (first second : List Line) :
    piecesOf (first ++ second) = piecesOf first ++ piecesOf second :=
  List.flatMap_append

/-- A line that ends in a semicolon. -/
@[simp] theorem pieces_sentence (pieces : List Piece) :
    (sentence level pieces).pieces = pieces ++ [mark .semicolon] := rfl

/-- Whether or not braces stand on one line makes no difference to the tokens. -/
theorem piecesOf_enclosed (head : List Piece) (inner : List Line) :
    piecesOf (enclosed level head inner) =
      head ++ mark .leftBrace :: (piecesOf inner ++ [mark .rightBrace]) := by
  unfold enclosed
  split
  · rename_i none
    rw [List.isEmpty_iff.mp none]
    simp
  · simp

/-- An expression behind a blank, in the header of a `for` and behind `return`. -/
theorem forms_optional {value : Option Expr} (spellable : ∀ given ∈ value, given.Spellable)
    (spells : Spells tokens (optionalPart value)) :
    ∃ result, Possibly DerivesExpr tokens result ((value.map Expr.levels).getD 0) ∧
      result.map Expr.unplaced = value.map Expr.unplaced := by
  cases value with
  | none =>
    rw [spells.nil]
    exact ⟨none, .absent, rfl⟩
  | some value =>
    obtain ⟨result, derived, unplaced⟩ :=
      forms_expr value (spellable value rfl) tokens (Spells.blank spells)
    exact ⟨some result, .present ⟨_, derived.loosenTo (Nat.zero_le _)⟩, congrArg some unplaced⟩

/-- The tokens of a whole expression spell it. -/
theorem forms_whole {value : Expr} (spellable : value.Spellable)
    (spells : Spells tokens value.pieces) :
    ∃ first later result, tokens = first :: later ∧ DerivesExpr tokens result value.levels ∧
      result.unplaced = value.unplaced := by
  obtain ⟨result, derived, unplaced⟩ := forms_expr value spellable tokens spells
  obtain ⟨first, later, rfl, -⟩ := derived.starts
  exact ⟨first, later, result, rfl, ⟨_, derived.loosenTo (Nat.zero_le _)⟩, unplaced⟩

/-- A variable with its semicolon, behind what makes it visible elsewhere. -/
theorem forms_var {declared : VarDecl} (spellable : declared.Spellable)
    (spells : Spells tokens (declared.pieces ++ [mark .semicolon])) :
    ∃ pub rest, tokens = pub ++ rest ∧ Mark .pubWord pub declared.isPub ∧ ∀ position,
      ∃ result, DerivesVar declared.isPub position rest result declared.levels ∧
        result.unplaced = declared.unplaced := by
  obtain ⟨isPub, isConst, name, type, init, place⟩ := declared
  simp only [VarDecl.pieces, VarDecl.headPieces, List.append_assoc, List.cons_append,
    List.nil_append] at spells
  obtain ⟨pub, later, rfl, marked, rest⟩ := mark_of_word spells
  refine ⟨pub, later, rfl, marked, fun position => ?_⟩
  obtain ⟨word, later, rfl, begins, rest⟩ := rest.mark
  obtain ⟨token, later, rfl, named, text, rest⟩ := rest.blank.ident spellable.name
  obtain ⟨typeTokens, later, rfl, typeSpelled, rest⟩ := rest.append
  obtain ⟨initTokens, later, rfl, initSpelled, rest⟩ := rest.append
  obtain ⟨closing, rfl, ends⟩ := rest.lastMark
  obtain ⟨typeResult, typed, typeSame⟩ : ∃ result,
      OptionalAfter .colon DerivesType typeTokens result ((type.map TypeExpr.levels).getD 0) ∧
        result.map TypeExpr.unplaced = type.map TypeExpr.unplaced := by
    cases type with
    | none =>
      rw [typeSpelled.nil]
      exact ⟨none, .absent, rfl⟩
    | some type =>
      obtain ⟨colon, later, rfl, divides, rest⟩ := typeSpelled.mark
      obtain ⟨result, derived, same⟩ := derives_type (spellable.type type rfl) rest.blank
      exact ⟨some result, .present divides derived, congrArg some same⟩
  obtain ⟨initResult, assigned, initSame⟩ : ∃ result,
      OptionalAfter .assign DerivesExpr initTokens result ((init.map Expr.levels).getD 0) ∧
        result.map Expr.unplaced = init.map Expr.unplaced := by
    cases init with
    | none =>
      rw [initSpelled.nil]
      exact ⟨none, .absent, rfl⟩
    | some value =>
      obtain ⟨equals, later, rfl, assigns, rest⟩ := initSpelled.blank.mark
      obtain ⟨result, derived, same⟩ := forms_expr value (spellable.init value rfl) later rest.blank
      exact ⟨some result, .present assigns ⟨_, derived.loosenTo (Nat.zero_le _)⟩,
        congrArg some same⟩
  have isWord : word.kind = if isConst = true then .constWord else .varWord := begins
  refine ⟨_, .intro isWord named typed assigned ends, ?_⟩
  simp only [VarDecl.unplaced, typeSame, initSame, Ident.unplaced, text]

/-- A variable that is not visible elsewhere, with its own first token. -/
theorem forms_local {declared : VarDecl} (isLocal : declared.isPub = false)
    (spellable : declared.Spellable)
    (spells : Spells tokens (declared.pieces ++ [mark .semicolon])) :
    ∃ first rest result, tokens = first :: rest ∧
      DerivesVar false first.position (first :: rest) result declared.levels ∧
      result.unplaced = declared.unplaced := by
  obtain ⟨pub, rest, rfl, marked, derived⟩ := forms_var spellable spells
  rw [isLocal] at marked derived
  cases marked with
  | absent =>
    obtain ⟨_, someVar, -⟩ := derived Position.start
    obtain ⟨first, later, rfl, -⟩ := someVar.starts
    obtain ⟨result, var, same⟩ := derived first.position
    exact ⟨first, later, result, rfl, var, same⟩

/-- A condition in parentheses, behind its word and in front of a blank. -/
theorem forms_condition {word : Kind} {condition : Expr} {pieces : List Piece}
    (spellable : condition.Spellable)
    (spells : Spells tokens (conditionHead word condition ++ pieces)) :
    ∃ first opening test closing later result, tokens = first :: opening ::
        (test ++ closing :: later) ∧ first.kind = word ∧ opening.kind = .leftParen ∧
      DerivesExpr test result condition.levels ∧ closing.kind = .rightParen ∧
      result.unplaced = condition.unplaced ∧ Spells later pieces := by
  simp only [conditionHead, List.append_assoc, List.cons_append, List.nil_append] at spells
  obtain ⟨first, later, rfl, begins, rest⟩ := spells.mark
  obtain ⟨opening, later, rfl, opens, rest⟩ := rest.blank.mark
  obtain ⟨test, after, rfl, testSpelled, rest⟩ := rest.append
  obtain ⟨closing, later, rfl, closes, behind⟩ := rest.mark
  obtain ⟨_, _, result, rfl, derived, same⟩ := forms_whole spellable testSpelled
  exact ⟨first, opening, _, closing, later, result, rfl, begins, opens, derived, closes, same,
    behind.blank⟩

/-- The tokens spell the statements of a block. -/
def FormsBody (body : List Stmt) (tokens : List Token) : Prop :=
  ∃ results, DerivesStmt false tokens (.body results) (Stmt.levelsAll body) ∧
    Stmt.unplacedAll results = Stmt.unplacedAll body

/-- The tokens spell a block with the statements of another. -/
def FormsBlock (body : List Stmt) (tokens : List Token) : Prop :=
  ∃ first rest results, tokens = first :: rest ∧
    DerivesStmt false tokens (.block first.position results) (Stmt.levelsAll body + 1) ∧
    Stmt.unplacedAll results = Stmt.unplacedAll body

/-- Braces around the statements of a block. -/
theorem forms_block {body : List Stmt} {inner : List Piece}
    (forms : ∀ tokens, Spells tokens inner → FormsBody body tokens)
    (spells : Spells tokens (mark .leftBrace :: (inner ++ [mark .rightBrace]))) :
    FormsBlock body tokens := by
  obtain ⟨opening, later, rfl, opens, rest⟩ := spells.mark
  obtain ⟨before, later, rfl, spelled, rest⟩ := rest.append
  obtain ⟨closing, rfl, closes⟩ := rest.lastMark
  obtain ⟨results, derived, same⟩ := forms before spelled
  exact ⟨opening, _, results, rfl, .braces opens derived closes, same⟩

/-- What the tokens from the closing brace of the first branch on spell: nothing more, a block, or a
chained `if`. -/
def FormsElse (otherwise : Option Stmt) (tokens : List Token) : Prop :=
  ∃ closing rest, tokens = closing :: rest ∧ closing.kind = .rightBrace ∧
    match otherwise with
    | none => rest = []
    | some (.block _ body) =>
      ∃ word other, rest = word :: other ∧ word.kind = .elseWord ∧ FormsBlock body other
    | some chained =>
      ∃ word other result, rest = word :: other ∧ word.kind = .elseWord ∧
        DerivesStmt false other (.branch result) chained.levels ∧
        result.unplaced = chained.unplaced

/-- An `if` is put together from its condition, its first branch and what stands behind that. -/
theorem forms_branch {position : Position} {condition : Expr} {body : List Stmt}
    {otherwise : Option Stmt} {inner last : List Piece} (spellable : condition.Spellable)
    (bodyForms : ∀ tokens, Spells tokens inner → FormsBody body tokens)
    (lastForms : ∀ tokens, Spells tokens last → FormsElse otherwise tokens)
    (spellableElse : Stmt.SpellableElse otherwise)
    (spells : Spells tokens
      (conditionHead .ifWord condition ++ mark .leftBrace :: (inner ++ last))) :
    ∃ value, DerivesStmt false tokens (.branch value)
        (Stmt.branch position condition body otherwise).levels ∧
      value.unplaced = (Stmt.branch position condition body otherwise).unplaced := by
  obtain ⟨word, opening, test, closing, later, result, rfl, begins, opens, tested, closes, same,
    rest⟩ := forms_condition spellable spells
  obtain ⟨brace, later, rfl, braceOpens, rest⟩ := rest.mark
  obtain ⟨before, after, rfl, bodySpelled, lastSpelled⟩ := rest.append
  obtain ⟨results, bodyDerived, bodySame⟩ := bodyForms before bodySpelled
  obtain ⟨braceClosing, rest, rfl, braceCloses, formed⟩ := lastForms after lastSpelled
  have taken : DerivesStmt false (brace :: (before ++ [braceClosing]))
      (.block brace.position results) (Stmt.levelsAll body + 1) :=
    .braces braceOpens bodyDerived braceCloses
  have regrouped (others : List Token) : brace :: (before ++ braceClosing :: others) =
      brace :: (before ++ [braceClosing]) ++ others := by simp
  match otherwise, spellableElse, formed with
  | none, _, empty =>
    subst empty
    refine ⟨.branch word.position result results none, ?_, ?_⟩
    · rw [Stmt.levels, Stmt.elseLevels, Nat.max_zero]
      exact .branchOnly begins opens tested closes taken
    · rw [Stmt.unplaced, same, bodySame, Stmt.unplaced]
  | some (.block _ other), _, formed =>
    obtain ⟨otherwise, others, rfl, divides, first, later, otherResults, rfl, derived, otherSame⟩ :=
      formed
    rw [regrouped]
    refine ⟨_, .branchElse begins opens tested closes taken divides derived, ?_⟩
    rw [Stmt.unplaced, same, bodySame, Stmt.unplacedOption, Stmt.unplaced, otherSame]
    rfl
  | some (.branch _ _ _ _), _, formed =>
    obtain ⟨otherwise, others, chained, rfl, divides, derived, chainSame⟩ := formed
    rw [regrouped]
    refine ⟨_, .branchChain begins opens tested closes taken divides derived, ?_⟩
    rw [Stmt.unplaced, same, bodySame, Stmt.unplacedOption, chainSame]
    rfl

/-- What the header of a `for` begins with, semicolon included. -/
theorem forms_start {init : Option Stmt} (spellable : ∀ start ∈ init, start.SpellableStart)
    (spells : Spells tokens (initPieces init ++ [mark .semicolon])) :
    ∃ result, ForStart false tokens result (Stmt.startLevels init) ∧
      Stmt.unplacedOption result = Stmt.unplacedOption init := by
  match init, spellable with
  | none, _ =>
    obtain ⟨closing, rfl, ends⟩ := Spells.lastMark spells
    exact ⟨none, .empty ends, rfl⟩
  | some (.declare _ declared), spellable =>
    obtain ⟨isLocal, inner⟩ := spellable _ rfl
    obtain ⟨first, rest, result, rfl, var, same⟩ := forms_local isLocal inner spells
    refine ⟨some (.declare first.position result), .declare var, ?_⟩
    rw [Stmt.unplacedOption, Stmt.unplaced, same, Stmt.unplacedOption, Stmt.unplaced]
  | some (.expr _ value), spellable =>
    obtain ⟨before, after, rfl, spelled, rest⟩ := Spells.append spells
    obtain ⟨closing, rfl, ends⟩ := rest.lastMark
    obtain ⟨first, later, result, rfl, derived, same⟩ := forms_whole (spellable _ rfl) spelled
    refine ⟨some (.expr first.position result), .expr derived ends, ?_⟩
    rw [Stmt.unplacedOption, Stmt.unplaced, same, Stmt.unplacedOption, Stmt.unplaced]
  | some (.block ..), spellable | some (.returns ..), spellable | some (.branch ..), spellable
  | some (.whileLoop ..), spellable | some (.forLoop ..), spellable
  | some (.breakLoop ..), spellable | some (.continueLoop ..), spellable
  | some (.comptime ..), spellable => exact (spellable _ rfl).elim

/-- The tokens spell a statement. -/
def FormsStmt (statement : Stmt) (tokens : List Token) : Prop :=
  ∃ result, DerivesStmt false tokens (.stmt result) statement.levels ∧
    result.unplaced = statement.unplaced

mutual

/-- The tokens of the layout of a statement spell it. -/
theorem forms_stmt (statement : Stmt) (level : Nat) (spellable : statement.Spellable)
    (tokens : List Token) (spells : Spells tokens (piecesOf (stmtLines level statement))) :
    FormsStmt statement tokens := by
  cases statement with
  | block position body =>
    rw [stmtLines, piecesOf_enclosed] at spells
    obtain ⟨first, rest, results, rfl, derived, same⟩ :=
      forms_block (forms_body body (level + 1) spellable) spells
    exact ⟨_, .block derived, by rw [Stmt.unplaced, same, Stmt.unplaced]⟩
  | returns position value =>
    have spelled : Spells tokens
        (mark .returnWord :: (optionalPart value ++ [mark .semicolon])) := by
      cases value with
      | none => simpa [stmtLines, optionalPart] using spells
      | some value => simpa [stmtLines, optionalPart] using spells
    obtain ⟨word, later, rfl, begins, rest⟩ := spelled.mark
    obtain ⟨inner, after, rfl, valueSpelled, behind⟩ := rest.append
    obtain ⟨closing, rfl, ends⟩ := behind.lastMark
    obtain ⟨result, derived, same⟩ := forms_optional spellable valueSpelled
    exact ⟨_, .returns begins derived ends, by rw [Stmt.unplaced, same, Stmt.unplaced]⟩
  | branch position condition body otherwise =>
    rw [stmtLines, piecesOf_append, piecesOf_cons] at spells
    simp only [List.append_assoc, List.cons_append, List.nil_append] at spells
    obtain ⟨value, derived, same⟩ := forms_branch spellable.1
      (forms_body body (level + 1) spellable.2.1) (forms_else otherwise level spellable.2.2)
      spellable.2.2 spells
    exact ⟨value, .branch derived, same⟩
  | whileLoop position condition body =>
    rw [stmtLines, piecesOf_enclosed] at spells
    obtain ⟨word, opening, test, closing, later, result, rfl, begins, opens, tested, closes,
      testSame, behind⟩ := forms_condition spellable.1 spells
    obtain ⟨first, rest, results, rfl, derived, same⟩ :=
      forms_block (forms_body body (level + 1) spellable.2) behind
    exact ⟨_, .whileLoop begins opens tested closes derived,
      by rw [Stmt.unplaced, testSame, same, Stmt.unplaced]⟩
  | forLoop position init condition step body =>
    rw [stmtLines, piecesOf_enclosed] at spells
    have spelled : Spells tokens (mark .forWord :: blank :: mark .leftParen ::
        ((initPieces init ++ [mark .semicolon]) ++ (optionalPart condition ++ mark .semicolon ::
          (optionalPart step ++ mark .rightParen :: blank :: mark .leftBrace ::
            (piecesOf (blockLines (level + 1) body) ++ [mark .rightBrace]))))) := by
      simpa [forHead] using spells
    obtain ⟨word, later, rfl, begins, rest⟩ := spelled.mark
    obtain ⟨opening, later, rfl, opens, rest⟩ := rest.blank.mark
    obtain ⟨start, after, rfl, startSpelled, behindStart⟩ := rest.append
    obtain ⟨test, after, rfl, testSpelled, behindTest⟩ := behindStart.append
    obtain ⟨divider, later, rfl, divides, behindDivider⟩ := behindTest.mark
    obtain ⟨update, after, rfl, stepSpelled, behindStep⟩ := behindDivider.append
    obtain ⟨closing, later, rfl, closes, behind⟩ := behindStep.mark
    obtain ⟨initResult, starts, startSame⟩ := forms_start spellable.1 startSpelled
    obtain ⟨testResult, tested, testSame⟩ := forms_optional spellable.2.1 testSpelled
    obtain ⟨stepResult, stepped, stepSame⟩ := forms_optional spellable.2.2.1 stepSpelled
    obtain ⟨first, others, results, rfl, derived, same⟩ :=
      forms_block (forms_body body (level + 1) spellable.2.2.2) behind.blank
    exact ⟨_, .forLoop begins opens starts tested divides stepped closes derived,
      by rw [Stmt.unplaced, startSame, testSame, stepSame, same, Stmt.unplaced]⟩
  | breakLoop position =>
    obtain ⟨word, later, rfl, begins, rest⟩ := Spells.mark spells
    obtain ⟨closing, rfl, ends⟩ := rest.lastMark
    exact ⟨_, .breakLoop begins ends, rfl⟩
  | continueLoop position =>
    obtain ⟨word, later, rfl, begins, rest⟩ := Spells.mark spells
    obtain ⟨closing, rfl, ends⟩ := rest.lastMark
    exact ⟨_, .continueLoop begins ends, rfl⟩
  | expr position value =>
    rw [stmtLines, piecesOf_cons, pieces_sentence, piecesOf_nil, List.append_nil] at spells
    obtain ⟨before, after, rfl, spelled, rest⟩ := spells.append
    obtain ⟨closing, rfl, ends⟩ := rest.lastMark
    obtain ⟨first, later, result, rfl, derived, same⟩ := forms_whole spellable spelled
    exact ⟨_, .expr derived ends, by rw [Stmt.unplaced, same, Stmt.unplaced]⟩
  | comptime position body =>
    rw [stmtLines, piecesOf_enclosed] at spells
    obtain ⟨word, later, rfl, begins, rest⟩ := Spells.mark spells
    obtain ⟨first, others, results, rfl, derived, same⟩ :=
      forms_block (forms_body body (level + 1) spellable) rest.blank
    exact ⟨_, .comptime begins derived, by rw [Stmt.unplaced, same, Stmt.unplaced]⟩
  | declare position declared =>
    rw [stmtLines, piecesOf_cons, pieces_sentence, piecesOf_nil, List.append_nil] at spells
    obtain ⟨first, rest, result, rfl, var, same⟩ := forms_local spellable.1 spellable.2 spells
    exact ⟨_, .declare var, by rw [Stmt.unplaced, same, Stmt.unplaced]⟩

/-- The tokens of the layout of the statements of a block spell them. -/
theorem forms_body (body : List Stmt) (level : Nat) (spellable : Stmt.AllSpellable body)
    (tokens : List Token) (spells : Spells tokens (piecesOf (blockLines level body))) :
    FormsBody body tokens := by
  match body with
  | [] =>
    rw [Spells.nil spells]
    exact ⟨[], .empty, rfl⟩
  | first :: rest =>
    rw [blockLines, piecesOf_append] at spells
    obtain ⟨before, after, rfl, firstSpelled, restSpelled⟩ := spells.append
    obtain ⟨result, derived, same⟩ := forms_stmt first level spellable.1 before firstSpelled
    obtain ⟨results, laterDerived, laterSame⟩ :=
      forms_body rest level spellable.2 after restSpelled
    exact ⟨result :: results, .cons derived laterDerived,
      by rw [Stmt.unplacedAll, same, laterSame, Stmt.unplacedAll]⟩

/-- The tokens of the layout from the closing brace of the first branch on spell what they
should. -/
theorem forms_else (otherwise : Option Stmt) (level : Nat)
    (spellable : Stmt.SpellableElse otherwise) (tokens : List Token)
    (spells : Spells tokens (piecesOf (elseLines level otherwise))) :
    FormsElse otherwise tokens := by
  match otherwise, spellable with
  | none, _ =>
    obtain ⟨closing, later, rfl, closes, rest⟩ := Spells.mark spells
    exact ⟨closing, later, rfl, closes, rest.nil⟩
  | some (.block _ body), spellable =>
    have spelled : Spells tokens (mark .rightBrace :: blank :: mark .elseWord :: blank ::
        mark .leftBrace :: (piecesOf (blockLines (level + 1) body) ++ [mark .rightBrace])) := by
      simpa [elseLines, elseHead] using spells
    obtain ⟨closing, later, rfl, closes, rest⟩ := spelled.mark
    obtain ⟨word, later, rfl, divides, rest⟩ := rest.blank.mark
    exact ⟨closing, _, rfl, closes, word, later, rfl, divides,
      forms_block (forms_body body (level + 1) spellable) rest.blank⟩
  | some (.branch position condition body otherwise), spellable =>
    have spelled : Spells tokens (mark .rightBrace :: blank :: mark .elseWord :: blank ::
        (conditionHead .ifWord condition ++ mark .leftBrace ::
          (piecesOf (blockLines (level + 1) body) ++
            piecesOf (elseLines level otherwise)))) := by
      simpa [elseLines, elseHead] using spells
    obtain ⟨closing, later, rfl, closes, rest⟩ := spelled.mark
    obtain ⟨word, later, rfl, divides, rest⟩ := rest.blank.mark
    obtain ⟨value, derived, same⟩ := forms_branch spellable.1
      (forms_body body (level + 1) spellable.2.1) (forms_else otherwise level spellable.2.2)
      spellable.2.2 rest.blank
    exact ⟨closing, _, rfl, closes, word, later, value, rfl, divides, derived, same⟩

end

end SystemsLang.Layout
