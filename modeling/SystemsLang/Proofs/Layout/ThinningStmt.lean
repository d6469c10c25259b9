import SystemsLang.Proofs.Layout.DerivesStmt
import SystemsLang.Proofs.Layout.ThinningExpr

/-!
# Statements reduce to their layout

Statements bring no tokens of their own that could be left out. What is thinned out are the
expressions and types in them, so the tokens that spell a statement reduce to the layout of the
statement if the parts do.
-/

namespace SystemsLang.Syntax

open Piece (mark blank)

/-- A variable up to its semicolon, without the word that makes it visible elsewhere. -/
def VarDecl.barePieces (declared : VarDecl) : List Piece :=
  [mark (if declared.isConst then .constWord else .varWord), blank, .name declared.name.name] ++
    (match declared.type with
      | some type => [mark .colon, blank] ++ type.pieces
      | none => []) ++
    match declared.init with
    | some init => [blank, mark .assign, blank] ++ init.pieces
    | none => []

/-- A variable is that word and the rest. -/
theorem VarDecl.pieces_eq (declared : VarDecl) :
    declared.pieces = pubMark declared.isPub ++ declared.barePieces := by
  obtain ⟨isPub, isConst, name, type, init, position⟩ := declared
  cases type <;> cases init <;> simp [pieces, headPieces, barePieces]

end SystemsLang.Syntax

namespace SystemsLang.Layout

open Token (Kind)
open Grammar
open Syntax
open Piece (mark blank hasSpelling)

variable {tokens : List Token} {levels : Nat}

/-- What a mark announces reduces to its layout behind the mark. -/
theorem reduces_after {α : Type} {kind : Kind} {Item : List Token → α → Nat → Prop}
    {forget : α → α} {value : Option α} {pieces : α → List Piece}
    (derived : OptionalAfter kind Item tokens value levels) (spelled : hasSpelling kind = true)
    (regular : ∀ token ∈ tokens, Regular token)
    (item : ∀ tokens value levels, Item tokens value levels → (∀ token ∈ tokens, Regular token) →
      Reduces (SpellsUpTo Item forget value) tokens (pieces value)) :
    Reduces (SpellsUpTo (OptionalAfter kind Item) (Option.map forget) value) tokens
      ((value.map fun value => mark kind :: pieces value).getD []) := by
  cases derived with
  | absent => exact .same ⟨none, _, .absent, rfl⟩ rfl
  | present same derived =>
    have word := (regular _ List.mem_cons_self).mark same spelled
    have inner := item _ _ _ derived fun token member =>
      regular token (List.mem_cons_of_mem _ member)
    refine (word.both inner).imp ?_
    rintro _ ⟨_, _, rfl, rfl, result, levels, derived, agree⟩
    exact ⟨some result, levels, .present same derived, congrArg some agree⟩

/-- An expression that may be left out. -/
theorem reduces_possibly {value : Option Expr} (derived : Possibly DerivesExpr tokens value levels)
    (regular : ∀ token ∈ tokens, Regular token) :
    Reduces (SpellsUpTo (Possibly DerivesExpr) (Option.map Expr.unplaced) value) tokens
      (optionalPart value) := by
  cases derived with
  | absent => exact .same ⟨none, _, .absent, rfl⟩ rfl
  | present item =>
    refine (reduces_expr item regular).blank.imp ?_
    rintro _ ⟨result, levels, derived, agree⟩
    exact ⟨some result, levels, .present derived, congrArg some agree⟩

/-- The tokens spell the variable, up to positions. -/
def SpellsVar (isPub : Bool) (declared : VarDecl) (tokens : List Token) : Prop :=
  ∀ position, SpellsUpTo (DerivesVar isPub position) VarDecl.unplaced declared tokens

/-- A variable reduces to its layout. -/
theorem reduces_var {isPub : Bool} {position : Position} {declared : VarDecl}
    (derived : DerivesVar isPub position tokens declared levels)
    (regular : ∀ token ∈ tokens, Regular token) :
    Reduces (SpellsVar isPub declared) tokens (declared.barePieces ++ [mark .semicolon]) := by
  cases derived with
  | @intro word name closing typeTokens initTokens isConst type init _ _ begins named typed assigned
      ends =>
    have first := (regular _ List.mem_cons_self).mark begins (by cases isConst <;> rfl)
    have second := (regular _ (by simp)).name named
    have third := reduces_after typed rfl (fun token member => regular token (by simp [member]))
      fun _ _ _ => reduces_type
    have fourth := reduces_after assigned rfl (fun token member => regular token (by simp [member]))
      fun _ _ _ => reduces_expr
    have last := (regular _ (by simp)).mark ends rfl
    refine ((first.both (second.both (third.both (fourth.both last)))).imp ?_).respell ?_
    · rintro _ ⟨_, _, rfl, rfl, _, _, rfl, rfl, _, _, rfl, ⟨type, _, typed, typeSame⟩, _, _, rfl,
        ⟨init, _, assigned, initSame⟩, rfl⟩ position
      have whole : DerivesVar isPub position _ _ _ := .intro begins named typed assigned ends
      refine ⟨_, _, whole, ?_⟩
      simp only [VarDecl.unplaced, typeSame, initSame]
    · cases type <;> cases init <;> cases isConst <;>
        simp [VarDecl.barePieces, List.filterMap_cons, Piece.lexeme?]

/-- A variable in a block reduces to its layout, which brings its own first token. -/
theorem reduces_local {position : Position} {declared : VarDecl}
    (derived : DerivesVar false position tokens declared levels)
    (regular : ∀ token ∈ tokens, Regular token) :
    Reduces (SpellsVar false declared) tokens (declared.pieces ++ [mark .semicolon]) := by
  have isLocal : declared.isPub = false := by
    cases derived
    rfl
  rw [VarDecl.pieces_eq, isLocal]
  exact reduces_var derived regular

/-- A variable begins with a token of its own. -/
theorem SpellsVar.begins {declared : VarDecl} (spells : SpellsVar false declared tokens) :
    ∃ first rest result levels, tokens = first :: rest ∧
      DerivesVar false first.position (first :: rest) result levels ∧
      result.unplaced = declared.unplaced := by
  obtain ⟨_, _, some, -⟩ := spells Position.start
  obtain ⟨first, rest, rfl, -⟩ := some.starts
  obtain ⟨result, levels, derived, same⟩ := spells first.position
  exact ⟨first, rest, result, levels, rfl, derived, same⟩

/-- The first part in the header of a `for` reduces to its layout. -/
theorem reduces_start {init : Option Stmt} (derived : ForStart false tokens init levels)
    (regular : ∀ token ∈ tokens, Regular token) :
    Reduces (SpellsUpTo (ForStart false) Stmt.unplacedOption init) tokens
      (initPieces init ++ [mark .semicolon]) := by
  cases derived with
  | empty ends =>
    refine ((regular _ List.mem_cons_self).mark ends rfl).imp ?_
    rintro _ rfl
    exact ⟨none, _, .empty ends, rfl⟩
  | omitted impossible => cases impossible
  | declare var =>
    refine (reduces_local var regular).imp fun tokens spells => ?_
    obtain ⟨first, rest, result, levels, rfl, derived, same⟩ := spells.begins
    refine ⟨some (.declare first.position result), levels, .declare derived, ?_⟩
    rw [Stmt.unplacedOption, Stmt.unplaced, same, Stmt.unplacedOption, Stmt.unplaced]
  | expr item ends =>
    have value := reduces_expr item fun token member =>
      regular token (List.mem_append_left _ member)
    have closing := (regular _ (by simp)).mark ends rfl
    refine (value.both closing).imp ?_
    rintro _ ⟨_, _, rfl, ⟨result, levels, derived, same⟩, rfl⟩
    obtain ⟨first, rest, rfl, -⟩ := derived.choose_spec.starts
    refine ⟨some (.expr first.position result), levels, .expr derived ends, ?_⟩
    rw [Stmt.unplacedOption, Stmt.unplaced, same, Stmt.unplacedOption, Stmt.unplaced]

/-- The tokens spell the statement, up to positions. -/
def SpellsStmt (value : Stmt) (tokens : List Token) : Prop :=
  ∃ result levels, DerivesStmt false tokens (.stmt result) levels ∧ result.unplaced = value.unplaced

/-- The tokens spell the `if`, up to positions. -/
def SpellsBranch (value : Stmt) (tokens : List Token) : Prop :=
  ∃ result levels, DerivesStmt false tokens (.branch result) levels ∧
    result.unplaced = value.unplaced

/-- The tokens spell a block of the statements, up to positions. -/
def SpellsBlock (body : List Stmt) (tokens : List Token) : Prop :=
  ∃ position results levels, DerivesStmt false tokens (.block position results) levels ∧
    Stmt.unplacedAll results = Stmt.unplacedAll body

/-- The tokens spell the statements one after the other, up to positions. -/
def SpellsBody (body : List Stmt) (tokens : List Token) : Prop :=
  ∃ results levels, DerivesStmt false tokens (.body results) levels ∧
    Stmt.unplacedAll results = Stmt.unplacedAll body

/-- What becomes of the tokens of a phrase of statements when they are thinned out. Lines and their
levels have no part in it. -/
def StmtReduces (tokens : List Token) : StmtPhrase → Prop
  | .stmt value => ∀ level, Reduces (SpellsStmt value) tokens (piecesOf (stmtLines level value))
  | .branch value => ∀ level, Reduces (SpellsBranch value) tokens (piecesOf (stmtLines level value))
  | .block _ body => ∀ level, Reduces (SpellsBlock body) tokens
      (mark .leftBrace :: (piecesOf (blockLines level body) ++ [mark .rightBrace]))
  | .body body => ∀ level, Reduces (SpellsBody body) tokens (piecesOf (blockLines level body))

/-- A condition in parentheses behind its word, with what stands behind it. -/
theorem reduces_condition {word opening closing : Token} {kind : Kind} {test rest : List Token}
    {condition : Expr} {Is : List Token → Prop} {pieces : List Piece} (begins : word.kind = kind)
    (spelled : hasSpelling kind = true) (opens : opening.kind = .leftParen)
    (tested : DerivesExpr test condition levels) (closes : closing.kind = .rightParen)
    (regular : ∀ token ∈ word :: opening :: (test ++ closing :: rest), Regular token)
    (behind : Reduces Is rest pieces) :
    Reduces (fun tokens => ∃ test rest result levels, tokens = word :: opening ::
        (test ++ closing :: rest) ∧ DerivesExpr test result levels ∧
        result.unplaced = condition.unplaced ∧ Is rest)
      (word :: opening :: (test ++ closing :: rest)) (conditionHead kind condition ++ pieces) := by
  have first := (regular word (by simp)).mark begins spelled
  have second := (regular opening (by simp)).mark opens rfl
  have third := reduces_expr tested fun token member => regular token (by simp [member])
  have fourth := (regular closing (by simp)).mark closes rfl
  refine ((first.both (second.both (third.both (fourth.both behind)))).imp ?_).respell ?_
  · rintro _ ⟨_, _, rfl, rfl, _, _, rfl, rfl, test, _, rfl, ⟨result, levels, derived, same⟩, _,
      rest, rfl, rfl, is⟩
    exact ⟨test, rest, result, levels, rfl, derived, same, is⟩
  · simp [conditionHead, List.filterMap_cons, Piece.lexeme?]

/-- A word with a semicolon behind it. -/
theorem reduces_wordAlone {word closing : Token} {kind : Kind} {Is : List Token → Prop}
    (begins : word.kind = kind) (spelled : hasSpelling kind = true)
    (ends : closing.kind = .semicolon) (regular : ∀ token ∈ [word, closing], Regular token)
    (is : Is [word, closing]) : Reduces Is [word, closing] [mark kind, mark .semicolon] := by
  have first := (regular word (by simp)).mark begins spelled
  have second := (regular closing (by simp)).mark ends rfl
  refine (first.both second).imp ?_
  rintro _ ⟨_, _, rfl, rfl, rfl⟩
  exact is

/-- The tokens of every phrase of statements reduce to its layout. -/
theorem stmtReduces {phrase : StmtPhrase} (derived : DerivesStmt false tokens phrase levels)
    (regular : ∀ token ∈ tokens, Regular token) : StmtReduces tokens phrase := by
  -- The rules that begin with a condition share `reduces_condition`. Blocks are laid out one level
  -- further in, which their tokens do not show.
  induction derived with
  | braces opens _ closes inner =>
    intro level
    have opening := (regular _ List.mem_cons_self).mark opens rfl
    have body := inner (fun token member => regular token (by simp [member])) level
    have closing := (regular _ (by simp)).mark closes rfl
    refine (opening.both (body.both closing)).imp ?_
    rintro _ ⟨_, _, rfl, rfl, _, _, rfl, ⟨results, levels, derived, same⟩, rfl⟩
    exact ⟨_, results, _, .braces opens derived closes, same⟩
  | empty =>
    intro level
    exact .same ⟨[], _, .empty, rfl⟩ rfl
  | cons _ _ headHypothesis tailHypothesis =>
    intro level
    have head := headHypothesis (fun token member => regular token (by simp [member])) level
    have tail := tailHypothesis (fun token member => regular token (by simp [member])) level
    refine ((head.both tail).imp ?_).respell ?_
    · rintro _ ⟨_, _, rfl, ⟨first, _, derived, same⟩, later, _, laterDerived, agree⟩
      exact ⟨first :: later, _, .cons derived laterDerived,
        by rw [Stmt.unplacedAll, same, agree, Stmt.unplacedAll]⟩
    · rw [blockLines, piecesOf_append]
  | branchOnly begins opens tested closes _ taken =>
    intro level
    have block := taken (fun token member => regular token (by simp [member])) (level + 1)
    refine ((reduces_condition begins rfl opens tested closes regular block).imp ?_).respell ?_
    · rintro _ ⟨_, _, _, _, rfl, derived, same, _, _, _, blockDerived, agree⟩
      exact ⟨_, _, .branchOnly begins opens derived closes blockDerived,
        by rw [Stmt.unplaced, same, agree, Stmt.unplaced]⟩
    · simp [stmtLines, elseLines]
  | branchElse begins opens tested closes _ divides _ taken last =>
    intro level
    have block := taken (fun token member => regular token (by simp [member])) (level + 1)
    have word := (regular _ (by simp)).mark divides rfl
    have other := last (fun token member => regular token (by simp [member])) (level + 1)
    refine ((reduces_condition begins rfl opens tested closes regular
      (block.both (word.both other))).imp ?_).respell ?_
    · rintro _ ⟨_, _, _, _, rfl, derived, same, _, _, rfl, ⟨_, _, _, blockDerived, agree⟩, _, _,
        rfl, rfl, _, _, _, otherDerived, otherAgree⟩
      refine ⟨_, _, .branchElse begins opens derived closes blockDerived divides otherDerived, ?_⟩
      rw [Stmt.unplaced, same, agree, Stmt.unplacedOption, Stmt.unplaced, otherAgree]
      rfl
    · simp [stmtLines, elseLines, elseHead, List.filterMap_cons, Piece.lexeme?]
  | branchChain begins opens tested closes _ divides next taken chained =>
    intro level
    have block := taken (fun token member => regular token (by simp [member])) (level + 1)
    have word := (regular _ (by simp)).mark divides rfl
    have other := chained (fun token member => regular token (by simp [member])) level
    refine ((reduces_condition begins rfl opens tested closes regular
      (block.both (word.both other))).imp ?_).respell ?_
    · rintro _ ⟨_, _, _, _, rfl, derived, same, _, _, rfl, ⟨_, _, _, blockDerived, agree⟩, _, _,
        rfl, rfl, _, _, otherDerived, otherSame⟩
      refine ⟨_, _, .branchChain begins opens derived closes blockDerived divides otherDerived, ?_⟩
      rw [Stmt.unplaced, same, agree, Stmt.unplacedOption, otherSame]
      rfl
    · cases next <;> simp [stmtLines, elseLines, elseHead, List.filterMap_cons, Piece.lexeme?]
  | branch _ inner =>
    intro level
    refine (inner regular level).imp ?_
    rintro _ ⟨_, _, derived, same⟩
    exact ⟨_, _, .branch derived, same⟩
  | block _ inner =>
    intro level
    refine ((inner regular (level + 1)).imp ?_).respell ?_
    · rintro _ ⟨_, _, _, derived, same⟩
      exact ⟨_, _, .block derived, by rw [Stmt.unplaced, same, Stmt.unplaced]⟩
    · rw [stmtLines, piecesOf_enclosed]
      rfl
  | @returns _ _ _ value _ begins given ends =>
    intro level
    have word := (regular _ List.mem_cons_self).mark begins rfl
    have inner := reduces_possibly given fun token member => regular token (by simp [member])
    have closing := (regular _ (by simp)).mark ends rfl
    refine ((word.both (inner.both closing)).imp ?_).respell ?_
    · rintro _ ⟨_, _, rfl, rfl, _, _, rfl, ⟨_, _, derived, same⟩, rfl⟩
      exact ⟨_, _, .returns begins derived ends, by rw [Stmt.unplaced, same, Stmt.unplaced]⟩
    · cases value <;> simp [stmtLines, optionalPart]
  | whileLoop begins opens tested closes _ inner =>
    intro level
    have block := inner (fun token member => regular token (by simp [member])) (level + 1)
    refine ((reduces_condition begins rfl opens tested closes regular block).imp ?_).respell ?_
    · rintro _ ⟨_, _, _, _, rfl, derived, same, _, _, _, blockDerived, agree⟩
      exact ⟨_, _, .whileLoop begins opens derived closes blockDerived,
        by rw [Stmt.unplaced, same, agree, Stmt.unplaced]⟩
    · rw [stmtLines, piecesOf_enclosed]
  | forLoop begins opens starts tested divides stepped closes _ inner =>
    intro level
    have word := (regular _ List.mem_cons_self).mark begins rfl
    have opening := (regular _ (by simp)).mark opens rfl
    have start := reduces_start starts fun token member => regular token (by simp [member])
    have test := reduces_possibly tested fun token member => regular token (by simp [member])
    have divider := (regular _ (by simp)).mark divides rfl
    have step := reduces_possibly stepped fun token member => regular token (by simp [member])
    have closing := (regular _ (by simp)).mark closes rfl
    have block := inner (fun token member => regular token (by simp [member])) (level + 1)
    refine ((word.both (opening.both (start.both (test.both (divider.both (step.both
      (closing.both block))))))).imp ?_).respell ?_
    · rintro _ ⟨_, _, rfl, rfl, _, _, rfl, rfl, _, _, rfl, ⟨_, _, starts, startSame⟩, _, _, rfl,
        ⟨_, _, tested, testSame⟩, _, _, rfl, rfl, _, _, rfl, ⟨_, _, stepped, stepSame⟩, _, _, rfl,
        rfl, _, _, _, derived, same⟩
      have whole := DerivesStmt.forLoop begins opens starts tested divides stepped closes derived
      exact ⟨_, _, whole, by rw [Stmt.unplaced, startSame, testSame, stepSame, same, Stmt.unplaced]⟩
    · rw [stmtLines, piecesOf_enclosed]
      simp [forHead, List.filterMap_cons, Piece.lexeme?]
  | breakLoop begins ends =>
    intro level
    exact reduces_wordAlone begins rfl ends regular ⟨_, _, .breakLoop begins ends, rfl⟩
  | continueLoop begins ends =>
    intro level
    exact reduces_wordAlone begins rfl ends regular ⟨_, _, .continueLoop begins ends, rfl⟩
  | comptime begins _ inner =>
    intro level
    have word := (regular _ List.mem_cons_self).mark begins rfl
    have block := inner (fun token member => regular token (by simp [member])) (level + 1)
    refine ((word.both block).imp ?_).respell ?_
    · rintro _ ⟨_, _, rfl, rfl, _, _, _, derived, same⟩
      exact ⟨_, _, .comptime begins derived, by rw [Stmt.unplaced, same, Stmt.unplaced]⟩
    · rw [stmtLines, piecesOf_enclosed]
      rfl
  | declare var =>
    intro level
    refine ((reduces_local var regular).imp fun tokens spells => ?_).respell ?_
    · obtain ⟨first, rest, result, levels, rfl, derived, same⟩ := spells.begins
      exact ⟨_, _, .declare derived, by rw [Stmt.unplaced, same, Stmt.unplaced]⟩
    · rw [stmtLines, piecesOf_cons, piecesOf_nil, List.append_nil, pieces_sentence]
  | expr item ends =>
    intro level
    have value := reduces_expr item fun token member =>
      regular token (List.mem_append_left _ member)
    have closing := (regular _ (by simp)).mark ends rfl
    refine ((value.both closing).imp ?_).respell ?_
    · rintro _ ⟨_, _, rfl, ⟨_, _, derived, same⟩, rfl⟩
      obtain ⟨first, rest, rfl, -⟩ := derived.choose_spec.starts
      exact ⟨_, _, .expr derived ends, by rw [Stmt.unplaced, same, Stmt.unplaced]⟩
    · rw [stmtLines, piecesOf_cons, piecesOf_nil, List.append_nil, pieces_sentence]

end SystemsLang.Layout
