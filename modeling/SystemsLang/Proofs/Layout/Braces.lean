import SystemsLang.Proofs.Layout.Spelling
import SystemsLang.Layout.Source

/-!
# Braces in a layout

A line of a layout opens and closes braces in two ways. What is written for an expression or for the
head of a declaration closes the braces that it opens itself, as a struct literal does
(`Bracketed`). Only the brace at the end of a line is left open, and only the one at its beginning
was opened before. So the lines of a statement stand one in another like the braces: each is
indented to the number of braces that are open in front of it, less one if it begins by closing one
(`Nested`).

Main statement: the lines of a program are nested, from no open brace to none (`nested_program`).
-/

namespace SystemsLang

open Token (Kind)

namespace Piece

/-- Whether a piece is a brace. -/
def isBrace : Piece → Bool
  | mark .leftBrace | mark .rightBrace => true
  | _ => false

/-- Pieces in which each brace that is opened is closed, and no other. -/
inductive Bracketed : List Piece → Prop
  | nil : Bracketed []
  | cons {piece : Piece} {rest : List Piece} (plain : piece.isBrace = false)
      (later : Bracketed rest) : Bracketed (piece :: rest)
  | braces {inner rest : List Piece} (inside : Bracketed inner) (later : Bracketed rest) :
    Bracketed (mark .leftBrace :: inner ++ mark .rightBrace :: rest)

namespace Bracketed

variable {pieces others : List Piece}

/-- Two bracketed texts are bracketed together. -/
theorem append (first : Bracketed pieces) (second : Bracketed others) :
    Bracketed (pieces ++ others) := by
  induction first with
  | nil => exact second
  | cons plain later inductionHypothesis => exact .cons plain inductionHypothesis
  | braces inside later insideHypothesis laterHypothesis =>
    rw [List.cons_append, List.cons_append, List.append_assoc]
    exact .braces inside laterHypothesis

/-- Pieces without braces are bracketed. -/
theorem of_plain (plain : pieces.any isBrace = false) : Bracketed pieces := by
  induction pieces with
  | nil => exact .nil
  | cons piece rest inductionHypothesis =>
    obtain ⟨head, tail⟩ := Bool.or_eq_false_iff.mp plain
    exact .cons head (inductionHypothesis tail)

/-- As many braces are opened as are closed. -/
theorem count_eq (bracketed : Bracketed pieces) :
    pieces.count (mark .leftBrace) = pieces.count (mark .rightBrace) := by
  induction bracketed with
  | nil => rfl
  | @cons piece rest plain later inductionHypothesis =>
    have notLeft : piece ≠ mark .leftBrace := by
      rintro rfl
      cases plain
    have notRight : piece ≠ mark .rightBrace := by
      rintro rfl
      cases plain
    rw [List.count_cons_of_ne notLeft, List.count_cons_of_ne notRight, inductionHypothesis]
  | braces inside later insideHypothesis laterHypothesis =>
    simp only [List.cons_append, List.count_cons, List.count_append, insideHypothesis,
      laterHypothesis]
    simp
    omega

/-- The first piece does not close a brace. -/
theorem head?_ne (bracketed : Bracketed pieces) :
    ∀ first ∈ pieces.head?, first ≠ mark .rightBrace := by
  rintro first isFirst rfl
  cases bracketed with
  | nil => cases isFirst
  | cons plain =>
    obtain rfl := Option.some.inj isFirst
    cases plain
  | braces => cases isFirst

/-- Parentheses around bracketed pieces add no brace. -/
theorem grouped {power required : Nat} (inner : Bracketed pieces) :
    Bracketed (grouped power required pieces) := by
  unfold Piece.grouped
  split
  · exact .cons rfl (inner.append (.cons rfl .nil))
  · exact inner

/-- A list is bracketed if its items are. -/
theorem commas {groups : List (List Piece)} (each : ∀ group ∈ groups, Bracketed group) :
    Bracketed (commas groups) := by
  induction groups with
  | nil => exact .nil
  | cons first rest inductionHypothesis =>
    obtain ⟨head, tail⟩ := List.forall_mem_cons.mp each
    cases rest with
    | nil =>
      rw [commas_single]
      exact head
    | cons second later =>
      rw [commas_cons]
      exact head.append (.cons rfl (.cons rfl (inductionHypothesis tail)))

/-- A list in braces is bracketed if its items are. -/
theorem braced {groups : List (List Piece)} (each : ∀ group ∈ groups, Bracketed group) :
    Bracketed (braced groups) := by
  unfold Piece.braced
  split
  · exact .braces .nil .nil
  · have inside : Bracketed (blank :: Piece.commas groups ++ [blank]) :=
      .cons rfl ((commas each).append (.cons rfl .nil))
    have whole := inside.braces .nil
    simpa using whole

end Bracketed

/-- There is a first piece, and it is no blank. -/
def Begins (pieces : List Piece) : Prop :=
  ∃ first rest, pieces = first :: rest ∧ first ≠ blank

/-- What follows does not change the beginning. -/
theorem Begins.append {pieces : List Piece} (begins : Begins pieces) (others : List Piece) :
    Begins (pieces ++ others) := by
  obtain ⟨first, rest, rfl, notBlank⟩ := begins
  exact ⟨first, rest ++ others, rfl, notBlank⟩

/-- A group begins with its parenthesis or with what is inside. -/
theorem Begins.grouped {pieces : List Piece} {power required : Nat} (begins : Begins pieces) :
    Begins (grouped power required pieces) := by
  unfold Piece.grouped
  split
  · exact ⟨mark .leftParen, pieces ++ [mark .rightParen], rfl, by simp⟩
  · exact begins

end Piece

namespace Layout

open Syntax
open Piece (mark blank commas Bracketed Begins)

/-- There is no brace in `const`. -/
theorem bracketed_constMark (isConst : Bool) : Bracketed (TypeExpr.constMark isConst) := by
  cases isConst <;> exact .of_plain rfl

/-- There are no braces in a type. -/
theorem bracketed_type (type : TypeExpr) : Bracketed type.pieces := by
  induction type with
  | primitive | named => exact .of_plain rfl
  | pointer _ isConst _ inductionHypothesis =>
    exact .cons rfl ((bracketed_constMark isConst).append inductionHypothesis)
  | array _ _ _ inductionHypothesis => exact Bracketed.append (.of_plain rfl) inductionHypothesis
  | slice _ isConst _ inductionHypothesis =>
    exact .cons rfl (.cons rfl ((bracketed_constMark isConst).append inductionHypothesis))
  | optional _ _ inductionHypothesis | errorUnion _ _ inductionHypothesis =>
    exact .cons rfl inductionHypothesis

/-- No binary operator is a brace. -/
theorem plain_operator (operator : BinaryOp) : (mark operator.kind).isBrace = false := by
  cases operator <;> rfl

/-- No assignment operator has a brace in it. -/
theorem bracketed_assignMark (operator : Option BinaryOp) : Bracketed (assignMark operator) := by
  rcases operator with _ | operator
  · exact .of_plain rfl
  · cases operator <;> exact .of_plain rfl

/-- No prefix operator is a brace. -/
theorem bracketed_sign (operator : UnaryOp) (operand : Expr) :
    Bracketed (operator.pieces operand) := by
  unfold UnaryOp.pieces
  split <;> exact .of_plain rfl

mutual

/-- An expression closes the braces that it opens. -/
theorem bracketed_expr (value : Expr) : Bracketed value.pieces := by
  cases value with
  | number | string | null | undefined | ident => exact .of_plain rfl
  | bool _ value => cases value <;> exact .of_plain rfl
  | binary _ operator left right =>
    have middle : Bracketed [blank, mark operator.kind, blank] :=
      .cons rfl (.cons (plain_operator operator) (.cons rfl .nil))
    exact ((bracketed_expr left).grouped.append middle).append (bracketed_expr right).grouped
  | unary _ operator operand =>
    exact (bracketed_sign operator operand).append (bracketed_expr operand).grouped
  | call _ callee arguments =>
    exact (((bracketed_expr callee).grouped.append (.of_plain rfl)).append
      (.commas (bracketed_exprs arguments))).append (.of_plain rfl)
  | member _ object | deref _ object | unwrap _ object =>
    exact (bracketed_expr object).grouped.append (.of_plain rfl)
  | index _ object subscript =>
    exact (((bracketed_expr object).grouped.append (.of_plain rfl)).append
      (bracketed_expr subscript)).append (.of_plain rfl)
  | assign _ operator target value =>
    exact ((((bracketed_expr target).grouped.append (.of_plain rfl)).append
      (bracketed_assignMark operator)).append (.of_plain rfl)).append
        (bracketed_expr value).grouped
  | structLit _ name fields => exact .cons rfl (.braced (bracketed_fields fields))
  | arrayLit _ length elementType elements =>
    have counted : Bracketed (match length with
        | some length => TypeExpr.lengthMark (toString length.toNat)
        | none => [mark .leftBracket, .name "_", mark .rightBracket]) := by
      cases length <;> exact .of_plain rfl
    exact (counted.append (bracketed_type elementType)).append (.braced (bracketed_exprs elements))

/-- So do several. -/
theorem bracketed_exprs (values : List Expr) :
    ∀ group ∈ Expr.piecesOfAll values, Bracketed group := by
  match values with
  | [] => exact fun _ impossible => nomatch impossible
  | first :: rest => exact List.forall_mem_cons.mpr ⟨bracketed_expr first, bracketed_exprs rest⟩

/-- So do the values of fields. -/
theorem bracketed_fields (fields : List (Ident × Expr)) :
    ∀ group ∈ Expr.piecesOfFields fields, Bracketed group := by
  match fields with
  | [] => exact fun _ impossible => nomatch impossible
  | (name, value) :: rest =>
    exact List.forall_mem_cons.mpr
      ⟨Bracketed.append (.of_plain rfl) (bracketed_expr value), bracketed_fields rest⟩

end

/-- An expression does not begin with a blank. -/
theorem begins_expr (value : Expr) : Begins value.pieces := by
  cases value with
  | number | string | bool | null | undefined | ident => exact ⟨_, _, rfl, by simp⟩
  | binary _ operator left => exact ((begins_expr left).grouped.append _).append _
  | unary _ operator operand =>
    have sign : Begins (operator.pieces operand) := by
      unfold UnaryOp.pieces
      split <;> exact ⟨_, _, rfl, by simp⟩
    exact sign.append _
  | call _ callee => exact (((begins_expr callee).grouped.append _).append _).append _
  | member _ object | deref _ object | unwrap _ object =>
    exact (begins_expr object).grouped.append _
  | index _ object => exact (((begins_expr object).grouped.append _).append _).append _
  | assign _ _ target =>
    exact ((((begins_expr target).grouped.append _).append _).append _).append _
  | structLit => exact ⟨_, _, rfl, by simp⟩
  | arrayLit _ length =>
    cases length <;> exact ⟨_, _, rfl, by simp⟩

/-- There is no brace in `pub`. -/
theorem bracketed_pubMark (isPub : Bool) : Bracketed (pubMark isPub) := by
  cases isPub <;> exact .of_plain rfl

/-- There are no braces in a name with its type. -/
theorem bracketed_typedName (name : Ident) (type : TypeExpr) : Bracketed (typedName name type) :=
  Bracketed.append (.of_plain rfl) (bracketed_type type)

/-- The braces in front of a value are closed there. -/
theorem bracketed_varHead (declared : VarDecl) : Bracketed declared.headPieces := by
  obtain ⟨isPub, isConst, name, type, init, position⟩ := declared
  have word : Bracketed [mark (if isConst then .constWord else .varWord), blank,
      .name name.name] := by
    cases isConst <;> exact .of_plain rfl
  apply ((bracketed_pubMark isPub).append word).append
  cases type with
  | none => exact .nil
  | some type => exact Bracketed.append (.of_plain rfl) (bracketed_type type)

/-- A variable declaration closes the braces that its value opens. -/
theorem bracketed_var (declared : VarDecl) : Bracketed declared.pieces := by
  apply (bracketed_varHead declared).append
  split
  · exact Bracketed.append (.of_plain rfl) (bracketed_expr _)
  · exact .nil

/-- There are no braces in a head of a function, for its body begins behind it. -/
theorem bracketed_fnHead (declared : FnDecl) : Bracketed declared.headPieces := by
  have modifier : Bracketed ((declared.modifier.map FnModifier.pieces).getD []) := by
    rcases declared.modifier with _ | _ | _ <;> exact .of_plain rfl
  have params : ∀ group ∈ declared.params.map Param.pieces, Bracketed group := by
    intro group member
    obtain ⟨param, -, rfl⟩ := List.mem_map.mp member
    apply Bracketed.append _ (bracketed_typedName param.name param.type)
    cases param.isComptime <;> exact .of_plain rfl
  exact (((((bracketed_pubMark _).append modifier).append (.of_plain rfl)).append
    (.commas params)).append (.of_plain rfl)).append (bracketed_type _)

/-- A condition closes the braces that it opens, so the brace of the block is on its own. -/
theorem bracketed_condition (word : Token.Kind) (plain : (mark word).isBrace = false)
    (condition : Expr) : Bracketed (conditionHead word condition) :=
  ((Bracketed.cons plain (.of_plain rfl)).append (bracketed_expr condition)).append (.of_plain rfl)

/-- A part of a loop header may be left out. -/
theorem bracketed_optionalPart (value : Option Expr) : Bracketed (optionalPart value) := by
  cases value with
  | none => exact .nil
  | some value => exact .cons rfl (bracketed_expr value)

/-- A loop header closes the braces that its three parts open. -/
theorem bracketed_forHead (init : Option Stmt) (condition step : Option Expr) :
    Bracketed (forHead init condition step) := by
  have first : Bracketed (initPieces init) := by
    unfold initPieces
    split
    · exact bracketed_var _
    · exact bracketed_expr _
    · exact .nil
  exact (((((Bracketed.append (.of_plain rfl) first).append (.of_plain rfl)).append
    (bracketed_optionalPart condition)).append (.of_plain rfl)).append
      (bracketed_optionalPart step)).append (.of_plain rfl)

/-- A variable declaration begins with a word. -/
theorem begins_var (declared : VarDecl) : Begins declared.pieces := by
  obtain ⟨isPub, isConst, name, type, init, position⟩ := declared
  have head : Begins (pubMark isPub ++
      [mark (if isConst then .constWord else .varWord), blank, .name name.name]) := by
    cases isPub <;> exact ⟨_, _, rfl, by simp⟩
  exact (head.append _).append _

/-- A head of a function begins with a word. -/
theorem begins_fnHead (declared : FnDecl) : Begins declared.headPieces := by
  obtain ⟨isPub, modifier, name, params, type, body, position⟩ := declared
  have word : Begins (pubMark isPub ++ (modifier.map FnModifier.pieces).getD [] ++
      [mark .fnWord, blank, .name name.name, mark .leftParen]) := by
    rcases modifier with _ | _ | _ <;> cases isPub <;> exact ⟨_, _, rfl, by simp⟩
  exact ((word.append _).append _).append _

/-- How many braces a line begins by closing. -/
def Line.closing (line : Line) : Nat :=
  if line.pieces.head? = some (mark .rightBrace) then 1 else 0

/-- Lines that lead from a number of open braces to another. Each line that is not empty is
indented to the number of braces that are open in front of it, less one if it begins by closing
one, and an empty line is not indented. -/
inductive Nested : Nat → List Line → Nat → Prop
  | nil {depth : Nat} : Nested depth [] depth
  | cons {depth next last : Nat} {line : Line} {rest : List Line}
      (empty : line.pieces = [] → line.level = 0)
      (begins : ∀ first ∈ line.pieces.head?,
        first ≠ blank ∧ line.level + line.closing = depth)
      (turns : next + line.pieces.count (mark .rightBrace) =
        depth + line.pieces.count (mark .leftBrace))
      (later : Nested next rest last) : Nested depth (line :: rest) last

namespace Nested

variable {level depth next last : Nat} {head : List Piece} {lines inner rest : List Line}

/-- Lines that begin at the depth at which others end are nested behind them. -/
theorem append (first : Nested depth lines next) (second : Nested next rest last) :
    Nested depth (lines ++ rest) last := by
  induction first with
  | nil => exact second
  | cons empty begins turns later inductionHypothesis =>
    exact .cons empty begins turns (inductionHypothesis second)

/-- A line that begins with something else than a blank or a closing brace is indented to the number
of braces that are open in front of it. -/
theorem plain {pieces : List Piece} (begins : Begins pieces)
    (notClosing : ∀ first ∈ pieces.head?, first ≠ mark .rightBrace)
    (turns : next + pieces.count (mark .rightBrace) = level + pieces.count (mark .leftBrace))
    (later : Nested next rest last) : Nested level (⟨level, pieces⟩ :: rest) last := by
  obtain ⟨first, others, rfl, notBlank⟩ := begins
  refine .cons (fun impossible => nomatch impossible) ?_ turns later
  rintro _ ⟨⟩
  have stays : Line.closing ⟨level, first :: others⟩ = 0 :=
    if_neg fun same => notClosing first rfl (Option.some.inj same)
  exact ⟨notBlank, by rw [stays, Nat.add_zero]⟩

/-- A line that closes what it opens. -/
theorem single (bracketed : Bracketed head) (begins : Begins head) :
    Nested level [⟨level, head⟩] level :=
  .plain begins bracketed.head?_ne (by rw [bracketed.count_eq]) .nil

/-- A line that ends by opening a brace. -/
theorem opening (bracketed : Bracketed head) (begins : Begins (head ++ [mark .leftBrace]))
    (later : Nested (level + 1) rest last) :
    Nested level (⟨level, head ++ [mark .leftBrace]⟩ :: rest) last := by
  refine .plain begins ?_ ?_ later
  · cases head with
    | nil =>
      rintro _ ⟨⟩
      simp
    | cons => exact bracketed.head?_ne
  · rw [List.count_append, List.count_append, bracketed.count_eq]
    simp
    omega

/-- A line that begins by closing a brace and closes what it opens behind that. -/
theorem closing (bracketed : Bracketed head) :
    Nested (level + 1) [⟨level, mark .rightBrace :: head⟩] level := by
  refine .cons (fun impossible => nomatch impossible) ?_ ?_ .nil
  · rintro _ ⟨⟩
    exact ⟨by simp, rfl⟩
  · rw [List.count_cons_self, List.count_cons_of_ne (by simp), bracketed.count_eq]
    exact Nat.add_right_comm level _ 1

/-- A line that begins by closing a brace and ends by opening one. -/
theorem turning (bracketed : Bracketed head) (later : Nested (level + 1) rest last) :
    Nested (level + 1) (⟨level, mark .rightBrace :: head ++ [mark .leftBrace]⟩ :: rest) last := by
  refine .cons (fun impossible => nomatch impossible) ?_ ?_ later
  · rintro _ ⟨⟩
    exact ⟨by simp, rfl⟩
  · rw [List.cons_append, List.count_cons_self, List.count_cons_of_ne (by simp),
      List.count_append, List.count_append, bracketed.count_eq]
    simp

/-- A line that ends in a semicolon. -/
theorem sentence (bracketed : Bracketed head) (begins : Begins head) :
    Nested level [sentence level head] level :=
  .single (bracketed.append (.of_plain rfl)) (begins.append _)

/-- Lines between braces. -/
theorem enclosed (bracketed : Bracketed head) (begins : Begins (head ++ [mark .leftBrace]))
    (inside : Nested (level + 1) inner (level + 1)) :
    Nested level (enclosed level head inner) level := by
  unfold Layout.enclosed
  split
  · have braces : Bracketed (head ++ [mark .leftBrace, mark .rightBrace]) :=
      bracketed.append (.braces .nil .nil)
    have start := begins.append [mark .rightBrace]
    rw [List.append_assoc] at start
    exact .single braces start
  · exact .opening bracketed begins (inside.append (.closing .nil))

end Nested

/-- A condition begins with its word, whatever follows. -/
theorem begins_condition (word : Token.Kind) (condition : Expr) (rest : List Piece) :
    Begins (conditionHead word condition ++ rest) :=
  ⟨mark word, _, rfl, by simp⟩

mutual

/-- The lines of a statement lead back to where they began. -/
theorem nested_stmt (statement : Stmt) (level : Nat) :
    Nested level (stmtLines level statement) level := by
  cases statement with
  | block _ body =>
    exact .enclosed .nil ⟨_, _, rfl, by simp⟩ (nested_body body (level + 1))
  | returns _ value =>
    cases value with
    | none => exact .sentence (.of_plain rfl) ⟨_, _, rfl, by simp⟩
    | some value =>
      exact .sentence (Bracketed.append (.of_plain rfl) (bracketed_expr value))
        ⟨_, _, rfl, by simp⟩
  | branch _ condition body otherwise =>
    exact .opening (bracketed_condition _ rfl condition) (begins_condition _ condition _)
      ((nested_body body (level + 1)).append (nested_else otherwise level))
  | whileLoop _ condition body =>
    exact .enclosed (bracketed_condition _ rfl condition) (begins_condition _ condition _)
      (nested_body body (level + 1))
  | forLoop _ init condition step body =>
    exact .enclosed (bracketed_forHead init condition step) ⟨_, _, rfl, by simp⟩
      (nested_body body (level + 1))
  | breakLoop | continueLoop => exact .sentence (.of_plain rfl) ⟨_, _, rfl, by simp⟩
  | expr _ value => exact .sentence (bracketed_expr value) (begins_expr value)
  | comptime _ body =>
    exact .enclosed (.of_plain rfl) ⟨_, _, rfl, by simp⟩ (nested_body body (level + 1))
  | declare _ declared => exact .sentence (bracketed_var declared) (begins_var declared)

/-- The lines from the brace that closes a branch close it. -/
theorem nested_else (otherwise : Option Stmt) (level : Nat) :
    Nested (level + 1) (elseLines level otherwise) level := by
  have word : Bracketed [blank, mark .elseWord, blank] := .of_plain rfl
  match otherwise with
  | none => exact .closing .nil
  | some (.block _ body) =>
    exact .turning word ((nested_body body (level + 1)).append (.closing .nil))
  | some (.branch _ condition body otherwise) =>
    exact .turning (word.append (bracketed_condition _ rfl condition))
      ((nested_body body (level + 1)).append (nested_else otherwise level))
  | some (.returns ..) | some (.whileLoop ..) | some (.forLoop ..) | some (.breakLoop ..)
  | some (.continueLoop ..) | some (.expr ..) | some (.comptime ..) | some (.declare ..) =>
    exact .turning word ((nested_stmt _ (level + 1)).append (.closing .nil))

/-- The lines of several statements lead back to where they began. -/
theorem nested_body (statements : List Stmt) (level : Nat) :
    Nested level (blockLines level statements) level := by
  match statements with
  | [] => exact .nil
  | first :: rest => exact (nested_stmt first level).append (nested_body rest level)

end

/-- What is written in front of the fields of a struct ends by opening a brace. -/
theorem exists_structHead (declared : StructDecl) :
    ∃ head, Bracketed head ∧ Begins head ∧
      pubMark declared.isPub ++ [mark .constWord, blank, .name declared.name.name, blank,
        mark .assign, blank, mark .structWord, blank, mark .leftBrace] =
      head ++ [mark .leftBrace] := by
  refine ⟨pubMark declared.isPub ++ [mark .constWord, blank, .name declared.name.name, blank,
    mark .assign, blank, mark .structWord, blank], ?_, ?_, ?_⟩
  · exact (bracketed_pubMark declared.isPub).append (.of_plain rfl)
  · cases declared.isPub <;> exact ⟨_, _, rfl, by simp⟩
  · rw [List.append_assoc]
    rfl

/-- The fields of a struct are one brace deep. -/
theorem nested_fields (fields : List Field) :
    Nested 1 (fields.map fun field => ⟨1, typedName field.name field.type ++ [mark .comma]⟩) 1 := by
  induction fields with
  | nil => exact .nil
  | cons field rest inductionHypothesis =>
    have line : Bracketed (typedName field.name field.type ++ [mark .comma]) :=
      (bracketed_typedName field.name field.type).append (.of_plain rfl)
    exact (Nested.single line ⟨_, _, rfl, by simp⟩).append inductionHypothesis

/-- A struct closes the brace that it opens. -/
theorem nested_struct (declared : StructDecl) : Nested 0 (structLines declared) 0 := by
  obtain ⟨head, bracketed, begins, same⟩ := exists_structHead declared
  unfold structLines
  dsimp only
  rw [same]
  split
  · rw [List.append_assoc]
    exact .sentence (bracketed.append (.braces .nil .nil)) (begins.append _)
  · exact .opening bracketed (begins.append _)
      ((nested_fields declared.fields).append (.closing (.of_plain rfl)))

/-- The lines of a declaration lead back to where no brace is open. -/
theorem nested_decl (declared : Decl) : Nested 0 (declLines declared) 0 := by
  cases declared with
  | fn declared =>
    exact .enclosed ((bracketed_fnHead declared).append (.of_plain rfl))
      (((begins_fnHead declared).append _).append _) (nested_body declared.body 1)
  | var declared => exact .sentence (bracketed_var declared) (begins_var declared)
  | struct declared => exact nested_struct declared

/-- So do the lines of a program. -/
theorem nested_program (program : Program) : Nested 0 (programLines program) 0 := by
  unfold programLines
  induction program with
  | nil => exact .nil
  | cons first rest inductionHypothesis =>
    cases rest with
    | nil => simpa [List.intercalate] using nested_decl first
    | cons second later =>
      have divider : Nested 0 [⟨0, []⟩] 0 :=
        .cons (fun _ => rfl) (fun _ impossible => nomatch impossible) rfl .nil
      simp only [List.map_cons] at inductionHypothesis ⊢
      rw [List.intercalate_cons_cons, List.append_assoc]
      exact (nested_decl first).append (divider.append inductionHypothesis)

end Layout

end SystemsLang
