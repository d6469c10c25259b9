import SystemsLang.Proofs.Layout.DerivesProgram
import SystemsLang.Proofs.Layout.JoinedExpr

/-!
# The lines of a layout are joined

Every line of the layout of a spellable program is joined, so it is cut into what its pieces stand
for. Lines end in a line break and begin with blanks, and the text of a program is cut line by line.

Main statement: the lexemes of a laid-out program spell its pieces (`spells_format`).
-/

namespace SystemsLang.Layout

open Token (Kind)
open Syntax
open Piece (mark blank commas commas_cons commas_single Joined Stops Free Whole stops_cons)

/-- All lines are joined, each in itself. -/
def AllJoined (lines : List Line) : Prop :=
  ∀ line ∈ lines, Joined line.pieces

variable {level : Nat} {pieces head rest : List Piece} {first second inner : List Line}

/-- Lines that are joined, one behind another. -/
theorem AllJoined.append (firstJoined : AllJoined first) (secondJoined : AllJoined second) :
    AllJoined (first ++ second) := by
  intro line member
  rcases List.mem_append.mp member with member | member
  · exact firstJoined line member
  · exact secondJoined line member

/-- A line that is joined, in front of others. -/
theorem AllJoined.cons {line : Line} (joined : Joined line.pieces) (later : AllJoined second) :
    AllJoined (line :: second) := by
  intro other member
  rcases List.mem_cons.mp member with rfl | member
  · exact joined
  · exact later other member

/-- No line is joined with any other. -/
theorem AllJoined.nil : AllJoined [] :=
  fun _ impossible => nomatch impossible

/-- A single mark is joined. -/
theorem joined_mark {kind : Kind} (proper : Piece.hasSpelling kind = true) : Joined [mark kind] :=
  .operand proper trivial fun _ impossible => nomatch impossible

/-- A line that ends in a semicolon. -/
theorem allJoined_sentence (whole : Whole pieces) : AllJoined [sentence level pieces] :=
  .cons (whole _ (joined_mark rfl) (stops_cons rfl)) .nil

/-- Lines between braces. -/
theorem allJoined_enclosed (whole : Whole head) (joined : AllJoined inner) :
    AllJoined (enclosed level head inner) := by
  unfold enclosed
  split
  · have braces : Joined [mark .leftBrace, mark .rightBrace] :=
      .operand rfl (joined_mark rfl) (stops_cons rfl)
    exact .cons (whole _ braces (stops_cons rfl)) .nil
  · have opening : Joined (head ++ [mark .leftBrace]) :=
      whole _ (joined_mark rfl) (stops_cons rfl)
    exact (AllJoined.cons opening joined).append (.cons (joined_mark rfl) .nil)

/-- The word that makes a declaration visible elsewhere, before another word. -/
theorem joined_pubMark {isPub : Bool} (joined : Joined rest) : Joined (pubMark isPub ++ rest) := by
  cases isPub with
  | true => exact .operand rfl joined.blank (stops_cons rfl)
  | false => exact joined

/-- A name with its type. -/
theorem whole_typedName {name : Ident} {type : TypeExpr} (identifier : Token.IsIdentifier name.name)
    (spellable : type.Spellable) : Whole (typedName name type) := by
  intro rest joined stopped
  have typed : Joined (blank :: (type.pieces ++ rest)) :=
    (whole_type spellable rest joined stopped).blank
  have colon : Joined (mark .colon :: blank :: (type.pieces ++ rest)) :=
    .operand rfl typed (stops_cons rfl)
  exact .operand identifier.word colon (stops_cons rfl)

/-- A variable up to its type. -/
theorem whole_varHead {declared : VarDecl} (spellable : declared.Spellable) :
    Whole declared.headPieces := by
  intro rest joined stopped
  obtain ⟨isPub, isConst, name, type, init, place⟩ := declared
  have word : Piece.hasSpelling (if isConst then .constWord else .varWord) = true := by
    cases isConst <;> rfl
  rw [VarDecl.headPieces, List.append_assoc, List.append_assoc]
  refine joined_pubMark (.operand word (Piece.Joined.blank ?_) (stops_cons rfl))
  cases type with
  | none => exact .operand spellable.name.word joined stopped
  | some type => exact whole_typedName spellable.name (spellable.type type rfl) rest joined stopped

/-- A variable. -/
theorem whole_var {declared : VarDecl} (spellable : declared.Spellable) :
    Whole declared.pieces := by
  intro rest joined stopped
  have head := whole_varHead spellable
  obtain ⟨isPub, isConst, name, type, init, place⟩ := declared
  rw [VarDecl.pieces, List.append_assoc]
  cases init with
  | none => exact head rest joined stopped
  | some value =>
    have inner : Joined (blank :: (value.pieces ++ rest)) :=
      (whole_expr value (spellable.init value rfl) rest joined stopped).blank
    have assigned : Joined (mark .assign :: blank :: (value.pieces ++ rest)) :=
      .operand rfl inner (stops_cons rfl)
    exact head _ assigned.blank (stops_cons rfl)

/-- A condition in parentheses, behind its word. -/
theorem whole_condition {word : Kind} {condition : Expr} (proper : Piece.hasSpelling word = true)
    (spellable : condition.Spellable) : Whole (conditionHead word condition) := by
  intro rest joined stopped
  simp only [conditionHead, List.append_assoc, List.cons_append, List.nil_append]
  have closing : Joined (mark .rightParen :: blank :: rest) :=
    .operand rfl joined.blank (stops_cons rfl)
  have inner := whole_expr condition spellable _ closing (stops_cons rfl)
  have opening : Joined (mark .leftParen ::
      (condition.pieces ++ mark .rightParen :: blank :: rest)) :=
    .opening rfl rfl (by decide) (by decide) inner (free_expr condition _)
  exact .operand proper opening.blank (stops_cons rfl)

/-- An expression behind a blank, if there is one. -/
theorem whole_optional {value : Option Expr} (spellable : ∀ given ∈ value, given.Spellable) :
    Whole (optionalPart value) := by
  intro rest joined stopped
  cases value with
  | none => exact joined
  | some value => exact (whole_expr value (spellable value rfl) rest joined stopped).blank

/-- An expression behind a blank is stopped by it. -/
theorem stops_optional {value : Option Expr} (stopped : Stops rest) :
    Stops (optionalPart value ++ rest) := by
  cases value with
  | none => exact stopped
  | some value => exact stops_cons rfl

/-- A parenthesis before the first part in the header of a `for`. -/
theorem joined_start {init : Option Stmt} (spellable : ∀ start ∈ init, start.SpellableStart)
    (joined : Joined rest) (stopped : Stops rest) :
    Joined (mark .leftParen :: (initPieces init ++ rest)) := by
  match init, spellable with
  | none, _ => exact .operand rfl joined stopped
  | some (.declare _ declared), spellable =>
    have inner := whole_var (spellable _ rfl).2 rest joined stopped
    refine .opening rfl rfl (by decide) (by decide) inner ?_
    obtain ⟨isPub, isConst, name, type, init, place⟩ := declared
    cases isPub <;> cases isConst <;> (rintro next ⟨⟩; rfl)
  | some (.expr _ value), spellable =>
    have inner := whole_expr value (spellable _ rfl) rest joined stopped
    exact .opening rfl rfl (by decide) (by decide) inner (free_expr value _)
  | some (.block ..), spellable | some (.returns ..), spellable | some (.branch ..), spellable
  | some (.whileLoop ..), spellable | some (.forLoop ..), spellable
  | some (.breakLoop ..), spellable | some (.continueLoop ..), spellable
  | some (.comptime ..), spellable => exact (spellable _ rfl).elim

/-- The header of a `for`. -/
theorem whole_forHead {init : Option Stmt} {condition step : Option Expr}
    (starts : ∀ start ∈ init, start.SpellableStart) (tests : ∀ test ∈ condition, test.Spellable)
    (steps : ∀ update ∈ step, update.Spellable) : Whole (forHead init condition step) := by
  intro rest joined stopped
  simp only [forHead, List.append_assoc, List.cons_append, List.nil_append]
  have closing : Joined (mark .rightParen :: blank :: rest) :=
    .operand rfl joined.blank (stops_cons rfl)
  have stepped := whole_optional steps _ closing (stops_cons rfl)
  have divider : Joined (mark .semicolon ::
      (optionalPart step ++ mark .rightParen :: blank :: rest)) :=
    .operand rfl stepped (stops_optional (stops_cons rfl))
  have tested := whole_optional tests _ divider (stops_cons rfl)
  have first : Joined (mark .semicolon :: (optionalPart condition ++ mark .semicolon ::
      (optionalPart step ++ mark .rightParen :: blank :: rest))) :=
    .operand rfl tested (stops_optional (stops_cons rfl))
  exact .operand rfl (joined_start starts first (stops_cons rfl)).blank (stops_cons rfl)

/-- The brace that closes one branch, with the word that begins the next. -/
theorem joined_elseHead (joined : Joined rest) : Joined (elseHead ++ rest) := by
  have word : Joined (mark .elseWord :: blank :: rest) := .operand rfl joined.blank (stops_cons rfl)
  exact .operand rfl word.blank (stops_cons rfl)

mutual

/-- The lines of a statement are joined. -/
theorem allJoined_stmt (statement : Stmt) (level : Nat) (spellable : statement.Spellable) :
    AllJoined (stmtLines level statement) := by
  cases statement with
  | block position body =>
    exact allJoined_enclosed (fun _ joined _ => joined) (allJoined_body body _ spellable)
  | returns position value =>
    cases value with
    | none => exact allJoined_sentence fun _ => .operand rfl
    | some value =>
      refine allJoined_sentence fun rest joined stopped => ?_
      have inner := whole_expr value (spellable value rfl) rest joined stopped
      exact .operand rfl inner.blank (stops_cons rfl)
  | branch position condition body otherwise =>
    have opening : Joined (conditionHead .ifWord condition ++ [mark .leftBrace]) :=
      whole_condition rfl spellable.1 _ (joined_mark rfl) (stops_cons rfl)
    exact (AllJoined.cons opening (allJoined_body body _ spellable.2.1)).append
      (allJoined_else otherwise level spellable.2.2)
  | whileLoop position condition body =>
    exact allJoined_enclosed (whole_condition rfl spellable.1) (allJoined_body body _ spellable.2)
  | forLoop position init condition step body =>
    exact allJoined_enclosed (whole_forHead spellable.1 spellable.2.1 spellable.2.2.1)
      (allJoined_body body _ spellable.2.2.2)
  | breakLoop position => exact allJoined_sentence fun _ => .operand rfl
  | continueLoop position => exact allJoined_sentence fun _ => .operand rfl
  | expr position value => exact allJoined_sentence (whole_expr value spellable)
  | comptime position body =>
    exact allJoined_enclosed (fun _ joined _ => .operand rfl joined.blank (stops_cons rfl))
      (allJoined_body body _ spellable)
  | declare position declared => exact allJoined_sentence (whole_var spellable.2)

/-- The lines of the statements of a block are joined. -/
theorem allJoined_body (body : List Stmt) (level : Nat) (spellable : Stmt.AllSpellable body) :
    AllJoined (blockLines level body) := by
  match body with
  | [] => exact .nil
  | first :: rest =>
    exact (allJoined_stmt first level spellable.1).append (allJoined_body rest level spellable.2)

/-- So are the lines from the closing brace of the first branch on. -/
theorem allJoined_else (otherwise : Option Stmt) (level : Nat)
    (spellable : Stmt.SpellableElse otherwise) : AllJoined (elseLines level otherwise) := by
  match otherwise, spellable with
  | none, _ => exact .cons (joined_mark rfl) .nil
  | some (.block _ body), spellable =>
    have opening : Joined (elseHead ++ [mark .leftBrace]) := joined_elseHead (joined_mark rfl)
    exact (AllJoined.cons opening (allJoined_body body _ spellable)).append
      (.cons (joined_mark rfl) .nil)
  | some (.branch position condition body otherwise), spellable =>
    have chained : Joined (conditionHead .ifWord condition ++ [mark .leftBrace]) :=
      whole_condition rfl spellable.1 _ (joined_mark rfl) (stops_cons rfl)
    have opening := joined_elseHead chained
    rw [← List.append_assoc] at opening
    exact (AllJoined.cons opening (allJoined_body body _ spellable.2.1)).append
      (allJoined_else otherwise level spellable.2.2)

end

/-- A parameter. -/
theorem whole_param {param : Param} (spellable : param.Spellable) : Whole param.pieces := by
  intro rest joined stopped
  obtain ⟨isComptime, name, type, place⟩ := param
  have typed : Joined (typedName name type ++ rest) :=
    whole_typedName spellable.1 spellable.2 rest joined stopped
  cases isComptime with
  | true => exact .operand rfl typed.blank (stops_cons rfl)
  | false => exact typed

/-- A parameter begins with a word. -/
theorem free_param (param : Param) : ∀ rest, Free (param.pieces ++ rest) := by
  intro rest
  obtain ⟨isComptime, name, type, place⟩ := param
  cases isComptime <;> (rintro next ⟨⟩; rfl)

/-- Parameters with commas between them, behind the opening parenthesis. -/
theorem joined_params {params : List Param} (spellable : ∀ param ∈ params, param.Spellable)
    (joined : Joined rest) (stopped : Stops rest) :
    Joined (commas (params.map Param.pieces) ++ rest) ∧
      Free (commas (params.map Param.pieces) ++ rest) := by
  induction params with
  | nil => exact ⟨joined, stopped.free⟩
  | cons first others inductionHypothesis =>
    have whole := whole_param (spellable first List.mem_cons_self)
    obtain ⟨later, -⟩ := inductionHypothesis fun param member =>
      spellable param (List.mem_cons_of_mem _ member)
    cases others with
    | nil =>
      rw [List.map_singleton, commas_single]
      exact ⟨whole rest joined stopped, free_param first rest⟩
    | cons second others =>
      rw [List.map_cons, List.map_cons, commas_cons, List.append_assoc]
      have comma : Joined (mark .comma :: blank ::
          (commas ((second :: others).map Param.pieces) ++ rest)) :=
        .operand rfl later.blank (stops_cons rfl)
      exact ⟨whole _ comma (stops_cons rfl), free_param first _⟩

/-- The word before `fn`, if there is one. -/
theorem joined_modifier {modifier : Option FnModifier} (joined : Joined rest) :
    Joined ((modifier.map FnModifier.pieces).getD [] ++ rest) := by
  match modifier with
  | none => exact joined
  | some .inlined | some .comptime => exact .operand rfl joined.blank (stops_cons rfl)

/-- A function up to its body. -/
theorem whole_fnHead {declared : FnDecl} (spellable : (Decl.fn declared).Spellable) :
    Whole declared.headPieces := by
  intro rest joined stopped
  obtain ⟨name, params, type, -⟩ := spellable
  simp only [FnDecl.headPieces, List.append_assoc, List.cons_append, List.nil_append]
  have typed := whole_type type rest joined stopped
  have closing : Joined (mark .rightParen :: blank :: (declared.returnType.pieces ++ rest)) :=
    .operand rfl typed.blank (stops_cons rfl)
  obtain ⟨listed, free⟩ := joined_params params closing (stops_cons rfl)
  have opening : Joined (mark .leftParen :: (commas (declared.params.map Param.pieces) ++
      mark .rightParen :: blank :: (declared.returnType.pieces ++ rest))) :=
    .opening rfl rfl (by decide) (by decide) listed free
  have named : Joined (.name declared.name.name :: mark .leftParen ::
      (commas (declared.params.map Param.pieces) ++
        mark .rightParen :: blank :: (declared.returnType.pieces ++ rest))) :=
    .operand name.word opening (stops_cons rfl)
  exact joined_pubMark (joined_modifier (.operand rfl named.blank (stops_cons rfl)))

/-- The lines of a struct are joined. -/
theorem allJoined_struct {declared : StructDecl} (spellable : (Decl.struct declared).Spellable) :
    AllJoined (structLines declared) := by
  have head (rest : List Piece) (joined : Joined rest) (stopped : Stops rest) :
      Joined ((pubMark declared.isPub ++ [mark .constWord, blank, .name declared.name.name, blank,
        mark .assign, blank, mark .structWord, blank, mark .leftBrace]) ++ rest) := by
    rw [List.append_assoc]
    have opening : Joined (mark .leftBrace :: rest) := .operand rfl joined stopped
    have struct : Joined (mark .structWord :: blank :: mark .leftBrace :: rest) :=
      .operand rfl opening.blank (stops_cons rfl)
    have assigned : Joined (mark .assign :: blank :: mark .structWord :: blank ::
        mark .leftBrace :: rest) :=
      .operand rfl struct.blank (stops_cons rfl)
    have named : Joined (.name declared.name.name :: blank :: mark .assign :: blank ::
        mark .structWord :: blank :: mark .leftBrace :: rest) :=
      .operand spellable.1.word assigned.blank (stops_cons rfl)
    exact joined_pubMark (.operand rfl named.blank (stops_cons rfl))
  have closing : Joined [mark .rightBrace, mark .semicolon] :=
    .operand rfl (joined_mark rfl) (stops_cons rfl)
  unfold structLines
  split
  · refine .cons ?_ .nil
    rw [pieces_sentence, List.append_assoc]
    exact head _ closing (stops_cons rfl)
  · have opening := head [] trivial fun _ impossible => nomatch impossible
    rw [List.append_nil] at opening
    have fields : AllJoined (declared.fields.map fun field =>
        ⟨1, typedName field.name field.type ++ [mark .comma]⟩) := by
      intro line member
      obtain ⟨field, isField, rfl⟩ := List.mem_map.mp member
      have spelled := spellable.2 field isField
      exact whole_typedName spelled.1 spelled.2 _ (joined_mark rfl) (stops_cons rfl)
    exact (AllJoined.cons opening fields).append (.cons closing .nil)

/-- The lines of a declaration are joined. -/
theorem allJoined_decl {declared : Decl} (spellable : declared.Spellable) :
    AllJoined (declLines declared) := by
  cases declared with
  | fn declared =>
    refine allJoined_enclosed (fun rest joined stopped => ?_)
      (allJoined_body declared.body 1 spellable.2.2.2)
    rw [List.append_assoc]
    exact whole_fnHead spellable _ joined.blank (stops_cons rfl)
  | var declared => exact allJoined_sentence (whole_var spellable)
  | struct declared => exact allJoined_struct spellable

/-- The lines of a program are joined. -/
theorem allJoined_program {program : Program} (spellable : program.Spellable) :
    AllJoined (programLines program) := by
  unfold programLines
  induction program with
  | nil => exact .nil
  | cons first rest inductionHypothesis =>
    have head : AllJoined (declLines first) := allJoined_decl (spellable first List.mem_cons_self)
    have later := inductionHypothesis fun declared member =>
      spellable declared (List.mem_cons_of_mem _ member)
    cases rest with
    | nil => simpa [List.intercalate] using head
    | cons second rest =>
      have split : [(⟨0, []⟩ : Line)].intercalate ((first :: second :: rest).map declLines) =
          declLines first ++ (⟨0, []⟩ :: [(⟨0, []⟩ : Line)].intercalate
            ((second :: rest).map declLines)) := by
        simp [List.intercalate]
      rw [split]
      exact head.append (.cons trivial later)

/-- Indentation consists of spaces and tabs. -/
theorem mem_indentation {options : Options} {level : Nat} {character : Char}
    (member : character ∈ (Text.Line.indentation options.unit level).toList) :
    character = ' ' ∨ character = '\t' := by
  rw [Text.Line.indentation, String.toList_join] at member
  obtain ⟨part, isUnit, member⟩ := List.mem_flatMap.mp member
  rw [List.eq_of_mem_replicate isUnit, Options.unit] at member
  split at member
  · exact .inr (List.mem_singleton.mp member)
  · rw [String.toList_ofList] at member
    exact .inl (List.eq_of_mem_replicate member)

/-- Indentation consists of blanks. -/
theorem all_isBlank_indentation (options : Options) (level : Nat) :
    (Text.Line.indentation options.unit level).toList.all Text.isBlank = true := by
  rw [List.all_eq_true]
  intro character member
  rcases mem_indentation member with rfl | rfl <;> decide

/-- The text of lines begins with the first one. -/
theorem toList_renderAll_cons (unit : String) (line : Line) (lines : List Line) :
    (Text.Line.renderAll unit ((line :: lines).map Line.toText)).toList =
      (Text.Line.indentation unit line.level).toList ++ ((Piece.textOf line.pieces).toList ++
        '\n' :: (Text.Line.renderAll unit (lines.map Line.toText)).toList) := by
  simp [Text.Line.renderAll, Text.Line.render, Line.toText]

/-- The text of joined lines is cut into what their pieces stand for. -/
theorem cut_renderAll (options : Options) {lines : List Line} (joined : AllJoined lines) :
    Token.cut (Text.Line.renderAll options.unit (lines.map Line.toText)).toList =
      (piecesOf lines).filterMap Piece.lexeme? := by
  induction lines with
  | nil => exact Token.cut_nil
  | cons line lines inductionHypothesis =>
    rw [toList_renderAll_cons, Token.cut_blanks (all_isBlank_indentation options line.level),
      Piece.cut_line (joined line List.mem_cons_self),
      inductionHypothesis fun other member => joined other (List.mem_cons_of_mem _ member),
      piecesOf_cons, List.filterMap_append]

/-- The lexemes of a laid-out program spell its pieces. -/
theorem spells_format {program : Program} (spellable : program.Spellable) (options : Options) :
    Spells (Token.lexemes (program.format options)) (piecesOf (programLines program)) := by
  unfold Spells
  rw [Token.map_lexemes]
  exact cut_renderAll options (allJoined_program spellable)

end SystemsLang.Layout
