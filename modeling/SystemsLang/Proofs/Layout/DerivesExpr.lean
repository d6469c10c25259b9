import SystemsLang.Proofs.Layout.Nesting
import SystemsLang.Proofs.Layout.Spellable
import SystemsLang.Proofs.Layout.Spelling

/-!
# The layout of an expression spells it

The tokens that the pieces of a spellable tree stand for spell the tree again, up to positions, on
as many levels as its measure says. For an operand the parentheses are what makes this true: it
stands without them only if its row is tight enough for its place, and with them it stands in the
tightest row.
-/

namespace SystemsLang.Layout

open Token (Kind)
open Syntax Grammar
open Piece (mark blank commas commas_cons commas_single grouped braced)

variable {tokens : List Token}

/-- The name of a primitive type is one to the scanner. -/
theorem ofWord_of_mem_primitive {name : String} (member : name ∈ Token.primitiveTypeNames) :
    Kind.ofWord name = .primitiveType := by
  have all : ∀ name ∈ Token.primitiveTypeNames, Kind.ofWord name = .primitiveType := by decide
  exact all name member

/-- The written form of a number consists of its digits. -/
theorem length_of_toString {token : Token} {length : UInt64} (number : token.kind = .number)
    (text : token.text = toString length.toNat) : Length token length := by
  have digits : token.text.toList = Nat.toDigits 10 length.toNat := by
    rw [text, Token.toList_toString]
  refine ⟨number, _, .inl digits, Nat.toDigits_ne_nil, ?_, ?_⟩
  · rw [List.all_eq_true]
    intro digit member
    exact Nat.isDigit_of_mem_toDigits (by decide) (by decide) member
  · have value := Nat.ofDigitChars_ten_toDigits (n := length.toNat)
    rw [Nat.ofDigitChars_eq_foldl] at value
    exact value

/-- A word that may be left out, with the blank behind it. -/
theorem mark_of_word {kind : Kind} {isThere : Bool} {pieces : List Piece}
    (spells : Spells tokens ((if isThere then [mark kind, blank] else []) ++ pieces)) :
    ∃ words later, tokens = words ++ later ∧ Mark kind words isThere ∧ Spells later pieces := by
  cases isThere with
  | true =>
    obtain ⟨word, later, rfl, kind, rest⟩ := Spells.mark spells
    exact ⟨[word], later, rfl, .present kind, rest.blank⟩
  | false => exact ⟨[], tokens, rfl, .absent, spells⟩

/-- The tokens of the layout of a type spell it. -/
theorem derives_type {type : TypeExpr} (spellable : type.Spellable)
    (spells : Spells tokens type.pieces) :
    ∃ value, DerivesType tokens value type.levels ∧ value.unplaced = type.unplaced := by
  induction type generalizing tokens with
  | primitive position name =>
    obtain ⟨token, later, rfl, kind, rfl, rest⟩ := spells.cons rfl
    rw [rest.nil]
    exact ⟨_, .primitive (kind.trans (ofWord_of_mem_primitive spellable)), rfl⟩
  | named position name =>
    obtain ⟨token, later, rfl, kind, rfl, rest⟩ := spells.ident spellable
    rw [rest.nil]
    exact ⟨_, .named kind, rfl⟩
  | pointer position isConst pointee inductionHypothesis =>
    obtain ⟨star, later, rfl, kind, rest⟩ := spells.mark
    obtain ⟨const, later, rfl, marked, rest⟩ := mark_of_word rest
    obtain ⟨value, derived, same⟩ := inductionHypothesis spellable rest
    exact ⟨_, .pointer kind marked derived, by rw [TypeExpr.unplaced, same, TypeExpr.unplaced]⟩
  | array position length element inductionHypothesis =>
    obtain ⟨opening, later, rfl, opens, rest⟩ := spells.mark
    obtain ⟨number, later, rfl, kind, text, rest⟩ := rest.cons rfl
    obtain ⟨closing, later, rfl, closes, rest⟩ := rest.mark
    obtain ⟨value, derived, same⟩ := inductionHypothesis spellable rest
    exact ⟨_, .array opens (length_of_toString kind text) closes derived,
      by rw [TypeExpr.unplaced, same, TypeExpr.unplaced]⟩
  | slice position isConst element inductionHypothesis =>
    obtain ⟨opening, later, rfl, opens, rest⟩ := spells.mark
    obtain ⟨closing, later, rfl, closes, rest⟩ := rest.mark
    obtain ⟨const, later, rfl, marked, rest⟩ := mark_of_word rest
    obtain ⟨value, derived, same⟩ := inductionHypothesis spellable rest
    exact ⟨_, .slice opens closes marked derived,
      by rw [TypeExpr.unplaced, same, TypeExpr.unplaced]⟩
  | optional position inner inductionHypothesis =>
    obtain ⟨question, later, rfl, kind, rest⟩ := spells.mark
    obtain ⟨value, derived, same⟩ := inductionHypothesis spellable rest
    exact ⟨_, .optional kind derived, by rw [TypeExpr.unplaced, same, TypeExpr.unplaced]⟩
  | errorUnion position inner inductionHypothesis =>
    obtain ⟨bang, later, rfl, kind, rest⟩ := spells.mark
    obtain ⟨value, derived, same⟩ := inductionHypothesis spellable rest
    exact ⟨_, .errorUnion kind derived, by rw [TypeExpr.unplaced, same, TypeExpr.unplaced]⟩

/-- The tokens spell the expression, up to positions, in its row and on its levels. -/
def Forms (expression : Expr) (tokens : List Token) : Prop :=
  ∃ value, Derives tokens (.expr expression.row expression.chain value) expression.levels ∧
    value.unplaced = expression.unplaced

/-- The tokens spell the expression as an operand that stands in a row. -/
def FormsOperand (row required : Nat) (expression : Expr) (tokens : List Token) : Prop :=
  ∃ first later value, tokens = first :: later ∧
    Derives tokens (.expr row (expression.chainIn required) value) (expression.levelsIn required) ∧
    value.unplaced = expression.unplaced

/-- An operand is put into parentheses if its own row is too loose for its place. -/
theorem forms_operand {expression : Expr} {row required : Nat}
    (inner : ∀ tokens, Spells tokens expression.pieces → Forms expression tokens)
    (tight : ∀ {own}, required ≤ Parser.rowPower own → row ≤ own) (le : row ≤ postfixRow)
    (spells : Spells tokens (grouped expression.power required expression.pieces)) :
    FormsOperand row required expression tokens := by
  have formed : ∃ value, Derives tokens (.expr row (expression.chainIn required) value)
      (expression.levelsIn required) ∧ value.unplaced = expression.unplaced := by
    unfold grouped at spells
    unfold Expr.chainIn Expr.levelsIn
    by_cases loose : expression.power < required
    · rw [if_pos loose] at spells ⊢
      rw [if_pos loose]
      obtain ⟨opening, later, rfl, opens, rest⟩ := spells.mark
      obtain ⟨before, after, rfl, formed, rest⟩ := rest.append
      obtain ⟨closing, rfl, closes⟩ := rest.lastMark
      obtain ⟨value, derived, same⟩ := inner before formed
      refine ⟨_, (Derives.group opens (derived.loosenTo (Nat.zero_le _)) closes).loosenTo le, ?_⟩
      rw [Expr.unplaced_moveTo, same]
    · rw [if_neg loose] at spells ⊢
      rw [if_neg loose]
      obtain ⟨value, derived, same⟩ := inner tokens spells
      have enough : required ≤ Parser.rowPower expression.row := by
        rw [← Expr.power_eq]
        exact Nat.le_of_not_lt loose
      exact ⟨value, derived.loosenTo (tight enough), same⟩
  obtain ⟨value, derived, same⟩ := formed
  obtain ⟨first, later, rfl, -⟩ := derived.starts
  exact ⟨first, later, value, rfl, derived, same⟩

/-- Operands of the operators behind an operand. -/
theorem postfix_le {own : Nat} (enough : postfixPower ≤ Parser.rowPower own) : postfixRow ≤ own :=
  Parser.rowPower_le_iff.mp enough

/-- The operand of a prefix operator. -/
theorem prefix_le {own : Nat} (enough : UnaryOp.power ≤ Parser.rowPower own) : prefixRow ≤ own :=
  Parser.rowPower_le_iff.mp enough

/-- The left operand of a binary operator. -/
theorem left_le {operator : BinaryOp} {own : Nat}
    (enough : operator.power.left ≤ Parser.rowPower own) : operatorRow operator ≤ own := by
  rw [show operator.power.left = Parser.rowPower (operatorRow operator) by cases operator <;> rfl]
    at enough
  exact Parser.rowPower_le_iff.mp enough

/-- The right operand of a binary operator. -/
theorem right_le {operator : BinaryOp} {own : Nat}
    (enough : operator.power.right ≤ Parser.rowPower own) : operatorRow operator + 1 ≤ own := by
  rw [Parser.rightPower_eq] at enough
  refine Nat.lt_of_not_le fun loose => ?_
  have le := Parser.rowPower_le_iff.mpr loose
  omega

/-- A prefix operator stands in one token, and perhaps in front of a blank. -/
theorem mark_of_prefix {operator : UnaryOp} {operand : Expr} {pieces : List Piece}
    (spells : Spells tokens (operator.pieces operand ++ pieces)) :
    ∃ token later, tokens = token :: later ∧ token.kind = prefixKind operator ∧
      Spells later pieces := by
  have split : operator.pieces operand = [mark (prefixKind operator)] ∨
      operator.pieces operand = [mark (prefixKind operator), blank] := by
    unfold UnaryOp.pieces
    split
    · exact .inr rfl
    · exact .inr rfl
    · exact .inl rfl
    · exact .inl rfl
    · exact .inl rfl
  rcases split with same | same
  · rw [same] at spells
    obtain ⟨token, later, rfl, kind, rest⟩ := Spells.mark spells
    exact ⟨token, later, rfl, kind, rest⟩
  · rw [same] at spells
    obtain ⟨token, later, rfl, kind, rest⟩ := Spells.mark spells
    exact ⟨token, later, rfl, kind, rest.blank⟩

/-- An assignment stands in one token if its operator can be joined with the equals sign. -/
theorem mark_of_assign {operator : Option BinaryOp} {pieces : List Piece}
    (joined : (assignKind operator).isSome = true)
    (spells : Spells tokens (assignMark operator ++ pieces)) :
    ∃ token later, tokens = token :: later ∧ some token.kind = assignKind operator ∧
      Spells later pieces := by
  have single : ∃ kind, assignMark operator = [mark kind] ∧ some kind = assignKind operator := by
    cases operator with
    | none => exact ⟨_, rfl, rfl⟩
    | some operator =>
      cases operator <;> first | exact ⟨_, rfl, rfl⟩ | cases joined
  obtain ⟨kind, same, assigned⟩ := single
  rw [same] at spells
  obtain ⟨token, later, rfl, isKind, rest⟩ := Spells.mark spells
  exact ⟨token, later, rfl, by rw [isKind, assigned], rest⟩

/-- An assignment has its target where an operator behind an operand would have it, and its value
stands without parentheses. -/
theorem pieces_assign {position : Position} {operator : Option BinaryOp} {target value : Expr}
    (place : target.isPlace = true) :
    (Expr.assign position operator target value).pieces =
      grouped target.power postfixPower target.pieces ++
        blank :: (assignMark operator ++ blank :: value.pieces) := by
  have bare : grouped target.power assignPower.left target.pieces =
      grouped target.power postfixPower target.pieces := by
    cases target <;> first | rfl | cases place
  have whole : grouped value.power assignPower.right value.pieces = value.pieces := by
    refine if_neg ?_
    rw [Expr.power_eq]
    exact Nat.not_lt_of_le (Nat.le_trans (Nat.le_succ 1)
      (Parser.rowPower_le_iff.mpr (Nat.zero_le value.row)))
  rw [Expr.pieces, bare, whole]
  simp only [List.append_assoc, List.cons_append, List.nil_append]

/-- What stands in braces, whether or not it is set off by blanks. -/
theorem mark_of_braced {groups : List (List Piece)} (spells : Spells tokens (braced groups)) :
    ∃ opening inner closing, tokens = opening :: (inner ++ [closing]) ∧
      opening.kind = .leftBrace ∧ Spells inner (commas groups) ∧ closing.kind = .rightBrace := by
  cases groups with
  | nil =>
    obtain ⟨opening, later, rfl, opens, rest⟩ := Spells.mark spells
    obtain ⟨closing, rfl, closes⟩ := rest.lastMark
    exact ⟨opening, [], closing, rfl, opens, rfl, closes⟩
  | cons first groups =>
    have spelled : Spells tokens (mark .leftBrace :: blank ::
        (commas (first :: groups) ++ [blank, mark .rightBrace])) := spells
    obtain ⟨opening, later, rfl, opens, rest⟩ := spelled.mark
    obtain ⟨inner, after, rfl, listed, rest⟩ := rest.blank.append
    obtain ⟨closing, rfl, closes⟩ := rest.blank.lastMark
    exact ⟨opening, inner, closing, rfl, opens, listed, closes⟩

/-- The brackets with the length of an array literal, or with an underscore for it. -/
theorem mark_of_openLength {count : Option UInt64} {pieces : List Piece}
    (spells : Spells tokens ((match count with
      | some length => TypeExpr.lengthMark (toString length.toNat)
      | none => [mark .leftBracket, .name "_", mark .rightBracket]) ++ pieces)) :
    ∃ opening number closing later, tokens = opening :: number :: closing :: later ∧
      opening.kind = .leftBracket ∧ OpenLength number count ∧ closing.kind = .rightBracket ∧
      Spells later pieces := by
  cases count with
  | none =>
    obtain ⟨opening, later, rfl, opens, rest⟩ := Spells.mark spells
    obtain ⟨underscore, later, rfl, kind, text, rest⟩ := rest.ident ⟨rfl, by decide⟩
    obtain ⟨closing, later, rfl, closes, rest⟩ := rest.mark
    exact ⟨opening, underscore, closing, later, rfl, opens, .open kind text, closes, rest⟩
  | some length =>
    obtain ⟨opening, later, rfl, opens, rest⟩ := Spells.mark spells
    obtain ⟨number, later, rfl, kind, text, rest⟩ := rest.cons rfl
    obtain ⟨closing, later, rfl, closes, rest⟩ := rest.mark
    have counts : OpenLength number (some length) := .given (length_of_toString kind text)
    exact ⟨opening, number, closing, later, rfl, opens, counts, closes, rest⟩

/-- An operand in front of the mark of an operator behind it. -/
theorem forms_before {operand : Expr} {kind : Kind} {pieces : List Piece}
    (inner : ∀ tokens, Spells tokens operand.pieces → Forms operand tokens)
    (spells : Spells tokens
      (grouped operand.power postfixPower operand.pieces ++ mark kind :: pieces)) :
    ∃ before token later, tokens = before ++ token :: later ∧
      FormsOperand postfixRow postfixPower operand before ∧ token.kind = kind ∧
      Spells later pieces := by
  obtain ⟨before, after, rfl, operandSpelled, rest⟩ := spells.append
  obtain ⟨token, later, rfl, isKind, rest⟩ := rest.mark
  exact ⟨before, token, later, rfl,
    forms_operand inner postfix_le (Nat.le_refl postfixRow) operandSpelled, isKind, rest⟩

/-- A field of a literal with its value. -/
theorem forms_init {name : Ident} {value : Expr} (identifier : Token.IsIdentifier name.name)
    (inner : ∀ tokens, Spells tokens value.pieces → Forms value tokens)
    (spells : Spells tokens
      ([mark .dot, .name name.name, blank, mark .assign, blank] ++ value.pieces)) :
    ∃ dot token equals later result, tokens = dot :: token :: equals :: later ∧
      dot.kind = .dot ∧ token.kind = .identifier ∧ token.text = name.name ∧
      equals.kind = .assign ∧ Derives later (.expr 0 value.chain result) value.levels ∧
      result.unplaced = value.unplaced := by
  obtain ⟨dot, later, rfl, dotted, behind⟩ := Spells.mark spells
  obtain ⟨token, later, rfl, named, text, behind⟩ := behind.ident identifier
  obtain ⟨equals, later, rfl, assigned, behind⟩ := behind.blank.mark
  obtain ⟨result, derived, same⟩ := inner later behind.blank
  exact ⟨dot, token, equals, later, result, rfl, dotted, named, text, assigned,
    derived.loosenTo (Nat.zero_le _), same⟩

mutual

/-- The tokens of the layout of an expression spell it. -/
theorem forms_expr (expression : Expr) (spellable : expression.Spellable) (tokens : List Token)
    (spells : Spells tokens expression.pieces) : Forms expression tokens := by
  cases expression with
  | number position text =>
    obtain ⟨token, later, rfl, kind, rfl, rest⟩ := spells.cons rfl
    rw [rest.nil]
    exact ⟨_, .number kind, rfl⟩
  | string position value =>
    obtain ⟨token, later, rfl, kind, rfl, rest⟩ := spells.cons rfl
    rw [rest.nil]
    exact ⟨_, .string kind, rfl⟩
  | bool position value =>
    obtain ⟨token, rfl, kind⟩ := spells.lastMark
    cases value with
    | true => exact ⟨_, .trueWord kind, rfl⟩
    | false => exact ⟨_, .falseWord kind, rfl⟩
  | null position =>
    obtain ⟨token, rfl, kind⟩ := spells.lastMark
    exact ⟨_, .null kind, rfl⟩
  | undefined position =>
    obtain ⟨token, rfl, kind⟩ := spells.lastMark
    exact ⟨_, .undefined kind, rfl⟩
  | ident position name =>
    obtain ⟨token, later, rfl, kind, rfl, rest⟩ := spells.ident spellable
    rw [rest.nil]
    exact ⟨_, .ident kind, rfl⟩
  | binary position operator left right =>
    rw [Expr.pieces, List.append_assoc] at spells
    obtain ⟨before, after, rfl, leftSpelled, rest⟩ := spells.append
    obtain ⟨token, later, rfl, kind, rest⟩ := rest.blank.mark
    obtain ⟨first, others, leftValue, rfl, leftDerived, leftSame⟩ :=
      forms_operand (forms_expr left spellable.1) left_le
        (Nat.le_of_lt (Nat.lt_succ_of_lt (Parser.operatorRow_bounds operator).2)) leftSpelled
    obtain ⟨_, _, rightValue, rfl, rightDerived, rightSame⟩ :=
      forms_operand (forms_expr right spellable.2) right_le
        (Nat.le_succ_of_le (Parser.operatorRow_bounds operator).2) rest.blank
    exact ⟨_, .binary leftDerived kind rightDerived,
      by rw [Expr.unplaced, leftSame, rightSame, Expr.unplaced]⟩
  | unary position operator operand =>
    obtain ⟨token, later, rfl, kind, rest⟩ := mark_of_prefix spells
    obtain ⟨_, _, value, rfl, derived, same⟩ :=
      forms_operand (forms_expr operand spellable) prefix_le (Nat.le_succ 7) rest
    exact ⟨_, .before kind derived, by rw [Expr.unplaced, same, Expr.unplaced]⟩
  | call position callee arguments =>
    simp only [Expr.pieces, List.append_assoc, List.cons_append, List.nil_append] at spells
    obtain ⟨_, opening, later, rfl, ⟨_, _, calleeValue, rfl, calleeDerived, calleeSame⟩, opens,
      rest⟩ := forms_before (forms_expr callee spellable.1) spells
    obtain ⟨inner, after, rfl, listed, behind⟩ := rest.append
    obtain ⟨closing, rfl, closes⟩ := behind.lastMark
    obtain ⟨values, derived, same⟩ := forms_arguments arguments spellable.2 inner listed
    exact ⟨_, .call calleeDerived opens derived closes,
      by rw [Expr.unplaced, calleeSame, same, Expr.unplaced]⟩
  | member position object field =>
    obtain ⟨_, dot, later, rfl, ⟨_, _, value, rfl, derived, same⟩, dotted, rest⟩ :=
      forms_before (forms_expr object spellable.1) spells
    obtain ⟨token, later, rfl, named, text, rest⟩ := rest.ident spellable.2
    obtain rfl := rest.nil
    refine ⟨_, .member derived dotted named, ?_⟩
    rw [Expr.unplaced, same, Expr.unplaced, Ident.unplaced, Ident.unplaced, text]
  | index position object subscript =>
    simp only [Expr.pieces, List.append_assoc, List.cons_append, List.nil_append] at spells
    obtain ⟨_, opening, later, rfl, ⟨_, _, objectValue, rfl, objectDerived, objectSame⟩, opens,
      rest⟩ := forms_before (forms_expr object spellable.1) spells
    obtain ⟨inner, after, rfl, subscriptSpelled, behind⟩ := rest.append
    obtain ⟨closing, rfl, closes⟩ := behind.lastMark
    obtain ⟨value, derived, same⟩ := forms_expr subscript spellable.2 inner subscriptSpelled
    exact ⟨_, .index objectDerived opens (derived.loosenTo (Nat.zero_le _)) closes,
      by rw [Expr.unplaced, objectSame, same, Expr.unplaced]⟩
  | deref position object =>
    obtain ⟨_, dot, later, rfl, ⟨_, _, value, rfl, derived, same⟩, dotted, rest⟩ :=
      forms_before (forms_expr object spellable) spells
    obtain ⟨star, rfl, starred⟩ := rest.lastMark
    exact ⟨_, .deref derived dotted starred, by rw [Expr.unplaced, same, Expr.unplaced]⟩
  | unwrap position object =>
    obtain ⟨_, dot, later, rfl, ⟨_, _, value, rfl, derived, same⟩, dotted, rest⟩ :=
      forms_before (forms_expr object spellable) spells
    obtain ⟨question, rfl, marked⟩ := rest.lastMark
    exact ⟨_, .unwrap derived dotted marked, by rw [Expr.unplaced, same, Expr.unplaced]⟩
  | assign position operator target value =>
    obtain ⟨place, joined, targetSpellable, valueSpellable⟩ := spellable
    rw [pieces_assign place] at spells
    obtain ⟨before, after, rfl, targetSpelled, rest⟩ := spells.append
    obtain ⟨token, later, rfl, kind, rest⟩ := mark_of_assign joined rest.blank
    obtain ⟨first, others, targetValue, rfl, targetDerived, targetSame⟩ :=
      forms_operand (forms_expr target targetSpellable) postfix_le (Nat.le_refl _) targetSpelled
    obtain ⟨value', derived, same⟩ := forms_expr value valueSpellable later rest.blank
    have stillPlace : targetValue.isPlace = true := by
      rw [← Expr.isPlace_unplaced, targetSame, Expr.isPlace_unplaced, place]
    exact ⟨_, .assign targetDerived stillPlace kind (derived.loosenTo (Nat.zero_le _)),
      by rw [Expr.unplaced, targetSame, same, Expr.unplaced]⟩
  | structLit position name fields =>
    obtain ⟨token, later, rfl, named, text, rest⟩ := spells.ident spellable.1
    obtain ⟨opening, inner, closing, rfl, opens, listed, closes⟩ := mark_of_braced rest
    obtain ⟨values, derived, same⟩ := forms_inits fields spellable.2 inner listed
    refine ⟨_, .structLit named opens derived closes, ?_⟩
    rw [Expr.unplaced, same, Expr.unplaced, Ident.unplaced, Ident.unplaced, text]
  | arrayLit position count elementType elements =>
    unfold Expr.pieces at spells
    rw [List.append_assoc] at spells
    obtain ⟨first, number, bracket, later, rfl, brackets, counts, ends, rest⟩ :=
      mark_of_openLength spells
    obtain ⟨typeTokens, later, rfl, typeSpelled, rest⟩ := rest.append
    obtain ⟨opening, inner, closing, rfl, opens, listed, closes⟩ := mark_of_braced rest
    obtain ⟨type, typed, typeSame⟩ := derives_type spellable.1 typeSpelled
    obtain ⟨values, derived, same⟩ := forms_arguments elements spellable.2 inner listed
    exact ⟨_, .arrayLit brackets counts ends typed opens derived closes,
      by rw [Expr.unplaced, typeSame, same, Expr.unplaced]⟩

/-- The tokens of the layout of arguments, or of elements, spell them. -/
theorem forms_arguments (values : List Expr) (spellable : Expr.AllSpellable values)
    (tokens : List Token) (spells : Spells tokens (commas (Expr.piecesOfAll values))) :
    ∃ results, Derives tokens (.arguments results) (Expr.levelsAll values) ∧
      Expr.unplacedAll results = Expr.unplacedAll values := by
  match values with
  | [] =>
    rw [spells.nil]
    exact ⟨[], .noArgument, rfl⟩
  | [value] =>
    rw [Expr.piecesOfAll, Expr.piecesOfAll, commas_single] at spells
    obtain ⟨result, derived, same⟩ := forms_expr value spellable.1 tokens spells
    refine ⟨[result], ?_, by rw [Expr.unplacedAll, same]; rfl⟩
    rw [Expr.levelsAll, Expr.levelsAll, Nat.max_zero]
    exact .lastArgument (derived.loosenTo (Nat.zero_le _))
  | first :: second :: rest =>
    rw [Expr.piecesOfAll, Expr.piecesOfAll, commas_cons] at spells
    obtain ⟨before, after, rfl, firstSpelled, behind⟩ := spells.append
    obtain ⟨comma, later, rfl, separates, behind⟩ := behind.mark
    obtain ⟨result, derived, same⟩ := forms_expr first spellable.1 before firstSpelled
    obtain ⟨results, laterDerived, laterSame⟩ :=
      forms_arguments (second :: rest) spellable.2 later behind.blank
    exact ⟨result :: results,
      .argument (derived.loosenTo (Nat.zero_le _)) separates laterDerived,
      by rw [Expr.unplacedAll, same, laterSame]; rfl⟩

/-- The tokens of the layout of the fields of a literal spell them. -/
theorem forms_inits (values : List (Ident × Expr)) (spellable : Expr.FieldsSpellable values)
    (tokens : List Token) (spells : Spells tokens (commas (Expr.piecesOfFields values))) :
    ∃ results, Derives tokens (.inits results) (Expr.levelsFields values) ∧
      Expr.unplacedFields results = Expr.unplacedFields values := by
  match values with
  | [] =>
    rw [spells.nil]
    exact ⟨[], .noInit, rfl⟩
  | [(name, value)] =>
    rw [Expr.piecesOfFields, Expr.piecesOfFields, commas_single] at spells
    obtain ⟨dot, token, equals, later, result, rfl, dotted, named, text, assigned, derived, same⟩ :=
      forms_init spellable.1 (forms_expr value spellable.2.1) spells
    refine ⟨[(⟨token.text, token.position⟩, result)], ?_, ?_⟩
    · rw [Expr.levelsFields, Expr.levelsFields, Nat.max_zero]
      exact .lastInit dotted named assigned derived
    · rw [Expr.unplacedFields, same, Ident.unplaced, text]
      rfl
  | (name, value) :: second :: rest =>
    obtain ⟨secondName, secondValue⟩ := second
    rw [Expr.piecesOfFields, Expr.piecesOfFields, commas_cons] at spells
    obtain ⟨before, after, rfl, firstSpelled, behind⟩ := spells.append
    obtain ⟨dot, token, equals, later, result, rfl, dotted, named, text, assigned, derived, same⟩ :=
      forms_init spellable.1 (forms_expr value spellable.2.1) firstSpelled
    obtain ⟨comma, others, rfl, separates, behind⟩ := behind.mark
    obtain ⟨results, laterDerived, laterSame⟩ :=
      forms_inits ((secondName, secondValue) :: rest) spellable.2.2 others behind.blank
    refine ⟨(⟨token.text, token.position⟩, result) :: results,
      .init dotted named assigned derived separates laterDerived, ?_⟩
    rw [Expr.unplacedFields, same, laterSame, Ident.unplaced, text]
    rfl

end

end SystemsLang.Layout
