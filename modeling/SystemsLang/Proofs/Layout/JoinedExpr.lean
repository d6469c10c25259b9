import SystemsLang.Proofs.Layout.Joined
import SystemsLang.Proofs.Layout.Spellable

/-!
# The pieces of an expression are joined

What stands behind an expression in a layout is a blank, a point, a comma or a bracket, all of which
may stand behind anything. So an expression is joined with whatever follows it, and what remains to
be seen is that nothing clashes inside: at a mark before an operand, where the operand begins.
-/

namespace SystemsLang.Piece

open Token (Kind)

/-- Whether a piece may stand behind any other. -/
def stops : Piece → Bool
  | blank => true
  | mark kind =>
    [.dot, .colon, .semicolon, .comma, .leftParen, .rightParen, .leftBrace, .rightBrace,
      .leftBracket, .rightBracket].contains kind
  | _ => false

/-- The first piece, if there is one, may stand behind any other. -/
def Stops (pieces : List Piece) : Prop :=
  ∀ next ∈ pieces.head?, stops next = true

/-- The first piece, if there is one, is no part of an operator that began before. -/
def Free (pieces : List Piece) : Prop :=
  ∀ next ∈ pieces.head?, next.clings = false

/-- The pieces are joined with whatever stops them. -/
def Whole (pieces : List Piece) : Prop :=
  ∀ rest, Joined rest → Stops rest → Joined (pieces ++ rest)

variable {pieces rest : List Piece} {piece : Piece} {kind : Kind}

/-- Pieces that begin with one that may stand behind any other. -/
theorem stops_cons (stop : stops piece = true) : Stops (piece :: rest) := by
  rintro next ⟨⟩
  exact stop

/-- What may stand behind anything is neither a word nor a part of an operator. -/
theorem of_stops (stop : stops piece = true) :
    piece.isWordy = false ∧ piece.clings = false ∧ piece ≠ mark .amp ∧
      ∀ text, piece ≠ number text := by
  cases piece with
  | mark kind =>
    cases kind <;> first
      | exact absurd stop (by decide)
      | exact ⟨rfl, rfl, by decide, fun _ => by simp⟩
  | name | number | string => cases stop
  | blank => exact ⟨rfl, rfl, by simp, fun _ => by simp⟩

/-- What may stand behind anything is no part of an operator. -/
theorem Stops.free (stopped : Stops rest) : Free rest :=
  fun next member => (of_stops (stopped next member)).2.1

/-- What clashes with nothing may stand next to each other. -/
theorem joins_intro {first second : Piece} (words : first.isWordy = true → second.isWordy = false)
    (free : second.clings = false) (amp : first = mark .amp → second ≠ mark .amp)
    (dot : first = mark .dot → ∀ text, second ≠ number text) : first.joins second = true := by
  unfold Piece.joins
  split
  · rfl
  · rfl
  · exact absurd rfl (dot rfl _)
  · exact absurd rfl (amp rfl)
  · cases wordy : first.isWordy with
    | true => simp [words wordy, free]
    | false => simp [free]

/-- A piece in front of what stops it. -/
theorem Joined.operand (proper : piece.Proper) (joined : Joined rest) (stopped : Stops rest) :
    Joined (piece :: rest) := by
  refine ⟨proper, fun next member => ?_, joined⟩
  obtain ⟨plain, free, notAmp, notNumber⟩ := of_stops (stopped next member)
  exact joins_intro (fun _ => plain) free (fun _ => notAmp) (fun _ => notNumber)

/-- A blank in front of anything. -/
theorem Joined.blank (joined : Joined rest) : Joined (Piece.blank :: rest) :=
  ⟨trivial, fun _ _ => rfl, joined⟩

/-- A mark in front of what is no part of an operator. -/
theorem Joined.opening (proper : Piece.hasSpelling kind = true)
    (plain : (mark kind).isWordy = false) (notAmp : kind ≠ .amp) (notDot : kind ≠ .dot)
    (joined : Joined rest) (free : Free rest) : Joined (mark kind :: rest) := by
  refine ⟨proper, fun next member => ?_, joined⟩
  refine joins_intro (fun wordy => ?_) (free next member) (fun amp => ?_) (fun dot => ?_)
  · rw [plain] at wordy
    cases wordy
  · exact absurd (Piece.mark.inj amp) notAmp
  · exact absurd (Piece.mark.inj dot) notDot

/-- A point in front of a name. -/
theorem Joined.point {text : String} (joined : Joined (name text :: rest)) :
    Joined (mark .dot :: name text :: rest) := by
  refine ⟨rfl, ?_, joined⟩
  rintro next ⟨⟩
  rfl

/-- An operand in parentheses is joined, and without them it is if the operand itself is. -/
theorem Whole.grouped {power required : Nat} (inner : Whole pieces)
    (free : ∀ rest, Free (pieces ++ rest)) : Whole (grouped power required pieces) := by
  intro rest joined stopped
  unfold Piece.grouped
  split
  · rw [List.append_assoc, List.cons_append]
    refine .opening rfl rfl (by decide) (by decide) ?_ (free _)
    exact inner _ (.operand rfl joined stopped) (stops_cons rfl)
  · exact inner rest joined stopped

/-- An operand in parentheses does not begin with a part of an operator either. -/
theorem free_grouped {power required : Nat} (free : ∀ rest, Free (pieces ++ rest)) :
    ∀ rest, Free (Piece.grouped power required pieces ++ rest) := by
  intro rest
  unfold Piece.grouped
  split
  · rintro next ⟨⟩
    rfl
  · exact free rest

end SystemsLang.Piece

namespace SystemsLang.Layout

open Token (Kind)
open Syntax
open Piece (mark blank commas commas_cons commas_single grouped braced Joined Stops Free Whole
  stops_cons)

/-- The name of a primitive type is a word. -/
theorem isWord_of_mem_primitive {name : String} (member : name ∈ Token.primitiveTypeNames) :
    Token.isWord name.toList = true := by
  have all : ∀ name ∈ Token.primitiveTypeNames, Token.isWord name.toList = true := by decide
  exact all name member

/-- The written form of a length is a number. -/
theorem isNumber_toString (length : Nat) : Token.IsNumber (toString length) := by
  refine .inl ⟨?_, List.all_eq_true.mpr fun _ => Token.isDigit_of_mem_toString⟩
  rw [Token.toList_toString]
  exact Nat.toDigits_ne_nil

/-- A type does not begin with a part of an operator. -/
theorem free_type (type : TypeExpr) : ∀ rest, Free (type.pieces ++ rest) := by
  intro rest
  cases type with
  | primitive | named | pointer | array | slice | optional | errorUnion =>
    rintro next ⟨⟩
    rfl

/-- The word that marks a pointer or a slice as read-only, behind another mark. -/
theorem joined_constMark {kind : Kind} {isConst : Bool} {pieces : List Piece}
    (proper : Piece.hasSpelling kind = true) (plain : (mark kind).isWordy = false)
    (notAmp : kind ≠ .amp) (notDot : kind ≠ .dot) (joined : Joined pieces) (free : Free pieces) :
    Joined (mark kind :: (TypeExpr.constMark isConst ++ pieces)) := by
  cases isConst with
  | true =>
    have word : Joined (mark .constWord :: blank :: pieces) :=
      .operand rfl joined.blank (stops_cons rfl)
    refine .opening proper plain notAmp notDot word ?_
    rintro next ⟨⟩
    rfl
  | false => exact .opening proper plain notAmp notDot joined free

/-- The pieces of a type are joined. -/
theorem whole_type {type : TypeExpr} (spellable : type.Spellable) : Whole type.pieces := by
  intro rest joined stopped
  induction type with
  | primitive position name =>
    exact .operand (isWord_of_mem_primitive spellable) joined stopped
  | named position name => exact .operand spellable.word joined stopped
  | pointer position isConst pointee inductionHypothesis =>
    rw [TypeExpr.pieces, List.cons_append, List.cons_append, List.append_assoc]
    exact joined_constMark rfl rfl (by decide) (by decide) (inductionHypothesis spellable)
      (free_type pointee rest)
  | array position length element inductionHypothesis =>
    have inner : Joined (mark .rightBracket :: (element.pieces ++ rest)) :=
      .opening rfl rfl (by decide) (by decide) (inductionHypothesis spellable)
        (free_type element rest)
    have counted : Joined (.number (toString length.toNat) :: mark .rightBracket ::
        (element.pieces ++ rest)) :=
      .operand (isNumber_toString length.toNat) inner (stops_cons rfl)
    refine .opening rfl rfl (by decide) (by decide) counted ?_
    rintro next ⟨⟩
    rfl
  | slice position isConst element inductionHypothesis =>
    rw [TypeExpr.pieces, List.append_assoc, List.append_assoc, List.cons_append, List.cons_append]
    refine .operand rfl ?_ (stops_cons rfl)
    exact joined_constMark rfl rfl (by decide) (by decide) (inductionHypothesis spellable)
      (free_type element rest)
  | optional position inner inductionHypothesis =>
    exact .opening rfl rfl (by decide) (by decide) (inductionHypothesis spellable)
      (free_type inner rest)
  | errorUnion position inner inductionHypothesis =>
    exact .opening rfl rfl (by decide) (by decide) (inductionHypothesis spellable)
      (free_type inner rest)

/-- An expression does not begin with a part of an operator that began before. -/
theorem free_expr (expression : Expr) : ∀ rest, Free (expression.pieces ++ rest) := by
  intro rest
  cases expression with
  | number | string | null | undefined | ident | structLit =>
    rintro next ⟨⟩
    rfl
  | bool position value =>
    cases value <;> (rintro next ⟨⟩; rfl)
  | binary position operator left right =>
    rw [Expr.pieces, List.append_assoc, List.append_assoc]
    exact Piece.free_grouped (free_expr left) _
  | unary position operator operand =>
    rw [Expr.pieces, List.append_assoc]
    unfold UnaryOp.pieces
    split <;> (rintro next ⟨⟩; rfl)
  | call position callee arguments =>
    rw [Expr.pieces, List.append_assoc, List.append_assoc, List.append_assoc]
    exact Piece.free_grouped (free_expr callee) _
  | member position object field =>
    rw [Expr.pieces, List.append_assoc]
    exact Piece.free_grouped (free_expr object) _
  | index position object subscript =>
    rw [Expr.pieces, List.append_assoc, List.append_assoc, List.append_assoc]
    exact Piece.free_grouped (free_expr object) _
  | deref position object =>
    rw [Expr.pieces, List.append_assoc]
    exact Piece.free_grouped (free_expr object) _
  | unwrap position object =>
    rw [Expr.pieces, List.append_assoc]
    exact Piece.free_grouped (free_expr object) _
  | assign position operator target value =>
    simp only [Expr.pieces, List.append_assoc]
    exact Piece.free_grouped (free_expr target) _
  | arrayLit position length elementType elements =>
    cases length <;> (rintro next ⟨⟩; rfl)

/-- What binds as tightly as the operators behind an operand does not begin with an ampersand: an
operator before an operand would have to stand in parentheses. -/
theorem head_ne_amp (expression : Expr) (tight : postfixPower ≤ expression.power) :
    ∀ rest, ∀ next ∈ (expression.pieces ++ rest).head?, next ≠ mark .amp := by
  intro rest
  have operand (object : Expr) (inner : postfixPower ≤ object.power →
      ∀ rest, ∀ next ∈ (object.pieces ++ rest).head?, next ≠ mark .amp) (rest : List Piece) :
      ∀ next ∈ (grouped object.power postfixPower object.pieces ++ rest).head?,
        next ≠ mark .amp := by
    unfold grouped
    split
    · rintro next ⟨⟩
      simp
    · rename_i tight
      exact inner (Nat.le_of_not_lt tight) rest
  cases expression with
  | number | string | null | undefined | ident | structLit =>
    rintro next ⟨⟩
    simp
  | bool position value => cases value <;> (rintro next ⟨⟩; simp)
  | binary position operator left right =>
    have loose : operator.power.left < postfixPower := by cases operator <;> decide
    exact absurd tight (Nat.not_le_of_lt loose)
  | unary position operator inner => exact absurd tight (by decide : ¬ postfixPower ≤ UnaryOp.power)
  | assign position operator target value =>
    exact absurd tight (by decide : ¬ postfixPower ≤ assignPower.left)
  | call position callee arguments =>
    rw [Expr.pieces, List.append_assoc, List.append_assoc, List.append_assoc]
    exact operand callee (head_ne_amp callee) _
  | member position object field =>
    rw [Expr.pieces, List.append_assoc]
    exact operand object (head_ne_amp object) _
  | index position object subscript =>
    rw [Expr.pieces, List.append_assoc, List.append_assoc, List.append_assoc]
    exact operand object (head_ne_amp object) _
  | deref position object =>
    rw [Expr.pieces, List.append_assoc]
    exact operand object (head_ne_amp object) _
  | unwrap position object =>
    rw [Expr.pieces, List.append_assoc]
    exact operand object (head_ne_amp object) _
  | arrayLit position length elementType elements =>
    cases length <;> (rintro next ⟨⟩; simp)

/-- An ampersand before an operand that begins with no other. -/
theorem joined_amp {pieces : List Piece} (joined : Joined pieces) (free : Free pieces)
    (other : ∀ next ∈ pieces.head?, next ≠ mark .amp) : Joined (mark .amp :: pieces) := by
  refine ⟨rfl, fun next member => ?_, joined⟩
  exact Piece.joins_intro (fun wordy => nomatch wordy) (free next member)
    (fun _ => other next member) (fun dot => nomatch Piece.mark.inj dot)

/-- Where an operand needs no parentheses behind a prefix operator, it begins with an ampersand only
if that is its own operator. -/
theorem head_ne_amp_of_prefix {operand : Expr} (tight : UnaryOp.power ≤ operand.power)
    (other : ∀ position inner, operand ≠ .unary position .addressOf inner) (rest : List Piece) :
    ∀ next ∈ (operand.pieces ++ rest).head?, next ≠ mark .amp := by
  cases operand with
  | unary position operator inner =>
    rw [Expr.pieces, List.append_assoc]
    cases operator with
    | addressOf => exact absurd rfl (other position inner)
    | negate | not | attempt =>
      rintro next ⟨⟩
      simp
  | binary position operator left right =>
    have loose : operator.power.left < UnaryOp.power := by cases operator <;> decide
    exact absurd tight (Nat.not_le_of_lt loose)
  | assign position operator target value =>
    exact absurd tight (by decide : ¬ UnaryOp.power ≤ assignPower.left)
  | number | string | bool | null | undefined | ident | call | member | index | deref | unwrap
  | structLit | arrayLit =>
    refine head_ne_amp _ ?_ rest
    exact Nat.le_refl postfixPower

/-- A prefix operator with its operand. -/
theorem joined_prefix {operator : UnaryOp} {operand : Expr} {rest : List Piece}
    (joined : Joined (grouped operand.power UnaryOp.power operand.pieces ++ rest)) :
    Joined (operator.pieces operand ++
      (grouped operand.power UnaryOp.power operand.pieces ++ rest)) := by
  have free : Free (grouped operand.power UnaryOp.power operand.pieces ++ rest) :=
    Piece.free_grouped (free_expr operand) rest
  unfold UnaryOp.pieces
  split
  · exact .operand rfl joined.blank (stops_cons rfl)
  · exact .operand rfl joined.blank (stops_cons rfl)
  · rename_i other
    refine joined_amp joined free ?_
    unfold grouped
    split
    · rintro next ⟨⟩
      simp
    · rename_i tight
      exact head_ne_amp_of_prefix (Nat.le_of_not_lt tight)
        (fun position inner same => other position inner same) rest
  · exact .opening rfl rfl (by decide) (by decide) joined free
  · exact .opening rfl rfl (by decide) (by decide) joined free

/-- The tokens of an assignment with the blanks around them. -/
theorem joined_assignMark {operator : Option BinaryOp} {rest : List Piece}
    (isJoined : (Grammar.assignKind operator).isSome = true) (joined : Joined rest) :
    Joined (blank :: (assignMark operator ++ blank :: rest)) := by
  refine Piece.Joined.blank ?_
  cases operator with
  | none => exact .operand rfl joined.blank (stops_cons rfl)
  | some operator =>
    cases operator <;> first
      | exact .operand rfl joined.blank (stops_cons rfl)
      | cases isJoined

/-- What stands in braces is joined if the groups are. -/
theorem whole_braced {groups : List (List Piece)} (inner : Whole (commas groups)) :
    Whole (braced groups) := by
  intro rest joined stopped
  have closing : Joined (mark .rightBrace :: rest) := .operand rfl joined stopped
  unfold braced
  split
  · exact .operand rfl closing (stops_cons rfl)
  · rw [List.append_assoc, List.append_assoc]
    exact .operand rfl (inner _ closing.blank (stops_cons rfl)).blank (stops_cons rfl)

/-- Arguments do not begin with a part of an operator. -/
theorem free_arguments (values : List Expr) {rest : List Piece} (stopped : Stops rest) :
    Free (commas (Expr.piecesOfAll values) ++ rest) := by
  match values with
  | [] => exact stopped.free
  | [value] =>
    rw [Expr.piecesOfAll, Expr.piecesOfAll, commas_single]
    exact free_expr value rest
  | first :: second :: others =>
    rw [Expr.piecesOfAll, Expr.piecesOfAll, commas_cons, List.append_assoc]
    exact free_expr first _

/-- The length of an array literal, in brackets. -/
theorem joined_length {length : Option UInt64} {rest : List Piece} (joined : Joined rest)
    (free : Free rest) :
    Joined ((match length with
      | some length => TypeExpr.lengthMark (toString length.toNat)
      | none => [mark .leftBracket, .name "_", mark .rightBracket]) ++ rest) := by
  have closing : Joined (mark .rightBracket :: rest) :=
    .opening rfl rfl (by decide) (by decide) joined free
  cases length with
  | none =>
    have inner : Joined (.name "_" :: mark .rightBracket :: rest) :=
      .operand rfl closing (stops_cons rfl)
    refine .opening rfl rfl (by decide) (by decide) inner ?_
    rintro next ⟨⟩
    rfl
  | some length =>
    have inner : Joined (.number (toString length.toNat) :: mark .rightBracket :: rest) :=
      .operand (isNumber_toString length.toNat) closing (stops_cons rfl)
    refine .opening rfl rfl (by decide) (by decide) inner ?_
    rintro next ⟨⟩
    rfl

/-- The name of a field before its value. -/
theorem joined_init {name : String} {rest : List Piece} (identifier : Token.IsIdentifier name)
    (joined : Joined rest) :
    Joined (mark .dot :: .name name :: blank :: mark .assign :: blank :: rest) := by
  have assigned : Joined (mark .assign :: blank :: rest) :=
    .operand rfl joined.blank (stops_cons rfl)
  have named : Joined (.name name :: blank :: mark .assign :: blank :: rest) :=
    .operand identifier.word assigned.blank (stops_cons rfl)
  exact named.point

mutual

/-- The pieces of an expression are joined. -/
theorem whole_expr (expression : Expr) (spellable : expression.Spellable) :
    Whole expression.pieces := by
  intro rest joined stopped
  cases expression with
  | number position text => exact .operand spellable joined stopped
  | string position value => exact .operand trivial joined stopped
  | bool position value => cases value <;> exact .operand rfl joined stopped
  | null position => exact .operand rfl joined stopped
  | undefined position => exact .operand rfl joined stopped
  | ident position name => exact .operand spellable.word joined stopped
  | binary position operator left right =>
    simp only [Expr.pieces, List.append_assoc, List.cons_append, List.nil_append]
    have behind : Joined (grouped right.power operator.power.right right.pieces ++ rest) :=
      (whole_expr right spellable.2).grouped (free_expr right) rest joined stopped
    have set : Joined (mark operator.kind :: blank ::
        (grouped right.power operator.power.right right.pieces ++ rest)) := by
      refine .operand ?_ behind.blank (stops_cons rfl)
      cases operator <;> rfl
    exact (whole_expr left spellable.1).grouped (free_expr left) _ set.blank (stops_cons rfl)
  | unary position operator operand =>
    rw [Expr.pieces, List.append_assoc]
    have whole := whole_expr operand spellable
    exact joined_prefix (whole.grouped (free_expr operand) _ joined stopped)
  | call position callee arguments =>
    simp only [Expr.pieces, List.append_assoc, List.cons_append, List.nil_append]
    have closing : Joined (mark .rightParen :: rest) := .operand rfl joined stopped
    have inner := whole_arguments arguments spellable.2 _ closing (stops_cons rfl)
    have opening : Joined (mark .leftParen ::
        (commas (Expr.piecesOfAll arguments) ++ mark .rightParen :: rest)) :=
      .opening rfl rfl (by decide) (by decide) inner
        (free_arguments arguments (stops_cons rfl))
    exact (whole_expr callee spellable.1).grouped (free_expr callee) _ opening (stops_cons rfl)
  | member position object field =>
    rw [Expr.pieces, List.append_assoc]
    have named : Joined (.name field.name :: rest) := .operand spellable.2.word joined stopped
    exact (whole_expr object spellable.1).grouped (free_expr object) _ named.point (stops_cons rfl)
  | index position object subscript =>
    simp only [Expr.pieces, List.append_assoc, List.cons_append, List.nil_append]
    have closing : Joined (mark .rightBracket :: rest) := .operand rfl joined stopped
    have inner := whole_expr subscript spellable.2 _ closing (stops_cons rfl)
    have opening : Joined (mark .leftBracket :: (subscript.pieces ++ mark .rightBracket :: rest)) :=
      .opening rfl rfl (by decide) (by decide) inner (free_expr subscript _)
    exact (whole_expr object spellable.1).grouped (free_expr object) _ opening (stops_cons rfl)
  | deref position object =>
    rw [Expr.pieces, List.append_assoc]
    have star : Joined (mark .star :: rest) := .operand rfl joined stopped
    have point : Joined (mark .dot :: mark .star :: rest) := ⟨rfl, by rintro _ ⟨⟩; rfl, star⟩
    exact (whole_expr object spellable).grouped (free_expr object) _ point (stops_cons rfl)
  | unwrap position object =>
    rw [Expr.pieces, List.append_assoc]
    have question : Joined (mark .question :: rest) := .operand rfl joined stopped
    have point : Joined (mark .dot :: mark .question :: rest) :=
      ⟨rfl, by rintro _ ⟨⟩; rfl, question⟩
    exact (whole_expr object spellable).grouped (free_expr object) _ point (stops_cons rfl)
  | assign position operator target value =>
    obtain ⟨-, isJoined, targetSpellable, valueSpellable⟩ := spellable
    simp only [Expr.pieces, List.append_assoc, List.cons_append, List.nil_append]
    have behind : Joined (grouped value.power assignPower.right value.pieces ++ rest) :=
      (whole_expr value valueSpellable).grouped (free_expr value) rest joined stopped
    exact (whole_expr target targetSpellable).grouped (free_expr target) _
      (joined_assignMark isJoined behind) (stops_cons rfl)
  | structLit position name fields =>
    have inner := whole_braced (whole_inits fields spellable.2) rest joined stopped
    refine .operand spellable.1.word inner ?_
    unfold braced
    split <;> exact stops_cons rfl
  | arrayLit position length elementType elements =>
    have inner := whole_braced (whole_arguments elements spellable.2) rest joined stopped
    have starts : Stops (braced (Expr.piecesOfAll elements) ++ rest) := by
      unfold braced
      split <;> exact stops_cons rfl
    unfold Expr.pieces
    rw [List.append_assoc, List.append_assoc]
    exact joined_length (whole_type spellable.1 _ inner starts) (free_type elementType _)

/-- The pieces of arguments are joined. -/
theorem whole_arguments (values : List Expr) (spellable : Expr.AllSpellable values) :
    Whole (commas (Expr.piecesOfAll values)) := by
  intro rest joined stopped
  match values with
  | [] => exact joined
  | [value] =>
    rw [Expr.piecesOfAll, Expr.piecesOfAll, commas_single]
    exact whole_expr value spellable.1 rest joined stopped
  | first :: second :: others =>
    rw [Expr.piecesOfAll, Expr.piecesOfAll, commas_cons, List.append_assoc]
    have later := whole_arguments (second :: others) spellable.2 rest joined stopped
    have comma : Joined (mark .comma :: blank ::
        (commas (Expr.piecesOfAll (second :: others)) ++ rest)) :=
      .operand rfl later.blank (stops_cons rfl)
    exact whole_expr first spellable.1 _ comma (stops_cons rfl)

/-- The pieces of the fields of a literal are joined. -/
theorem whole_inits (values : List (Ident × Expr)) (spellable : Expr.FieldsSpellable values) :
    Whole (commas (Expr.piecesOfFields values)) := by
  intro rest joined stopped
  match values with
  | [] => exact joined
  | [(name, value)] =>
    rw [Expr.piecesOfFields, Expr.piecesOfFields, commas_single]
    exact joined_init spellable.1 (whole_expr value spellable.2.1 rest joined stopped)
  | (name, value) :: second :: others =>
    obtain ⟨secondName, secondValue⟩ := second
    rw [Expr.piecesOfFields, Expr.piecesOfFields, commas_cons, List.append_assoc]
    have later :=
      whole_inits ((secondName, secondValue) :: others) spellable.2.2 rest joined stopped
    have comma : Joined (mark .comma :: blank ::
        (commas (Expr.piecesOfFields ((secondName, secondValue) :: others)) ++ rest)) :=
      .operand rfl later.blank (stops_cons rfl)
    exact joined_init spellable.1 (whole_expr value spellable.2.1 _ comma (stops_cons rfl))

end

end SystemsLang.Layout
