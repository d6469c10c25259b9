import SystemsLang.Proofs.Layout.Thinning

/-!
# Expressions reduce to their layout

The tokens that spell an expression can be thinned out to those of its layout. The argument follows
the grammar. What is left of an expression are the tokens of its layout or those in one pair of
parentheses: where two pairs meet, one of them is left out, and the last pair is left out as soon as
the expression stands in a place whose row it fits into. A layout has parentheses exactly where that
never happens, so each of them was in the source, around that very expression.
-/

namespace SystemsLang.Layout

open Token (Kind)
open Grammar
open Syntax
open Piece (mark blank commas commas_single grouped braced hasSpelling)

variable {tokens : List Token} {levels : Nat}

/-- The tokens spell the type, up to positions. -/
abbrev SpellsType (type : TypeExpr) : List Token → Prop :=
  SpellsUpTo DerivesType TypeExpr.unplaced type

/-- The tokens are one number, which gives the length. -/
def SpellsLength (length : UInt64) (tokens : List Token) : Prop :=
  ∃ number, tokens = [number] ∧ Length number length

/-- The number of a length can be written with the digits of its layout. -/
theorem reduces_length {number : Token} {length : UInt64} (counts : Length number length) :
    Reduces (SpellsLength length) [number] [.number (toString length.toNat)] := by
  have canonical : Length ⟨.number, toString length.toNat, number.position⟩ length :=
    length_of_toString rfl rfl
  have spells : SpellsLength length [⟨.number, toString length.toNat, number.position⟩] :=
    ⟨_, rfl, canonical⟩
  have step : Omits (SpellsLength length) ([] ++ number :: [])
      ([] ++ ⟨.number, toString length.toNat, number.position⟩ :: []) :=
    .length ⟨length, counts, canonical⟩ spells
  exact ⟨_, (Thins.refl ⟨number, rfl, counts⟩).tail step spells, rfl⟩

/-- A word that may be left out is not touched. -/
theorem reduces_word {kind : Kind} {isThere : Bool} (word : Mark kind tokens isThere)
    (spelled : hasSpelling kind = true) (regular : ∀ token ∈ tokens, Regular token) :
    Reduces (Mark kind · isThere) tokens (if isThere then [mark kind, blank] else []) := by
  cases word with
  | absent => exact .same .absent rfl
  | present same =>
    have reduces := (regular _ List.mem_cons_self).mark same spelled
    exact (reduces.imp fun _ only => by rw [only]; exact .present same).respell rfl

/-- The tokens of a type reduce to its layout. -/
theorem reduces_type {type : TypeExpr} (derived : DerivesType tokens type levels)
    (regular : ∀ token ∈ tokens, Regular token) :
    Reduces (SpellsType type) tokens type.pieces := by
  induction derived with
  | @primitive name kind =>
    have member := (regular _ List.mem_cons_self).proper.2.2 kind
    refine .same ⟨_, _, .primitive kind, rfl⟩ ?_
    rw [Spells, List.map_singleton, kind, ← ofWord_of_mem_primitive member]
    rfl
  | named kind =>
    refine ((regular _ List.mem_cons_self).name kind).imp ?_
    rintro _ rfl
    exact ⟨_, _, .named kind, rfl⟩
  | pointer kind word inner inductionHypothesis =>
    have star := (regular _ List.mem_cons_self).mark kind rfl
    have const := reduces_word word rfl fun token member => regular token (by simp [member])
    have pointee := inductionHypothesis fun token member => regular token (by simp [member])
    refine (star.both (const.both pointee)).imp ?_
    rintro _ ⟨_, _, rfl, rfl, _, _, rfl, marked, result, levels, derived, same⟩
    have whole := DerivesType.pointer kind marked derived
    exact ⟨_, _, whole, by rw [TypeExpr.unplaced, same, TypeExpr.unplaced]⟩
  | array opens counts closes inner inductionHypothesis =>
    have opening := (regular _ List.mem_cons_self).mark opens rfl
    have number := reduces_length counts
    have closing := (regular _ (by simp)).mark closes rfl
    have element := inductionHypothesis fun token member => regular token (by simp [member])
    refine (opening.both (number.both (closing.both element))).imp ?_
    rintro _ ⟨_, _, rfl, rfl, _, _, rfl, ⟨_, rfl, counts⟩, _, _, rfl, rfl, result, levels, derived,
      same⟩
    exact ⟨_, _, .array opens counts closes derived,
      by rw [TypeExpr.unplaced, same, TypeExpr.unplaced]⟩
  | slice opens closes word inner inductionHypothesis =>
    have opening := (regular _ List.mem_cons_self).mark opens rfl
    have closing := (regular _ (by simp)).mark closes rfl
    have const := reduces_word word rfl fun token member => regular token (by simp [member])
    have element := inductionHypothesis fun token member => regular token (by simp [member])
    refine (opening.both (closing.both (const.both element))).imp ?_
    rintro _ ⟨_, _, rfl, rfl, _, _, rfl, rfl, _, _, rfl, marked, result, levels, derived, same⟩
    have whole := DerivesType.slice opens closes marked derived
    exact ⟨_, _, whole, by rw [TypeExpr.unplaced, same, TypeExpr.unplaced]⟩
  | optional kind inner inductionHypothesis =>
    have question := (regular _ List.mem_cons_self).mark kind rfl
    have type := inductionHypothesis fun token member => regular token (by simp [member])
    refine (question.both type).imp ?_
    rintro _ ⟨_, _, rfl, rfl, result, levels, derived, same⟩
    exact ⟨_, _, .optional kind derived, by rw [TypeExpr.unplaced, same, TypeExpr.unplaced]⟩
  | errorUnion kind inner inductionHypothesis =>
    have bang := (regular _ List.mem_cons_self).mark kind rfl
    have type := inductionHypothesis fun token member => regular token (by simp [member])
    refine (bang.both type).imp ?_
    rintro _ ⟨_, _, rfl, rfl, result, levels, derived, same⟩
    exact ⟨_, _, .errorUnion kind derived, by rw [TypeExpr.unplaced, same, TypeExpr.unplaced]⟩

/-- The tokens spell the expression in a row, up to positions. -/
def SpellsExpr (row : Nat) (value : Expr) (tokens : List Token) : Prop :=
  ∃ result chain levels, Derives tokens (.expr row chain result) levels ∧
    result.unplaced = value.unplaced

/-- The tokens can be thinned out to those of the layout of an expression, with one pair of
parentheses around them or, if the row of the expression allows it, with none. -/
def Trimmed (row : Nat) (value : Expr) (tokens : List Token) : Prop :=
  ∃ kept, Spells kept value.pieces ∧ SpellsExpr value.row value kept ∧
    (row ≤ value.row ∧ Thins (SpellsExpr row value) tokens kept ∨
      ∃ opening closing, Spells [opening] [mark .leftParen] ∧ Spells [closing] [mark .rightParen] ∧
        Thins (SpellsExpr row value) tokens (opening :: (kept ++ [closing])))

variable {value : Expr} {row : Nat}

/-- An expression of one row is one of every looser row. -/
theorem SpellsExpr.loosen {looser : Nat} (spells : SpellsExpr row value tokens)
    (le : looser ≤ row) : SpellsExpr looser value tokens := by
  obtain ⟨result, chain, levels, derived, same⟩ := spells
  exact ⟨result, chain, levels, derived.loosenTo le, same⟩

/-- An expression in parentheses stands in the tightest row. -/
theorem SpellsExpr.group {opening closing : Token} (opens : opening.kind = .leftParen)
    (closes : closing.kind = .rightParen) (spells : SpellsExpr 0 value tokens) :
    SpellsExpr postfixRow value (opening :: (tokens ++ [closing])) := by
  obtain ⟨result, chain, levels, derived, same⟩ := spells
  refine ⟨_, _, _, .group opens derived closes, ?_⟩
  rw [Expr.unplaced_moveTo, same]

/-- The token that spells a mark is of its kind. -/
theorem kind_of_spells {token : Token} {kind : Kind} (spells : Spells [token] [mark kind]) :
    token.kind = kind := by
  obtain ⟨_, _, same, kind, -⟩ := Spells.mark spells
  rwa [(List.cons.inj same).1]

/-- The parentheses around what can stand without them can be left out. -/
theorem Thins.ungroup {opening closing : Token} {kept : List Token}
    (opens : opening.kind = .leftParen) (closes : closing.kind = .rightParen)
    (bare : SpellsExpr row value kept)
    (thins : Thins (SpellsExpr row value) tokens (opening :: (kept ++ [closing]))) :
    Thins (SpellsExpr row value) tokens kept := by
  obtain ⟨result, chain, levels, derived, same⟩ := bare.loosen (Nat.zero_le row)
  have step : Omits (SpellsExpr row value) ([] ++ opening :: (kept ++ closing :: []))
      ([] ++ kept ++ []) :=
    .group opens ⟨chain, derived⟩ closes (by simpa using bare)
  rw [List.append_nil] at step
  exact thins.tail step bare

namespace Trimmed

/-- What reduces to the layout of an expression without parentheses is trimmed. -/
theorem of_reduces (reduces : Reduces (SpellsExpr value.row value) tokens value.pieces) :
    Trimmed value.row value tokens := by
  obtain ⟨kept, thins, spells⟩ := reduces
  exact ⟨kept, spells, thins.result, .inl ⟨Nat.le_refl _, thins⟩⟩

/-- A tighter row than required does no harm. -/
theorem loosen (trimmed : Trimmed (row + 1) value tokens) : Trimmed row value tokens := by
  have looser (tokens : List Token) (spells : SpellsExpr (row + 1) value tokens) :
      SpellsExpr row value tokens :=
    spells.loosen (Nat.le_succ row)
  obtain ⟨kept, spells, bare, ⟨le, thins⟩ | ⟨opening, closing, opens, closes, thins⟩⟩ := trimmed
  · exact ⟨kept, spells, bare, .inl ⟨Nat.le_of_succ_le le, thins.imp looser⟩⟩
  · exact ⟨kept, spells, bare, .inr ⟨opening, closing, opens, closes, thins.imp looser⟩⟩

/-- Of two pairs of parentheses around an expression one can be left out. -/
theorem group {opening closing : Token} (opens : Spells [opening] [mark .leftParen])
    (closes : Spells [closing] [mark .rightParen]) (trimmed : Trimmed 0 value tokens) :
    Trimmed postfixRow value (opening :: (tokens ++ [closing])) := by
  have isOpening := kind_of_spells opens
  have isClosing := kind_of_spells closes
  have grouped (tokens : List Token) (spells : SpellsExpr 0 value tokens) :
      SpellsExpr postfixRow value ([opening] ++ (tokens ++ [closing])) :=
    spells.group isOpening isClosing
  obtain ⟨kept, spells, bare, ⟨-, thins⟩ | ⟨first, last, firstSpells, lastSpells, thins⟩⟩ := trimmed
  · exact ⟨kept, spells, bare, .inr ⟨opening, closing, opens, closes, thins.within grouped⟩⟩
  · have inner : SpellsExpr postfixRow value (first :: (kept ++ [last])) :=
      (bare.loosen (Nat.zero_le _)).group (kind_of_spells firstSpells) (kind_of_spells lastSpells)
    exact ⟨kept, spells, bare, .inr ⟨first, last, firstSpells, lastSpells,
      (thins.within grouped).ungroup isOpening isClosing inner⟩⟩

/-- An operand reduces to its layout, in parentheses if its own row is too loose for its place. If
it is not, the last pair of parentheses is left out. -/
theorem operand {required : Nat} (fits : required ≤ Parser.rowPower value.row ↔ row ≤ value.row)
    (trimmed : Trimmed row value tokens) :
    Reduces (SpellsExpr row value) tokens (grouped value.power required value.pieces) := by
  rw [← Expr.power_eq] at fits
  obtain ⟨kept, spells, bare, ⟨le, thins⟩ | ⟨opening, closing, opens, closes, thins⟩⟩ := trimmed
  · rw [grouped, if_neg (Nat.not_lt_of_le (fits.mpr le))]
    exact ⟨kept, thins, spells⟩
  · by_cases loose : value.power < required
    · rw [grouped, if_pos loose]
      refine ⟨_, thins, ?_⟩
      exact spells_append opens (spells_append spells closes)
    · rw [grouped, if_neg loose]
      have tight := bare.loosen (fits.mp (Nat.le_of_not_lt loose))
      exact ⟨kept, thins.ungroup (kind_of_spells opens) (kind_of_spells closes) tight, spells⟩

/-- The operand of a prefix operator. -/
theorem operandBehind (trimmed : Trimmed prefixRow value tokens) :
    Reduces (SpellsExpr prefixRow value) tokens
      (grouped value.power UnaryOp.power value.pieces) := by
  have fits : Parser.rowPower prefixRow ≤ Parser.rowPower value.row ↔ prefixRow ≤ value.row :=
    Parser.rowPower_le_iff
  exact trimmed.operand fits

/-- The left operand of a binary operator. -/
theorem operandLeft {operator : BinaryOp} (trimmed : Trimmed (operatorRow operator) value tokens) :
    Reduces (SpellsExpr (operatorRow operator) value) tokens
      (grouped value.power operator.power.left value.pieces) := by
  have power : operator.power.left = Parser.rowPower (operatorRow operator) := by
    cases operator <;> rfl
  rw [power]
  exact trimmed.operand Parser.rowPower_le_iff

/-- The right operand of a binary operator. -/
theorem operandRight {operator : BinaryOp}
    (trimmed : Trimmed (operatorRow operator + 1) value tokens) :
    Reduces (SpellsExpr (operatorRow operator + 1) value) tokens
      (grouped value.power operator.power.right value.pieces) := by
  have fits : operator.power.right ≤ Parser.rowPower value.row ↔
      operatorRow operator + 1 ≤ value.row := by
    rw [Parser.rightPower_eq, Nat.succ_le_iff, Nat.succ_le_iff, ← Nat.not_le, ← Nat.not_le,
      Parser.rowPower_le_iff]
  exact trimmed.operand fits

/-- The position of an expression does not matter. -/
theorem moveTo {position : Position} (trimmed : Trimmed row value tokens) :
    Trimmed row (value.moveTo position) tokens := by
  obtain ⟨sameRow, samePieces⟩ : (value.moveTo position).row = value.row ∧
      (value.moveTo position).pieces = value.pieces := by
    cases value <;> exact ⟨rfl, rfl⟩
  unfold Trimmed SpellsExpr at trimmed ⊢
  rwa [sameRow, samePieces, Expr.unplaced_moveTo]

/-- An expression that stands alone reduces to its layout without parentheses. -/
theorem whole (trimmed : Trimmed 0 value tokens) :
    Reduces (SpellsExpr 0 value) tokens value.pieces := by
  have loosest : 0 ≤ Parser.rowPower value.row ↔ 0 ≤ value.row :=
    ⟨fun _ => Nat.zero_le _, fun _ => Nat.zero_le _⟩
  exact trimmed.operand loosest

/-- An operand of an operator behind it. -/
theorem operandBefore (trimmed : Trimmed postfixRow value tokens) :
    Reduces (SpellsExpr postfixRow value) tokens
      (grouped value.power postfixPower value.pieces) := by
  have fits : Parser.rowPower postfixRow ≤ Parser.rowPower value.row ↔ postfixRow ≤ value.row :=
    Parser.rowPower_le_iff
  exact trimmed.operand fits

end Trimmed

/-- A prefix operator stands for its mark. -/
theorem lexemes_prefix (operator : UnaryOp) (operand : Expr) :
    (operator.pieces operand).filterMap Piece.lexeme? =
      [mark (prefixKind operator)].filterMap Piece.lexeme? := by
  unfold UnaryOp.pieces
  split <;> rfl

/-- An assignment that one token spells stands for that token. -/
theorem assignMark_of_spelled {operator : Option BinaryOp} {kind : Kind}
    (spelled : some kind = assignKind operator) :
    assignMark operator = [mark kind] ∧ hasSpelling kind = true := by
  cases operator with
  | none =>
    obtain rfl := Option.some.inj spelled
    exact ⟨rfl, rfl⟩
  | some operator =>
    cases operator <;> cases spelled <;> exact ⟨rfl, rfl⟩

/-- Blanks inside braces stand for nothing. -/
theorem lexemes_braced (groups : List (List Piece)) :
    (braced groups).filterMap Piece.lexeme? =
      (mark .leftBrace :: (commas groups ++ [mark .rightBrace])).filterMap Piece.lexeme? := by
  cases groups with
  | nil => rfl
  | cons first rest => simp [braced, List.filterMap_cons, Piece.lexeme?]

/-- A token that gives the length of an array literal, or leaves it open. -/
def SpellsOpenLength (count : Option UInt64) (tokens : List Token) : Prop :=
  ∃ token, tokens = [token] ∧ OpenLength token count

/-- The pieces between the brackets of an array literal. -/
def countPieces : Option UInt64 → List Piece
  | some length => [.number (toString length.toNat)]
  | none => [.name "_"]

/-- A length can be written with the digits of its layout, and an underscore is left as it is. -/
theorem reduces_openLength {token : Token} {count : Option UInt64} (counts : OpenLength token count)
    (regular : Regular token) : Reduces (SpellsOpenLength count) [token] (countPieces count) := by
  cases counts with
  | «open» kind text =>
    have name := regular.name kind
    rw [text] at name
    refine name.imp ?_
    rintro _ rfl
    exact ⟨token, rfl, .open kind text⟩
  | given counts =>
    refine (reduces_length counts).imp ?_
    rintro _ ⟨number, rfl, counts⟩
    exact ⟨number, rfl, .given counts⟩

/-- The tokens spell the arguments, or the elements, up to positions. -/
def SpellsArguments (values : List Expr) (tokens : List Token) : Prop :=
  ∃ results levels, Derives tokens (.arguments results) levels ∧
    Expr.unplacedAll results = Expr.unplacedAll values

/-- The tokens spell the fields of a literal, up to positions. -/
def SpellsInits (values : List (Ident × Expr)) (tokens : List Token) : Prop :=
  ∃ results levels, Derives tokens (.inits results) levels ∧
    Expr.unplacedFields results = Expr.unplacedFields values

/-- One argument spells a list of arguments. -/
theorem spellsArguments_single (spells : SpellsExpr 0 value tokens) :
    SpellsArguments [value] tokens := by
  obtain ⟨result, chain, levels, derived, same⟩ := spells
  exact ⟨[result], levels, .lastArgument derived, by rw [Expr.unplacedAll, same]; rfl⟩

/-- The tokens spell one field of a literal with its value, up to positions. -/
def SpellsInit (field : Ident × Expr) (tokens : List Token) : Prop :=
  ∃ dot name equals rest, tokens = dot :: name :: equals :: rest ∧ dot.kind = .dot ∧
    name.kind = .identifier ∧ name.text = field.1.name ∧ equals.kind = .assign ∧
    SpellsExpr 0 field.2 rest

/-- One field spells a list of fields. -/
theorem spellsInits_single {field : Ident × Expr} (spells : SpellsInit field tokens) :
    SpellsInits [field] tokens := by
  obtain ⟨dot, name, equals, rest, rfl, dotted, named, text, assigned, result, chain, levels,
    derived, same⟩ := spells
  refine ⟨_, levels, .lastInit dotted named assigned derived, ?_⟩
  rw [Expr.unplacedFields, same, Ident.unplaced, text]
  rfl

/-- A field with a comma and other fields behind it spells a list of fields. -/
theorem spellsInits_cons {field : Ident × Expr} {fields : List (Ident × Expr)} {comma : Token}
    {after : List Token} (separates : comma.kind = .comma) (head : SpellsInit field tokens)
    (tail : SpellsInits fields after) :
    SpellsInits (field :: fields) (tokens ++ comma :: after) := by
  obtain ⟨dot, name, equals, rest, rfl, dotted, named, text, assigned, result, chain, levels,
    derived, same⟩ := head
  obtain ⟨results, more, later, agree⟩ := tail
  refine ⟨_, _, .init dotted named assigned derived separates later, ?_⟩
  rw [Expr.unplacedFields, same, agree, Ident.unplaced, text]
  rfl

/-- The tokens of a field with its value reduce to its layout. -/
theorem reduces_init {dot name equals : Token} (dotted : dot.kind = .dot)
    (named : name.kind = .identifier) (assigned : equals.kind = .assign)
    (dotRegular : Regular dot) (nameRegular : Regular name) (equalsRegular : Regular equals)
    (reduces : Reduces (SpellsExpr 0 value) tokens value.pieces) :
    Reduces (SpellsInit (⟨name.text, name.position⟩, value)) (dot :: name :: equals :: tokens)
      ([mark .dot, .name name.text, blank, mark .assign, blank] ++ value.pieces) := by
  have first := dotRegular.mark dotted rfl
  have second := nameRegular.name named
  have third := equalsRegular.mark assigned rfl
  refine ((first.both (second.both (third.both reduces))).imp ?_).respell rfl
  rintro _ ⟨_, _, rfl, rfl, _, _, rfl, rfl, _, rest, rfl, rfl, spells⟩
  exact ⟨dot, name, equals, rest, rfl, dotted, named, rfl, assigned, spells⟩

/-- What becomes of the tokens of a phrase when they are thinned out. A comma behind the last item
of a list goes only in front of a closing bracket, so the bracket is taken along. -/
def PhraseReduces (tokens : List Token) : Phrase → Prop
  | .expr row _ value => Trimmed row value tokens
  | .arguments values =>
    ∀ closing pieces, closing.kind = .rightParen ∨ closing.kind = .rightBrace →
      Spells [closing] pieces → Reduces (Then (SpellsArguments values) (Only closing))
        (tokens ++ [closing]) (commas (Expr.piecesOfAll values) ++ pieces)
  | .inits values =>
    ∀ closing pieces, closing.kind = .rightParen ∨ closing.kind = .rightBrace →
      Spells [closing] pieces → Reduces (Then (SpellsInits values) (Only closing))
        (tokens ++ [closing]) (commas (Expr.piecesOfFields values) ++ pieces)

/-- An operand by itself. -/
theorem trimmed_token {token : Token} (value : Expr) (row_eq : value.row = postfixRow)
    (derived : Derives [token] (.expr postfixRow 0 value) 1)
    (spells : Spells [token] value.pieces) :
    Trimmed postfixRow value [token] := by
  rw [← row_eq] at derived ⊢
  exact .of_reduces (.same ⟨value, _, _, derived, rfl⟩ spells)

/-- An operand at the beginning of a phrase, with what stands behind it. The position of its first
token is that of the phrase. -/
theorem Reduces.applied {before after : List Token} {first second : List Piece}
    {Is Whole : List Token → Prop} (operand : Reduces (SpellsExpr row value) before first)
    (behind : Reduces Is after second)
    (builds : ∀ token rest after result chain levels,
      Derives (token :: rest) (.expr row chain result) levels → result.unplaced = value.unplaced →
        Is after → Whole (token :: rest ++ after)) :
    Reduces Whole (before ++ after) (first ++ second) := by
  refine (operand.both behind).imp ?_
  rintro _ ⟨_, after, rfl, ⟨result, chain, levels, derived, same⟩, is⟩
  obtain ⟨token, rest, rfl, -⟩ := derived.starts
  exact builds token rest after result chain levels derived same is

/-- An operand with a dot and one token more behind it. -/
theorem Trimmed.dotted {before : List Token} {dot last : Token} {piece : Piece}
    {Whole : List Token → Prop} (operand : Trimmed postfixRow value before)
    (dotted : dot.kind = .dot) (regular : Regular dot)
    (lastReduces : Reduces (Only last) [last] [piece])
    (builds : ∀ token rest result chain levels,
      Derives (token :: rest) (.expr postfixRow chain result) levels →
        result.unplaced = value.unplaced → Whole (token :: rest ++ [dot, last])) :
    Reduces Whole (before ++ [dot, last])
      (grouped value.power postfixPower value.pieces ++ [mark .dot, piece]) := by
  refine operand.operandBefore.applied ((regular.mark dotted rfl).both lastReduces) ?_
  rintro token rest _ result chain levels derived same ⟨_, _, rfl, rfl, rfl⟩
  exact builds token rest result chain levels derived same

/-- The tokens of every phrase of expressions reduce to its layout. -/
theorem phraseReduces {phrase : Phrase} (derived : Derives tokens phrase levels)
    (regular : ∀ token ∈ tokens, Regular token) : PhraseReduces tokens phrase := by
  -- In each case the parts are reduced and put together as the rule has them; the rule then derives
  -- the whole again from what the parts have been reduced to.
  induction derived with
  | @number token kind =>
    refine trimmed_token _ rfl (.number kind) ?_
    rw [Spells, List.map_singleton, kind]
    rfl
  | @string token kind =>
    refine trimmed_token _ rfl (.string kind) ?_
    rw [Spells, List.map_singleton, kind]
    rfl
  | trueWord kind =>
    exact trimmed_token _ rfl (.trueWord kind) ((regular _ List.mem_cons_self).spells kind rfl)
  | falseWord kind =>
    exact trimmed_token _ rfl (.falseWord kind) ((regular _ List.mem_cons_self).spells kind rfl)
  | null kind =>
    exact trimmed_token _ rfl (.null kind) ((regular _ List.mem_cons_self).spells kind rfl)
  | undefined kind =>
    exact trimmed_token _ rfl (.undefined kind) ((regular _ List.mem_cons_self).spells kind rfl)
  | ident kind =>
    exact trimmed_token _ rfl (.ident kind) ((regular _ List.mem_cons_self).spells_name kind)
  -- The only rule whose tokens may be dropped: the layout has parentheses where it needs them.
  | @group opening closing tokens _ _ value opens _ closes inductionHypothesis =>
    have inner := inductionHypothesis fun token member => regular token (by simp [member])
    have grouped : Trimmed postfixRow value (opening :: (tokens ++ [closing])) :=
      Trimmed.group ((regular _ List.mem_cons_self).spells opens rfl)
        ((regular _ (by simp)).spells closes rfl) inner
    exact grouped.moveTo
  | structLit named opens _ closes inductionHypothesis =>
    have name := (regular _ List.mem_cons_self).name named
    have opening := (regular _ (by simp)).mark opens rfl
    have inner := inductionHypothesis (fun token member => regular token (by simp [member])) _ _
      (.inr closes) ((regular _ (by simp)).spells closes rfl)
    have body := (opening.both inner).respell (lexemes_braced _)
    refine .of_reduces (((name.both body).imp ?_).respell rfl)
    rintro _ ⟨_, _, rfl, rfl, _, _, rfl, rfl, _, _, rfl, ⟨values, levels, derived, same⟩, rfl⟩
    have whole := Derives.structLit named opens derived closes
    exact ⟨_, _, _, whole, by rw [Expr.unplaced, same, Expr.unplaced]⟩
  | @arrayLit _ _ _ _ _ _ _ count _ _ _ _ brackets counts ends typed opens _ closes
      inductionHypothesis =>
    have first := (regular _ List.mem_cons_self).mark brackets rfl
    have length := reduces_openLength counts (regular _ (by simp))
    have behind := (regular _ (by simp)).mark ends rfl
    have type := reduces_type typed fun token member => regular token (by simp [member])
    have opening := (regular _ (by simp)).mark opens rfl
    have inner := inductionHypothesis (fun token member => regular token (by simp [member])) _ _
      (.inr closes) ((regular _ (by simp)).spells closes rfl)
    have body := (opening.both inner).respell (lexemes_braced _)
    refine .of_reduces (((first.both (length.both (behind.both (type.both body)))).imp ?_).respell
      ?_)
    · rintro _ ⟨_, _, rfl, rfl, _, _, rfl, ⟨_, rfl, counts⟩, _, _, rfl, rfl, _, _, rfl,
        ⟨type, typeLevels, typed, typeSame⟩, _, _, rfl, rfl, _, _, rfl,
        ⟨values, levels, derived, same⟩, rfl⟩
      have whole := Derives.arrayLit brackets counts ends typed opens derived closes
      exact ⟨_, _, _, whole, by rw [Expr.unplaced, typeSame, same, Expr.unplaced]⟩
    · cases count <;> simp [Expr.pieces, countPieces, TypeExpr.lengthMark]
  | @before _ _ operator operand _ _ spelled _ inductionHypothesis =>
    have sign := (regular _ List.mem_cons_self).mark spelled (by cases operator <;> rfl)
    have inner := inductionHypothesis fun token member => regular token (by simp [member])
    refine .of_reduces (((sign.both inner.operandBehind).imp ?_).respell ?_)
    · rintro _ ⟨_, _, rfl, rfl, _, _, _, derived, same⟩
      have whole := Derives.before spelled derived
      exact ⟨_, _, _, whole, by rw [Expr.unplaced, same, Expr.unplaced]⟩
    · rw [Expr.pieces, List.filterMap_append, lexemes_prefix, ← List.filterMap_append]
  | call _ opens _ closes leftHypothesis innerHypothesis =>
    have callee := leftHypothesis fun token member => regular token (List.mem_append_left _ member)
    have opening := (regular _ (by simp)).mark opens rfl
    have inner := innerHypothesis (fun token member => regular token (by simp [member])) _ _
      (.inl closes) ((regular _ (by simp)).spells closes rfl)
    refine .of_reduces ((callee.operandBefore.applied (opening.both inner) ?_).respell ?_)
    · rintro _ _ _ _ _ _ left leftSame ⟨_, _, rfl, rfl, _, _, rfl, ⟨_, _, derived, same⟩, rfl⟩
      have whole := Derives.call left opens derived closes
      exact ⟨_, _, _, whole, by rw [Expr.unplaced, leftSame, same, Expr.unplaced]⟩
    · simp [Expr.pieces]
  | index _ opens _ closes leftHypothesis innerHypothesis =>
    have object := leftHypothesis fun token member => regular token (List.mem_append_left _ member)
    have opening := (regular _ (by simp)).mark opens rfl
    have subscript := innerHypothesis fun token member => regular token (by simp [member])
    have closing := (regular _ (by simp)).mark closes rfl
    have behind := opening.both (subscript.whole.both closing)
    refine .of_reduces ((object.operandBefore.applied behind ?_).respell ?_)
    · rintro _ _ _ _ _ _ left leftSame ⟨_, _, rfl, rfl, _, _, rfl, ⟨_, _, _, derived, same⟩, rfl⟩
      have whole := Derives.index left opens derived closes
      exact ⟨_, _, _, whole, by rw [Expr.unplaced, leftSame, same, Expr.unplaced]⟩
    · simp [Expr.pieces]
  | member _ dotted named leftHypothesis =>
    have object := leftHypothesis fun token member => regular token (List.mem_append_left _ member)
    have name := (regular _ (by simp)).name named
    refine .of_reduces ((object.dotted dotted (regular _ (by simp)) name ?_).respell rfl)
    intro _ _ _ _ _ left same
    have whole := Derives.member left dotted named
    exact ⟨_, _, _, whole, by rw [Expr.unplaced, same, Expr.unplaced]⟩
  | deref _ dotted starred leftHypothesis =>
    have object := leftHypothesis fun token member => regular token (List.mem_append_left _ member)
    have star := (regular _ (by simp)).mark starred rfl
    refine .of_reduces ((object.dotted dotted (regular _ (by simp)) star ?_).respell rfl)
    intro _ _ _ _ _ left same
    have whole := Derives.deref left dotted starred
    exact ⟨_, _, _, whole, by rw [Expr.unplaced, same, Expr.unplaced]⟩
  | unwrap _ dotted marked leftHypothesis =>
    have object := leftHypothesis fun token member => regular token (List.mem_append_left _ member)
    have question := (regular _ (by simp)).mark marked rfl
    refine .of_reduces ((object.dotted dotted (regular _ (by simp)) question ?_).respell rfl)
    intro _ _ _ _ _ left same
    have whole := Derives.unwrap left dotted marked
    exact ⟨_, _, _, whole, by rw [Expr.unplaced, same, Expr.unplaced]⟩
  | @binary _ _ _ _ operator _ _ _ _ _ _ _ spelled _ leftHypothesis rightHypothesis =>
    have left := leftHypothesis fun token member => regular token (List.mem_append_left _ member)
    have sign := (regular _ (by simp)).mark spelled (by cases operator <;> rfl)
    have right := rightHypothesis fun token member => regular token (by simp [member])
    refine .of_reduces ((left.operandLeft.applied (sign.both right.operandRight) ?_).respell ?_)
    · rintro _ _ _ _ _ _ left leftSame ⟨_, _, rfl, rfl, _, _, _, right, rightSame⟩
      have whole := Derives.binary left spelled right
      exact ⟨_, _, _, whole, by rw [Expr.unplaced, leftSame, rightSame, Expr.unplaced]⟩
    · simp [Expr.pieces, List.filterMap_cons, Piece.lexeme?]
  | @assign _ _ _ _ operator target value _ _ _ _ _ place spelled _ leftHypothesis
      rightHypothesis =>
    have left := leftHypothesis fun token member => regular token (List.mem_append_left _ member)
    obtain ⟨joined, hasSpelling⟩ := assignMark_of_spelled spelled
    have sign := (regular _ (by simp)).mark rfl hasSpelling
    have right := rightHypothesis fun token member => regular token (by simp [member])
    refine .of_reduces ((left.operandBefore.applied (sign.both right.whole) ?_).respell ?_)
    · rintro _ _ _ _ _ _ left leftSame ⟨_, _, rfl, rfl, _, _, _, right, rightSame⟩
      rw [← Expr.isPlace_unplaced, ← leftSame, Expr.isPlace_unplaced] at place
      have whole := Derives.assign left place spelled right
      exact ⟨_, _, _, whole, by rw [Expr.unplaced, leftSame, rightSame, Expr.unplaced]⟩
    · rw [pieces_assign place, joined]
      simp [List.filterMap_cons, Piece.lexeme?]
  | loosen _ inductionHypothesis => exact (inductionHypothesis regular).loosen
  | noArgument =>
    intro closing pieces _ spells
    exact Reduces.both (.same ⟨[], _, .noArgument, rfl⟩ rfl) (.only spells)
  | lastArgument _ inductionHypothesis =>
    intro closing pieces _ spells
    have item := (inductionHypothesis regular).whole.imp fun _ => spellsArguments_single
    rw [Expr.piecesOfAll, Expr.piecesOfAll, commas_single]
    exact item.both (.only spells)
  | argument _ separates later itemHypothesis laterHypothesis =>
    intro closing pieces closes spells
    have item := itemHypothesis fun token member => regular token (List.mem_append_left _ member)
    have comma := (regular _ (by simp)).mark separates rfl
    have behind := laterHypothesis (fun token member => regular token (by simp [member])) _ _
      closes spells
    refine Reduces.listed separates comma closes ?_ ?_ item.whole spells behind
    · intro none
      cases later with
      | noArgument => exact ⟨rfl, ⟨[], _, .noArgument, rfl⟩, fun _ => spellsArguments_single⟩
      | lastArgument | argument => cases none
    · rintro _ _ ⟨_, _, _, derived, same⟩ ⟨_, _, listed, agree⟩
      exact ⟨_, _, .argument derived separates listed, by rw [Expr.unplacedAll, same, agree]; rfl⟩
  | noInit =>
    intro closing pieces _ spells
    exact Reduces.both (.same ⟨[], _, .noInit, rfl⟩ rfl) (.only spells)
  | lastInit dotted named assigned _ inductionHypothesis =>
    intro closing pieces _ spells
    have value := inductionHypothesis fun token member => regular token (by simp [member])
    have item := reduces_init dotted named assigned (regular _ (by simp)) (regular _ (by simp))
      (regular _ (by simp)) value.whole
    rw [Expr.piecesOfFields, Expr.piecesOfFields, commas_single]
    exact (item.imp fun _ => spellsInits_single).both (.only spells)
  | init dotted named assigned _ separates later itemHypothesis laterHypothesis =>
    intro closing pieces closes spells
    have value := itemHypothesis fun token member => regular token (by simp [member])
    have item := reduces_init dotted named assigned (regular _ (by simp)) (regular _ (by simp))
      (regular _ (by simp)) value.whole
    have comma := (regular _ (by simp)).mark separates rfl
    have behind := laterHypothesis (fun token member => regular token (by simp [member])) _ _
      closes spells
    refine Reduces.listed separates comma closes ?_ (fun _ _ => spellsInits_cons separates) item
      spells behind
    intro none
    cases later with
    | noInit => exact ⟨rfl, ⟨[], _, .noInit, rfl⟩, fun _ => spellsInits_single⟩
    | lastInit | init => cases none

/-- An expression that stands alone reduces to its layout. -/
theorem reduces_expr (derived : DerivesExpr tokens value levels)
    (regular : ∀ token ∈ tokens, Regular token) :
    Reduces (SpellsUpTo DerivesExpr Expr.unplaced value) tokens value.pieces := by
  obtain ⟨chain, whole⟩ := derived
  refine (phraseReduces whole regular).whole.imp ?_
  rintro _ ⟨result, chain, levels, derived, same⟩
  exact ⟨result, levels, ⟨chain, derived⟩, same⟩

end SystemsLang.Layout
