import SystemsLang.Proofs.Outline.Heads
import SystemsLang.Proofs.Outline.Trees

/-!
# What the line of an expression tells

The line of an expression is a label with a position behind it. The position is what stands in the
last parentheses, so the line tells both. The first word of the label names the sort of the
expression, and what follows it is a name, a number, a quoted text, an operator or the type of an
array, each of which can be read back.

Main statements: a line tells the label and the position (`placed_injective`), the label of an
expression tells everything in it but positions and what stands below it (`bare_of_label`), and it
can be written on a line (`legible_label`).
-/

namespace SystemsLang

/-- A number is written with digits alone. -/
theorem notMem_toString {number : Nat} {character : Char} (foreign : character.isDigit = false) :
    character ∉ (toString number).toList := by
  intro member
  rw [Token.isDigit_of_mem_toString member] at foreign
  cases foreign

namespace Position

/-- A position as characters. -/
theorem toList_text (position : Position) :
    position.text.toList = (toString position.line).toList ++ ':' ::
      (toString position.column).toList := by
  simp [text]

/-- A position is written with digits and a colon. -/
theorem notMem_text {position : Position} {character : Char} (foreign : character.isDigit = false)
    (noColon : character ≠ ':') : character ∉ position.text.toList := by
  rw [toList_text, List.mem_append, List.mem_cons]
  rintro (line | colon | column)
  · exact notMem_toString foreign line
  · exact noColon colon
  · exact notMem_toString foreign column

/-- Different positions are written differently. -/
theorem text_injective {position other : Position} (same : position.text = other.text) :
    position = other := by
  have sameText := congrArg String.toList same
  rw [toList_text, toList_text] at sameText
  obtain ⟨sameLine, sameColumn⟩ := Layout.Outline.append_mark_inj
    (notMem_toString (by decide)) (notMem_toString (by decide)) sameText
  obtain ⟨line, column⟩ := position
  obtain ⟨otherLine, otherColumn⟩ := other
  obtain rfl : line = otherLine := Token.toList_toString_injective sameLine
  obtain rfl : column = otherColumn := Token.toList_toString_injective sameColumn
  rfl

end Position

namespace Layout.Outline

/-- A line tells what stands on it before the position, and the position. -/
theorem placed_injective {text other : String} {position otherPosition : Position}
    {children otherChildren : List Tree}
    (same : placed text position children = placed other otherPosition otherChildren) :
    text = other ∧ position = otherPosition ∧ children = otherChildren := by
  obtain ⟨sameText, rfl⟩ := Tree.node.inj same
  have reversed (text : String) (position : Position) :
      (text ++ " (" ++ position.text ++ ")").toList.reverse =
        ')' :: (position.text.toList.reverse ++ '(' :: (text.toList ++ [' ']).reverse) := by
    simp
  -- seen from the end, the position is what stands before the first opening parenthesis
  have sameReversed := congrArg (fun text => text.toList.reverse) sameText
  simp only [reversed] at sameReversed
  obtain ⟨samePosition, sameRest⟩ := append_mark_inj
    (fun member => Position.notMem_text (by decide) (by decide) (List.mem_reverse.mp member))
    (fun member => Position.notMem_text (by decide) (by decide) (List.mem_reverse.mp member))
    (List.cons.inj sameReversed).2
  obtain rfl : position = otherPosition :=
    Position.text_injective (String.toList_injective (List.reverse_inj.mp samePosition))
  have sameHead : text.toList = other.toList :=
    List.append_cancel_right (List.reverse_inj.mp sameRest)
  exact ⟨String.toList_injective sameHead, rfl, rfl⟩

/-- A position can stand behind what is legible. -/
theorem Legible.placed {text : String} (legible : Legible text) (position : Position) :
    Legible (text ++ " (" ++ position.text ++ ")") :=
  ((legible.append (by decide)).append (Position.notMem_text (by decide) (by decide))).append
    (by decide)

end Layout.Outline

namespace Piece

/-- A character that words and numbers are made of is no line break. -/
theorem newline_notMem_of_all {condition : Char → Bool} {text : List Char}
    (all : text.all condition = true) (foreign : condition '\n' = false) : '\n' ∉ text := by
  intro member
  rw [List.all_eq_true.mp all '\n' member] at foreign
  cases foreign

/-- A string literal as characters. -/
theorem toList_text_string (value : String) :
    (string value).text.toList = '"' :: (Text.escape value.toList ++ ['"']) := by
  simp [text, Text.escapeString]

/-- A piece that can be scanned stands on one line. -/
theorem newline_notMem_text (piece : Piece) (proper : piece.Proper) : '\n' ∉ piece.text.toList := by
  cases piece with
  | mark kind => cases kind <;> decide
  | name text =>
    have word {first : Char} {rest : List Char}
        (shape : (Token.startsWord first && rest.all Token.continuesWord) = true) :
        '\n' ∉ first :: rest := by
      obtain ⟨starts, continues⟩ := Bool.and_eq_true_iff.mp shape
      have all : (first :: rest).all Token.continuesWord = true := by
        rw [List.all_cons, Token.continuesWord_of_startsWord starts, continues]
        rfl
      exact newline_notMem_of_all all (by decide)
    have shape : Token.isWord text.toList = true := proper
    rw [Piece.text]
    unfold Token.isWord at shape
    split at shape
    · rename_i first rest same
      rw [same, List.mem_cons]
      exact not_or.mpr ⟨by decide, word shape⟩
    · rename_i first rest _ same
      rw [same]
      exact word shape
    · cases shape
  | number text =>
    rcases proper with ⟨-, digits⟩ | ⟨whole, fraction, same, ⟨-, digits⟩, ⟨-, more⟩⟩
    · exact newline_notMem_of_all digits (by decide)
    · rw [Piece.text, same, List.mem_append, List.mem_cons]
      rintro (inside | point | behind)
      · exact newline_notMem_of_all digits (by decide) inside
      · exact absurd point (by decide)
      · exact newline_notMem_of_all more (by decide) behind
  | string value =>
    rw [toList_text_string, List.mem_cons, List.mem_append]
    rintro (quote | inside | quote)
    · exact absurd quote (by decide)
    · exact Text.newline_notMem_escape _ inside
    · exact absurd quote (by decide)
  | blank => decide

/-- Joined pieces stand on one line. -/
theorem newline_notMem_textOf {pieces : List Piece} (joined : Joined pieces) :
    '\n' ∉ (textOf pieces).toList := by
  induction pieces with
  | nil => exact fun impossible => nomatch impossible
  | cons piece rest inductionHypothesis =>
    rw [toList_textOf_cons, List.mem_append]
    exact not_or.mpr ⟨newline_notMem_text piece joined.1, inductionHypothesis joined.2.2⟩

end Piece

namespace Syntax

open Layout Outline
open Token (IsIdentifier)

/-- The first word of a text. -/
def firstWord (text : String) : List Char :=
  text.toList.takeWhile (· ≠ ' ')

/-- The first word of two texts, as characters. -/
theorem firstWord_append (text other : String) :
    firstWord (text ++ other) = (text.toList ++ other.toList).takeWhile (· ≠ ' ') := by
  rw [firstWord, String.toList_append]

/-- A mark without blanks in it is the first word of the pieces that it begins, if a blank follows
it. -/
theorem firstWord_textOf {kind : Token.Kind} (pieces : List Piece)
    (whole : ' ' ∉ kind.describe.toList) :
    firstWord (Piece.textOf (.mark kind :: .blank :: pieces)) = kind.describe.toList := by
  rw [firstWord, Piece.toList_textOf_cons, Piece.toList_textOf_cons]
  refine (Token.takeWhile_append ?_ ?_).1
  · rw [List.all_eq_true]
    exact fun character member => decide_eq_true fun blank => whole (blank ▸ member)
  · rintro next ⟨⟩
    rfl

/-- Different binary operators have different names. -/
theorem BinaryOp.name_injective {operator other : BinaryOp} (same : operator.name = other.name) :
    operator = other := by
  revert same
  cases operator <;> cases other <;> decide

/-- Different unary operators have different names. -/
theorem UnaryOp.name_injective {operator other : UnaryOp} (same : operator.name = other.name) :
    operator = other := by
  revert same
  cases operator <;> cases other <;> decide

/-- What an assignment writes before the equals sign tells its operator. -/
theorem BinaryOp.symbol_injective {operator other : Option BinaryOp}
    (same : (operator.map symbol).getD "" = (other.map symbol).getD "") : operator = other := by
  revert same
  rcases operator with _ | operator <;> rcases other with _ | other
  · exact fun _ => rfl
  · cases other <;> decide
  · cases operator <;> decide
  · cases operator <;> cases other <;> decide

/-- A quoted text can be read back. -/
theorem quoted_injective {value other : String}
    (same : (Piece.string value).text = (Piece.string other).text) : value = other := by
  have sameText := congrArg String.toList same
  rw [Piece.toList_text_string, Piece.toList_text_string] at sameText
  have read (value : String) := Text.readQuoted_escape '"' (.inl rfl) value.toList []
  have sameRead := (read value).symm.trans
    ((congrArg (Text.readQuoted '"') (List.cons.inj sameText).2).trans (read other))
  obtain ⟨-, sameValue, -⟩ := Text.Quoted.mk.inj (Option.some.inj sameRead)
  exact String.toList_injective sameValue

/-- The length of an array is written with digits or as an underscore. -/
theorem notMem_lengthText {length : Option UInt64} {character : Char}
    (foreign : character.isDigit = false) (noUnderscore : character ≠ '_') :
    character ∉ (lengthText length).toList := by
  cases length with
  | some length => exact notMem_toString foreign
  | none => exact fun member => noUnderscore (List.mem_singleton.mp member)

/-- It can be read back. -/
theorem lengthText_injective {length other : Option UInt64}
    (same : lengthText length = lengthText other) : length = other := by
  have ne (length : UInt64) : toString length.toNat ≠ "_" := by
    intro same
    have member : '_' ∈ (toString length.toNat).toList := by
      rw [same]
      decide
    exact notMem_toString (by decide) member
  cases length with
  | none =>
    cases other with
    | none => rfl
    | some other => exact absurd same.symm (ne other)
  | some length =>
    cases other with
    | none => exact absurd same (ne length)
    | some other =>
      have sameLength := Token.toList_toString_injective (congrArg String.toList same)
      exact congrArg some (UInt64.toNat_inj.mp sameLength)

/-- A name can stand behind what is legible. -/
theorem legible_name {text name : String} (legible : Legible text)
    (identifier : IsIdentifier name) : Legible (text ++ name) :=
  legible.append (Piece.newline_notMem_text (.name name) identifier.word)

namespace Expr

/-- The word that a label begins with. -/
def word : Expr → List Char
  | number .. => "number".toList
  | string .. => "string".toList
  | bool .. => "bool".toList
  | null _ => "null".toList
  | undefined _ => "undefined".toList
  | ident .. => "ident".toList
  | binary .. => "binary".toList
  | unary .. => "unary".toList
  | call .. => "call".toList
  | member .. => "member".toList
  | index .. => "index".toList
  | deref .. => "deref".toList
  | unwrap .. => "unwrap".toList
  | assign .. => "assign".toList
  | structLit .. => "struct".toList
  | arrayLit .. => "array".toList

/-- How the label of an assignment is put together. -/
theorem label_assign (position : Position) (operator : Option BinaryOp) (target value : Expr) :
    (assign position operator target value).label =
      "assign " ++ ((operator.map BinaryOp.symbol).getD "" ++ "=") :=
  String.append_assoc

/-- How the label of an array literal is put together. -/
theorem label_arrayLit (position : Position) (length : Option UInt64) (elementType : TypeExpr)
    (elements : List Expr) :
    (arrayLit position length elementType elements).label =
      "array literal [" ++ (lengthText length ++ ("]" ++ elementType.text)) := by
  rw [← String.append_assoc, ← String.append_assoc]
  rfl

/-- The first word of a label says what sort of expression it is. -/
theorem word_label (value : Expr) : firstWord value.label = value.word := by
  cases value with
  | number => exact firstWord_append "number " _
  | string => exact firstWord_append "string " _
  | bool => exact firstWord_append "bool " _
  | null => exact firstWord_append "null" ""
  | undefined => exact firstWord_append "undefined" ""
  | ident => exact firstWord_append "ident " _
  | binary => exact firstWord_append "binary " _
  | unary => exact firstWord_append "unary " _
  | call => exact firstWord_append "call" ""
  | member => exact firstWord_append "member " _
  | index => exact firstWord_append "index" ""
  | deref => exact firstWord_append "deref" ""
  | unwrap => exact firstWord_append "unwrap" ""
  | assign =>
    rw [label_assign]
    exact firstWord_append "assign " _
  | structLit => exact firstWord_append "struct literal " _
  | arrayLit =>
    rw [label_arrayLit]
    exact firstWord_append "array literal [" _

/-- The node of an expression alone, without its position and without what stands below it. -/
def bare : Expr → Expr
  | number _ text => number Position.start text
  | string _ value => string Position.start value
  | bool _ value => bool Position.start value
  | null _ => null Position.start
  | undefined _ => undefined Position.start
  | ident _ name => ident Position.start name
  | binary _ operator _ _ => binary Position.start operator default default
  | unary _ operator _ => unary Position.start operator default
  | call .. => call Position.start default []
  | member _ _ field => member Position.start default field.unplaced
  | index .. => index Position.start default default
  | deref .. => deref Position.start default
  | unwrap .. => unwrap Position.start default
  | assign _ operator _ _ => assign Position.start operator default default
  | structLit _ name _ => structLit Position.start name.unplaced []
  | arrayLit _ length elementType _ => arrayLit Position.start length elementType.unplaced []

/-- The words that labels begin with, in the order of the type. -/
def words : List (List Char) :=
  ["number".toList, "string".toList, "bool".toList, "null".toList, "undefined".toList,
    "ident".toList, "binary".toList, "unary".toList, "call".toList, "member".toList,
    "index".toList, "deref".toList, "unwrap".toList, "assign".toList, "struct".toList,
    "array".toList]

/-- Each form of expressions has a word of its own, in the order of the forms. -/
theorem idxOf_word (value : Expr) : words.idxOf value.word = value.ctorIdx := by
  cases value <;> rfl

/-- A label says everything about a node that is no position. -/
theorem bare_of_label {value other : Expr} (spellable : value.Spellable)
    (otherSpellable : other.Spellable) (same : value.label = other.label) :
    value.bare = other.bare := by
  -- the first words settle that both are of one sort, which leaves one case for each
  have sameSort : value.ctorIdx = other.ctorIdx := by
    rw [← idxOf_word, ← idxOf_word, ← word_label, ← word_label, same]
  cases value with
  | number _ text =>
    cases other with
    | number _ otherText =>
      obtain rfl : text = otherText := (String.append_right_inj "number ").mp same
      rfl
    | _ => cases sameSort
  | string _ value =>
    cases other with
    | string _ otherValue =>
      obtain rfl : value = otherValue :=
        quoted_injective ((String.append_right_inj "string ").mp same)
      rfl
    | _ => cases sameSort
  | bool _ value =>
    cases other with
    | bool _ otherValue =>
      have sameText := (String.append_right_inj "bool ").mp same
      obtain rfl : value = otherValue := by
        revert sameText
        cases value <;> cases otherValue <;> decide
      rfl
    | _ => cases sameSort
  | null =>
    cases other with
    | null => rfl
    | _ => cases sameSort
  | undefined =>
    cases other with
    | undefined => rfl
    | _ => cases sameSort
  | ident _ name =>
    cases other with
    | ident _ otherName =>
      obtain rfl : name = otherName := (String.append_right_inj "ident ").mp same
      rfl
    | _ => cases sameSort
  | binary _ operator =>
    cases other with
    | binary _ otherOperator =>
      obtain rfl : operator = otherOperator :=
        BinaryOp.name_injective ((String.append_right_inj "binary ").mp same)
      rfl
    | _ => cases sameSort
  | unary _ operator =>
    cases other with
    | unary _ otherOperator =>
      obtain rfl : operator = otherOperator :=
        UnaryOp.name_injective ((String.append_right_inj "unary ").mp same)
      rfl
    | _ => cases sameSort
  | call =>
    cases other with
    | call => rfl
    | _ => cases sameSort
  | member _ _ field =>
    cases other with
    | member _ _ otherField =>
      have sameName : field.name = otherField.name := (String.append_right_inj "member ").mp same
      rw [bare, bare, Ident.unplaced, sameName]
      rfl
    | _ => cases sameSort
  | index =>
    cases other with
    | index => rfl
    | _ => cases sameSort
  | deref =>
    cases other with
    | deref => rfl
    | _ => cases sameSort
  | unwrap =>
    cases other with
    | unwrap => rfl
    | _ => cases sameSort
  | assign _ operator =>
    cases other with
    | assign _ otherOperator =>
      rw [label_assign, label_assign, String.append_right_inj, String.append_left_inj] at same
      obtain rfl : operator = otherOperator := BinaryOp.symbol_injective same
      rfl
    | _ => cases sameSort
  | structLit _ name =>
    cases other with
    | structLit _ otherName =>
      have sameName : name.name = otherName.name :=
        (String.append_right_inj "struct literal ").mp same
      rw [bare, bare, Ident.unplaced, sameName]
      rfl
    | _ => cases sameSort
  | arrayLit _ length elementType =>
    cases other with
    | arrayLit _ otherLength otherType =>
      rw [label_arrayLit, label_arrayLit, String.append_right_inj] at same
      have sameText := congrArg String.toList same
      simp only [String.toList_append] at sameText
      have noBracket (length : Option UInt64) : ']' ∉ (lengthText length).toList :=
        notMem_lengthText (by decide) (by decide)
      obtain ⟨sameLength, sameType⟩ :=
        append_mark_inj (noBracket length) (noBracket otherLength) sameText
      rw [bare, bare, lengthText_injective (String.toList_injective sameLength),
        TypeExpr.text_injective spellable.1 otherSpellable.1 (String.toList_injective sameType)]
    | _ => cases sameSort

/-- The label of an expression that can be spelled stands on one line. -/
theorem legible_label {value : Expr} (spellable : value.Spellable) : Legible value.label := by
  cases value with
  | number _ text =>
    exact (by decide : Legible "number ").append
      (Piece.newline_notMem_text (.number text) spellable)
  | string _ value =>
    exact (by decide : Legible "string ").append
      (Piece.newline_notMem_text (.string value) trivial)
  | bool _ value =>
    exact (by decide : Legible "bool ").append (by cases value <;> decide)
  | null => exact (by decide : Legible "null")
  | undefined => exact (by decide : Legible "undefined")
  | ident => exact legible_name (by decide : Legible "ident ") spellable
  | binary _ operator =>
    exact (by decide : Legible "binary ").append (by cases operator <;> decide)
  | unary _ operator =>
    exact (by decide : Legible "unary ").append (by cases operator <;> decide)
  | call => exact (by decide : Legible "call")
  | member => exact legible_name (by decide : Legible "member ") spellable.2
  | index => exact (by decide : Legible "index")
  | deref => exact (by decide : Legible "deref")
  | unwrap => exact (by decide : Legible "unwrap")
  | assign _ operator =>
    rw [label_assign]
    refine (by decide : Legible "assign ").append ?_
    rcases operator with _ | operator
    · decide
    · cases operator <;> decide
  | structLit => exact legible_name (by decide : Legible "struct literal ") spellable.1
  | arrayLit _ length elementType =>
    have typed : '\n' ∉ elementType.text.toList := by
      have joined := whole_type spellable.1 [] trivial fun _ impossible => nomatch impossible
      rw [List.append_nil] at joined
      exact Piece.newline_notMem_textOf joined
    rw [label_arrayLit]
    refine (by decide : Legible "array literal [").append ?_
    rw [String.toList_append, String.toList_append, List.mem_append, List.mem_append]
    rintro (inside | bracket | behind)
    · exact notMem_lengthText (by decide) (by decide) inside
    · exact absurd bracket (by decide)
    · exact typed behind

end Expr

end Syntax

end SystemsLang
