import SystemsLang.Proofs.Layout.JoinedLines
import SystemsLang.Proofs.Parsing.Recognition

/-!
# Laying out and parsing again

The tokens of a laid-out program are those of its pieces, and these spell the program again. So the
parser gives the program back, up to positions, or it runs out of levels. How many levels a layout
takes is a property of the tree alone, and nothing keeps it below the limit: parentheses that the
tree does not need give levels back to the parser, and the layout leaves them out. A text that is
accepted can therefore have a layout that is not.

Main statements: a spellable program is parsed from its layout up to positions and room
(`ofSource_format`), and a layout is its own layout exactly if its program fits
(`formatSource_formatSource`).
-/

namespace SystemsLang.Layout

open Token (Kind lexemes)
open Syntax Grammar
open Piece (mark blank Joined Stops stops_cons)

variable {program : Program} {source text : String} {options : Options}

/-- What the parser gives can be spelled. -/
theorem spellable_of_ofSource (parsed : Program.ofSource source = .ok program) :
    program.Spellable := by
  obtain ⟨levels, -, derived⟩ := derives_of_ofSource parsed
  exact derived.spellable fun token member => Token.proper_of_mem_lexemes member

/-- The layout of a spellable program is parsed as that program if it has room, and otherwise the
parser says that it nests too deep. -/
theorem ofSource_format_of_levels (spellable : program.Spellable) (options : Options) :
    (program.levels ≤ maxDepth → ∃ again, Program.ofSource (program.format options) = .ok again ∧
      again.unplaced = program.unplaced) ∧
    (maxDepth < program.levels → ∃ token,
      Program.ofSource (program.format options) = .error ⟨.nestingTooDeep, token⟩) := by
  obtain ⟨again, derived, same⟩ := derives_program spellable (spells_format spellable options)
  obtain ⟨fits, exceeds⟩ := ofSource_of_derives derived
  exact ⟨fun room => ⟨again, fits room, same⟩, exceeds⟩

/-- Laying out is undone by parsing. What the parser gives is spellable, and the layout of every
spellable program is parsed as that program, up to positions, unless it nests too deep. -/
theorem ofSource_format :
    (∀ source program, Program.ofSource source = .ok program → program.Spellable) ∧
    ∀ (program : Program) (options : Options), program.Spellable →
      (∃ again, Program.ofSource (program.format options) = .ok again ∧
        again.unplaced = program.unplaced) ∨
      ∃ token, Program.ofSource (program.format options) = .error ⟨.nestingTooDeep, token⟩ := by
  refine ⟨fun _ _ => spellable_of_ofSource, fun program options spellable => ?_⟩
  obtain ⟨fits, exceeds⟩ := ofSource_format_of_levels spellable options
  rcases Nat.lt_or_ge maxDepth program.levels with deep | flat
  · exact .inr (exceeds deep)
  · exact .inl (fits flat)

/-- A variable with the value `(& &a).b`, which needs its parentheses and the blank inside them. -/
def addresses : Program :=
  let place := Position.start
  [.var ⟨false, false, ⟨"x", place⟩, none, some (.member place (.unary place .addressOf
    (.unary place .addressOf (.ident place "a"))) ⟨"b", place⟩), place⟩]

/-- It is spellable, so it is parsed from its layout. -/
theorem ofSource_format_addresses :
    addresses.Spellable ∧
      ((∃ again, Program.ofSource (addresses.format {}) = .ok again ∧
        again.unplaced = addresses.unplaced) ∨
      ∃ token, Program.ofSource (addresses.format {}) = .error ⟨.nestingTooDeep, token⟩) := by
  have spellable : addresses.Spellable := by
    intro declared member
    rw [List.mem_singleton.mp member]
    refine ⟨⟨by decide, by decide⟩, (fun _ impossible => nomatch impossible), ?_⟩
    rintro value ⟨⟩
    exact ⟨⟨by decide, by decide⟩, by decide, by decide⟩
  exact ⟨spellable, ofSource_format.2 addresses {} spellable⟩

/-- Two programs that differ only in positions have the same layout. -/
theorem format_eq_of_unplaced {other : Program} (same : other.unplaced = program.unplaced) :
    other.format options = program.format options := by
  rw [← Program.format_unplaced other, same, Program.format_unplaced]

/-- What is laid out was parsed before. -/
theorem parsed_of_formatSource (formatted : formatSource source options = .ok text) :
    ∃ program, Program.ofSource source = .ok program ∧ text = program.format options := by
  unfold formatSource at formatted
  cases parsed : Program.ofSource source with
  | error error =>
    rw [parsed] at formatted
    cases formatted
  | ok program =>
    rw [parsed] at formatted
    exact ⟨program, rfl, (Except.ok.inj formatted).symm⟩

/-- A layout is laid out as itself if the layout of its program has room, and otherwise it is
rejected because it nests too deep. -/
theorem formatSource_formatSource (formatted : formatSource source options = .ok text) :
    ∃ program, Program.ofSource source = .ok program ∧
      (program.levels ≤ maxDepth → formatSource text options = .ok text) ∧
      (maxDepth < program.levels → ∃ token,
        formatSource text options = .error ⟨.nestingTooDeep, token⟩) := by
  obtain ⟨program, parsed, rfl⟩ := parsed_of_formatSource formatted
  obtain ⟨fits, exceeds⟩ := ofSource_format_of_levels (spellable_of_ofSource parsed) options
  refine ⟨program, parsed, fun room => ?_, fun deep => ?_⟩
  · obtain ⟨again, parsedAgain, same⟩ := fits room
    rw [formatSource, parsedAgain]
    exact congrArg Except.ok (format_eq_of_unplaced same)
  · obtain ⟨token, failed⟩ := exceeds deep
    refine ⟨token, ?_⟩
    rw [formatSource, failed]
    rfl

/-- The layout of a small program is its own layout. -/
theorem formatSource_formatSource_small :
    formatSource "const x=1;" {} = .ok "const x = 1;\n" ∧
      ∃ program, Program.ofSource "const x=1;" = .ok program ∧
        (program.levels ≤ maxDepth → formatSource "const x = 1;\n" {} = .ok "const x = 1;\n") ∧
        (maxDepth < program.levels → ∃ token,
          formatSource "const x = 1;\n" {} = .error ⟨.nestingTooDeep, token⟩) := by
  have formatted : formatSource "const x=1;" {} = .ok "const x = 1;\n" := by decide +kernel
  exact ⟨formatted, formatSource_formatSource formatted⟩

/-- The pieces of summands behind the first one. -/
def summands (count : Nat) : List Piece :=
  (List.replicate count [blank, mark .plus, blank, .number "1"]).flatten

/-- A constant with a sum in parentheses and more summands behind them. -/
def sumPieces (inner outer : Nat) : List Piece :=
  [mark .constWord, blank, .name "x", blank, mark .assign, blank, mark .leftParen, .number "1"] ++
    (summands inner ++ mark .rightParen :: (summands outer ++ [mark .semicolon]))

/-- The text of such a constant. -/
def sumSource (inner outer : Nat) : String :=
  "const x = (1" ++ String.join (List.replicate inner " + 1") ++ ")" ++
    String.join (List.replicate outer " + 1") ++ ";\n"

/-- The text of summands. -/
theorem textOf_summands (count : Nat) :
    (Piece.textOf (summands count)).toList =
      (String.join (List.replicate count " + 1")).toList := by
  induction count with
  | zero => rfl
  | succ count inductionHypothesis =>
    have split : summands (count + 1) =
        blank :: mark .plus :: blank :: .number "1" :: summands count := rfl
    rw [split, List.replicate_succ, String.join_cons, String.toList_append, ← inductionHypothesis]
    simp only [Piece.toList_textOf_cons]
    rfl

/-- The text is that of the pieces on a line. -/
theorem toList_sumSource (inner outer : Nat) :
    (sumSource inner outer).toList = (Piece.textOf (sumPieces inner outer)).toList ++ ['\n'] := by
  rw [sumSource, sumPieces]
  simp only [String.toList_append, ← textOf_summands, Piece.toList_textOf_append,
    Piece.toList_textOf_cons, List.append_assoc]
  rfl

/-- Summands are joined. -/
theorem whole_summands (count : Nat) {rest : List Piece} (joined : Joined rest)
    (stopped : Stops rest) :
    Joined (summands count ++ rest) ∧ Stops (summands count ++ rest) := by
  induction count with
  | zero => exact ⟨joined, stopped⟩
  | succ count inductionHypothesis =>
    have one : Joined (.number "1" :: (summands count ++ rest)) :=
      .operand (.inl ⟨by decide, by decide⟩) inductionHypothesis.1 inductionHypothesis.2
    have plus : Joined (mark .plus :: blank :: .number "1" :: (summands count ++ rest)) :=
      .operand rfl one.blank (stops_cons rfl)
    exact ⟨plus.blank, stops_cons rfl⟩

/-- The lexemes of the constant spell its pieces. -/
theorem spells_sumSource (inner outer : Nat) :
    Spells (lexemes (sumSource inner outer)) (sumPieces inner outer) := by
  have semicolon : Joined [mark .semicolon] := joined_mark rfl
  obtain ⟨outerJoined, outerStopped⟩ := whole_summands outer semicolon (stops_cons rfl)
  have closing : Joined (mark .rightParen :: (summands outer ++ [mark .semicolon])) :=
    .operand rfl outerJoined outerStopped
  obtain ⟨innerJoined, innerStopped⟩ := whole_summands inner closing (stops_cons rfl)
  have one : Joined (.number "1" :: (summands inner ++ mark .rightParen ::
      (summands outer ++ [mark .semicolon]))) :=
    .operand (.inl ⟨by decide, by decide⟩) innerJoined innerStopped
  have joined : Joined (sumPieces inner outer) := by
    refine .operand rfl (Piece.Joined.blank (.operand rfl (Piece.Joined.blank (.operand rfl
      (Piece.Joined.blank ?_) (stops_cons rfl))) (stops_cons rfl))) (stops_cons rfl)
    exact .opening rfl rfl (by decide) (by decide) one (by rintro _ ⟨⟩; rfl)
  unfold Spells
  rw [Token.map_lexemes, toList_sumSource, Piece.cut_line joined, Token.cut_nil, List.append_nil]

/-- Where an expression stands has no part in how deep its layout nests. -/
theorem measures_moveTo (value : Expr) (position : Position) :
    (value.moveTo position).chain = value.chain ∧ (value.moveTo position).levels = value.levels ∧
      (value.moveTo position).power = value.power := by
  cases value <;> exact ⟨rfl, rfl, rfl⟩

/-- Summands behind an expression. The derivation takes a level for each; so does the layout, which
goes on from the chain that the tree has. -/
theorem derives_summands {count chain levels : Nat} {first : Token} {before tokens : List Token}
    {left : Expr} (derived : Derives (first :: before) (.expr (operatorRow .add) chain left) levels)
    (tight : BinaryOp.add.power.left ≤ left.power) (spells : Spells tokens (summands count)) :
    ∃ value more, Derives (first :: before ++ tokens)
        (.expr (operatorRow .add) (chain + count) value) more ∧
      more ≤ max levels (chain + count + 2) ∧ BinaryOp.add.power.left ≤ value.power ∧
      value.chain = left.chain + count ∧
      (value = left ∧ count = 0 ∨ left.chain + count + 2 ≤ value.levels) := by
  induction count generalizing chain levels before left tokens with
  | zero =>
    obtain rfl := Spells.nil spells
    rw [List.append_nil]
    exact ⟨left, levels, derived, Nat.le_max_left _ _, tight, rfl, .inl ⟨rfl, rfl⟩⟩
  | succ count inductionHypothesis =>
    have spelled : Spells tokens (mark .plus :: blank :: .number "1" :: summands count) := spells
    obtain ⟨plus, later, rfl, kind, rest⟩ := spelled.mark
    obtain ⟨one, later, rfl, number, -, rest⟩ := rest.blank.cons rfl
    have last : Derives [one] (.expr (operatorRow .add + 1) 0 (.number one.position one.text)) 1 :=
      (Derives.number number).loosenTo (by decide)
    have longer : Derives (first :: (before ++ [plus, one])) (.expr (operatorRow .add) (chain + 1)
        (.binary first.position .add left (.number one.position one.text)))
        (max levels (chain + 2 + 1)) :=
      .binary derived kind last
    have chained : (Expr.binary first.position .add left (.number one.position one.text)).chain =
        left.chain + 1 := by
      rw [Expr.chain, if_neg (Nat.not_lt_of_le tight)]
    have deeper : left.chain + 3 ≤
        (Expr.binary first.position .add left (.number one.position one.text)).levels := by
      rw [Expr.levels, Expr.chainIn, if_neg (Nat.not_lt_of_le tight),
        if_neg (Nat.not_lt_of_le tight)]
      exact Nat.le_max_right _ _
    obtain ⟨value, more, whole, bound, tighter, same, deep⟩ :=
      inductionHypothesis longer (Nat.le_refl _) rest
    have regrouped : first :: (before ++ [plus, one]) ++ later =
        first :: before ++ plus :: one :: later := by simp
    rw [regrouped, Nat.add_right_comm, Nat.add_assoc] at whole
    refine ⟨value, more, whole, by omega, tighter, by omega, .inr ?_⟩
    rcases deep with ⟨rfl, rfl⟩ | deep
    · exact deeper
    · omega

/-- The tokens of the constant derive a program that takes room for the longer of the two sums, and
the layout of that program takes room for both. -/
theorem derives_sum {inner outer : Nat} {tokens : List Token} (positive : 0 < outer)
    (spells : Spells tokens (sumPieces inner outer)) :
    ∃ program levels, DerivesProgram false tokens program levels ∧
      levels ≤ max (inner + 3) (outer + 2) ∧ inner + outer + 2 ≤ program.levels := by
  have spelled : Spells tokens (mark .constWord :: blank :: .name "x" :: blank :: mark .assign ::
      blank :: mark .leftParen :: .number "1" :: (summands inner ++ mark .rightParen ::
        (summands outer ++ [mark .semicolon]))) := spells
  clear spells
  -- First the tokens are taken apart piece by piece, then the two sums are derived, the first as
  -- the left operand of the second.
  obtain ⟨const, later, rfl, begins, rest⟩ := spelled.mark
  obtain ⟨name, later, rfl, named, -, rest⟩ := rest.blank.ident ⟨by decide, by decide⟩
  obtain ⟨equals, later, rfl, assigns, rest⟩ := rest.blank.mark
  obtain ⟨opening, later, rfl, opens, rest⟩ := rest.blank.mark
  obtain ⟨one, later, rfl, number, -, behindOne⟩ := rest.cons rfl
  obtain ⟨innerTokens, after, rfl, innerSpelled, behindInner⟩ := behindOne.append
  obtain ⟨closing, later, rfl, closes, behindClosing⟩ := behindInner.mark
  obtain ⟨outerTokens, after, rfl, outerSpelled, behindOuter⟩ := behindClosing.append
  obtain ⟨semicolon, later, rfl, ends, none⟩ := behindOuter.mark
  obtain rfl := none.nil
  have single : Derives [one] (.expr (operatorRow .add) 0 (.number one.position one.text)) 1 :=
    (Derives.number number).loosenTo (by decide)
  obtain ⟨sum, innerLevels, innerDerived, innerBound, innerPower, innerChain, -⟩ :=
    derives_summands single (by decide : BinaryOp.add.power.left ≤ postfixPower) innerSpelled
  have group : Derives (opening :: (one :: innerTokens ++ [closing]))
      (.expr (operatorRow .add) 0 (sum.moveTo opening.position)) (innerLevels + 1) :=
    (Derives.group opens (innerDerived.loosenTo (Nat.zero_le _)) closes).loosenTo (by decide)
  obtain ⟨chainMoved, -, powerMoved⟩ := measures_moveTo sum opening.position
  obtain ⟨value, levels, derived, bound, -, -, deep⟩ :=
    derives_summands group (by rw [powerMoved]; exact innerPower) outerSpelled
  -- Without the group the first sum is a chain that the second goes on, so their levels add up.
  have room : inner + outer + 2 ≤ value.levels := by
    rcases deep with ⟨-, none⟩ | deep
    · omega
    · rw [chainMoved, innerChain] at deep
      change 0 + inner + outer + 2 ≤ value.levels at deep
      omega
  have regrouped : const :: name :: equals :: opening :: one :: (innerTokens ++ closing ::
      (outerTokens ++ [semicolon])) = const :: name :: ([] ++ (equals ::
        (opening :: (one :: innerTokens ++ [closing]) ++ outerTokens) ++ [semicolon])) ++ [] := by
    simp
  have var : DerivesVar false const.position (const :: name :: ([] ++ (equals ::
        (opening :: (one :: innerTokens ++ [closing]) ++ outerTokens) ++ [semicolon])))
      ⟨false, true, ⟨name.text, name.position⟩, Option.none, some value, const.position⟩
      (max 0 levels) :=
    .intro begins named .absent (.present assigns ⟨_, derived.loosenTo (Nat.zero_le _)⟩) ends
  rw [regrouped]
  refine ⟨_, _, .cons (.var .absent var rfl) .nil, by omega, ?_⟩
  exact Nat.le_trans room (Nat.le_trans (Nat.le_max_right _ _) (Nat.le_max_left _ _))

/-- The constant is parsed if each of the two sums has room, and its layout needs room for both. -/
theorem ofSource_sumSource {inner outer : Nat} (innerFits : inner + 3 ≤ maxDepth)
    (outerFits : outer + 2 ≤ maxDepth) (positive : 0 < outer) :
    ∃ program, Program.ofSource (sumSource inner outer) = .ok program ∧
      inner + outer + 2 ≤ program.levels := by
  obtain ⟨program, levels, derived, bound, deep⟩ :=
    derives_sum positive (spells_sumSource inner outer)
  exact ⟨program, (ofSource_of_derives derived).1 (by omega), deep⟩

/-- There are texts that have a layout which is rejected, however much is taken off one sum and put
onto the other. -/
theorem formatSource_sumSource {inner outer : Nat} (options : Options)
    (innerFits : inner + 3 ≤ maxDepth) (outerFits : outer + 2 ≤ maxDepth) (positive : 0 < outer)
    (deep : maxDepth < inner + outer + 2) :
    ∃ text token, formatSource (sumSource inner outer) options = .ok text ∧
      formatSource text options = .error ⟨.nestingTooDeep, token⟩ := by
  obtain ⟨program, parsed, levels⟩ := ofSource_sumSource innerFits outerFits positive
  obtain ⟨-, exceeds⟩ := ofSource_format_of_levels (spellable_of_ofSource parsed) options
  obtain ⟨token, failed⟩ := exceeds (Nat.lt_of_lt_of_le deep levels)
  refine ⟨program.format options, token, ?_, ?_⟩
  · rw [formatSource, parsed]
    rfl
  · rw [formatSource, failed]
    rfl

/-- Not every layout is accepted. -/
theorem layout_rejected : ¬ ∀ source options text, formatSource source options = .ok text →
    formatSource text options = .ok text := by
  intro stable
  obtain ⟨text, token, formatted, failed⟩ :=
    formatSource_sumSource {} (by decide : 63 + 3 ≤ maxDepth) (by decide : 64 + 2 ≤ maxDepth)
      (by decide) (by decide)
  have again := stable _ _ _ formatted
  rw [failed] at again
  cases again

end SystemsLang.Layout
