import SystemsLang.Parser.Stmt
import SystemsLang.Proofs.Grammar.Program
import SystemsLang.Proofs.Parsing.SoundExpr

/-!
# What is read as a statement spells it

The parser of statements looks at the next token and runs the parser of the form that the token
announces. Soundness of blocks and branches is shown by induction on the room, since both stand one
level above what they enclose.
-/

namespace SystemsLang.Parser

open Token (Kind Failure)
open Syntax (Expr Ident TypeExpr VarDecl Stmt Block)
open Grammar

variable {ending token : Token} {tokens rest : List Token} {room : Nat} {α : Type}

/-- A sequence of items is sound for a relation with lists that is closed under putting an item in
front, if every item takes a token. -/
theorem sound_manyUntil {closing : List Kind} {item : Parser α} {Spells : List Token → α → Prop}
    {SpellsList : List Token → List α → Prop} (sound : Sound item Spells)
    (nonempty : ∀ value, ¬ Spells [] value) (nil : SpellsList [] [])
    (cons : ∀ before after value values, Spells before value → SpellsList after values →
      SpellsList (before ++ after) (value :: values)) :
    Sound (manyUntil closing item) SpellsList := by
  intro ending tokens values rest isEnding ran
  induction values generalizing tokens with
  | nil =>
    rcases run_manyUntil_eq_ok ran with ⟨-, rfl, -⟩ | ⟨first, later, middle, impossible, -⟩
    · exact ⟨[], rfl, nil⟩
    · cases impossible
  | cons value values inductionHypothesis =>
    rcases run_manyUntil_eq_ok ran with
      ⟨impossible, -⟩ | ⟨first, later, middle, same, -, read, goesOn⟩
    · cases impossible
    · cases same
      obtain ⟨before, rfl, spells⟩ := sound _ _ _ _ isEnding read
      have positive : 0 < before.length := by
        refine List.length_pos_iff.mpr ?_
        rintro rfl
        exact nonempty _ spells
      have more := goesOn (by rw [List.length_append]; omega)
      obtain ⟨after, rfl, spellsLater⟩ := inductionHypothesis _ more
      exact ⟨before ++ after, by rw [List.append_assoc], cons _ _ _ _ spells spellsLater⟩

/-- A sequence of items that each take a token is read up to where it cannot go on. -/
theorem stops_manyUntil {closing : List Kind} {item : Parser α} {Spells : List Token → α → Prop}
    {values : List α} (sound : Sound item Spells) (nonempty : ∀ value, ¬ Spells [] value)
    (isEnding : ending.kind = .ending)
    (ran : (manyUntil closing item).run ending tokens = .ok (values, rest)) :
    ¬ GoesOn closing (next ending rest) := by
  induction values generalizing tokens with
  | nil =>
    rcases run_manyUntil_eq_ok ran with ⟨-, -, stops⟩ | ⟨first, later, middle, impossible, -⟩
    · exact stops
    · cases impossible
  | cons value values inductionHypothesis =>
    rcases run_manyUntil_eq_ok ran with
      ⟨impossible, -⟩ | ⟨first, later, middle, same, -, read, goesOn⟩
    · cases impossible
    · cases same
      obtain ⟨before, rfl, spells⟩ := sound _ _ _ _ isEnding read
      have positive : 0 < before.length := by
        refine List.length_pos_iff.mpr ?_
        rintro rfl
        exact nonempty _ spells
      exact inductionHypothesis (goesOn (by rw [List.length_append]; omega))

/-- What a mark announces is there exactly if the mark is. -/
theorem sound_optionalAfter {kind : Kind} {item : Parser α}
    {Item : List Token → α → Nat → Prop} (notEnding : kind ≠ .ending)
    (sound : Sound item fun tokens value => ∃ levels, Item tokens value levels) :
    Sound (optionalAfter kind item) fun tokens value =>
      ∃ levels, OptionalAfter kind Item tokens value levels := by
  intro ending tokens value rest isEnding ran
  obtain ⟨present, middle, asked, behind⟩ := run_bind_eq_ok.mp ran
  rcases run_take_eq_ok isEnding notEnding asked with ⟨rfl, mark, same, rfl⟩ | ⟨rfl, -, rfl⟩
  · obtain ⟨value, itemRan, rfl⟩ := run_map_eq_ok.mp behind
    obtain ⟨taken, rfl, levels, spells⟩ := sound _ _ _ _ isEnding itemRan
    exact ⟨mark :: taken, rfl, levels, .present same spells⟩
  · obtain ⟨rfl, rfl⟩ := run_pure_eq_ok.mp behind
    exact ⟨[], rfl, 0, .absent⟩

/-- What is read unless a token closes spells an expression, or is left out. -/
theorem sound_exprUnless (kind : Kind) :
    Sound (exprUnless room kind) fun tokens value =>
      ∃ levels, Possibly DerivesExpr tokens value levels := by
  intro ending tokens value rest isEnding ran
  obtain ⟨absent, middle, looked, behind⟩ := run_bind_eq_ok.mp ran
  obtain ⟨-, rfl⟩ := run_nextIs_eq_ok looked
  split at behind
  · obtain ⟨rfl, rfl⟩ := run_pure_eq_ok.mp behind
    exact ⟨[], rfl, 0, .absent⟩
  · obtain ⟨value, valueRan, rfl⟩ := run_map_eq_ok.mp behind
    obtain ⟨taken, rfl, levels, spells⟩ := sound_expr room _ _ _ _ isEnding valueRan
    exact ⟨taken, rfl, levels, .present spells⟩

/-- A variable that was read is spelled by the tokens from its first word to its semicolon. -/
theorem sound_varDecl {isPub : Bool} {position : Position} {declared : VarDecl}
    (isEnding : ending.kind = .ending)
    (ran : (varDecl room isPub position).run ending tokens = .ok (declared, rest)) :
    ∃ taken levels, tokens = taken ++ rest ∧ DerivesVar isPub position taken declared levels := by
  obtain ⟨first, middle, wordRan, behind⟩ := run_bind_eq_ok.mp ran
  obtain ⟨listed, stands⟩ := run_expectAny_eq_ok isEnding (by decide) wordRan
  have word : first.kind = .constWord ∨ first.kind = .varWord := by simpa using listed
  obtain ⟨name, later, nameRan, behindName⟩ := run_bind_eq_ok.mp behind
  obtain ⟨token, named, rfl, rfl⟩ := run_ident_eq_ok isEnding nameRan
  obtain ⟨type, later, typeRan, behindType⟩ := run_bind_eq_ok.mp behindName
  obtain ⟨typeTokens, rfl, levels, typed⟩ :=
    sound_optionalAfter (by decide) (sound_typeExpr room) _ _ _ _ isEnding typeRan
  obtain ⟨initTokens, closing, init, rfl, ends, ⟨more, assigned⟩, rfl⟩ :=
    (sound_optionalAfter (by decide) (sound_expr room)).closed isEnding (by decide) behindType
  refine ⟨first :: token :: (typeTokens ++ (initTokens ++ [closing])), _, ?_,
    .intro ?_ named typed assigned ends⟩
  · rw [List.cons_append, List.cons_append, List.append_assoc, List.append_assoc]
    exact stands
  · rcases word with word | word
    · rw [word]
      rfl
    · rw [word]
      rfl

/-- A condition that was read in parentheses. -/
theorem run_condition_eq_ok {value : Expr} (isEnding : ending.kind = .ending)
    (ran : (condition room).run ending tokens = .ok (value, rest)) :
    ∃ opening test closing levels, opening.kind = .leftParen ∧ DerivesExpr test value levels ∧
      closing.kind = .rightParen ∧ tokens = opening :: (test ++ closing :: rest) := by
  obtain ⟨opening, later, opens, rfl, behind⟩ := run_skip_eq_ok isEnding (by decide) ran
  obtain ⟨test, closing, value, rfl, closes, ⟨levels, tested⟩, rfl⟩ :=
    (sound_expr room).closed isEnding (by decide) behind
  exact ⟨opening, test, closing, levels, opens, tested, closes, rfl⟩

/-- An expression that was read with its semicolon. -/
theorem run_exprStmt_eq_ok {position : Position} {value : Stmt} (isEnding : ending.kind = .ending)
    (ran : (exprStmt room position).run ending tokens = .ok (value, rest)) :
    ∃ first taken closing inner levels, DerivesExpr (first :: taken) inner levels ∧
      closing.kind = .semicolon ∧ tokens = first :: taken ++ closing :: rest ∧
      value = .expr position inner := by
  obtain ⟨taken, closing, inner, rfl, ends, ⟨levels, derived⟩, rfl⟩ :=
    (sound_expr room).closed isEnding (by decide) ran
  obtain ⟨first, later, rfl, -⟩ := derived.choose_spec.starts
  exact ⟨first, later, closing, inner, levels, derived, ends, rfl, rfl⟩

/-- The first part in the header of a `for`. -/
theorem sound_forInit :
    Sound (forInit room) fun tokens value => ∃ levels, ForStart false tokens value levels := by
  intro ending tokens value rest isEnding ran
  obtain ⟨first, middle, looked, behind⟩ := run_bind_eq_ok.mp ran
  obtain ⟨rfl, rfl⟩ := run_peek_eq_ok looked
  split at behind
  · rename_i ends
    obtain ⟨later, stands⟩ := eq_cons_of_next isEnding ends (by decide)
    rw [stands, run_bind_ok (run_discard run_advance)] at behind
    obtain ⟨rfl, rfl⟩ := run_pure_eq_ok.mp behind
    exact ⟨[_], stands, 0, .empty ends⟩
  · rename_i word
    obtain ⟨declared, varRan, rfl⟩ := run_map_eq_ok.mp behind
    obtain ⟨taken, levels, rfl, derived⟩ := sound_varDecl isEnding varRan
    obtain ⟨first, later, rfl, -⟩ := derived.starts
    exact ⟨_, rfl, levels, .declare derived⟩
  · rename_i word
    obtain ⟨declared, varRan, rfl⟩ := run_map_eq_ok.mp behind
    obtain ⟨taken, levels, rfl, derived⟩ := sound_varDecl isEnding varRan
    obtain ⟨first, later, rfl, -⟩ := derived.starts
    exact ⟨_, rfl, levels, .declare derived⟩
  · obtain ⟨statement, exprRan, rfl⟩ := run_map_eq_ok.mp behind
    obtain ⟨first, taken, closing, inner, levels, derived, ends, rfl, rfl⟩ :=
      run_exprStmt_eq_ok isEnding exprRan
    exact ⟨first :: taken ++ [closing], by simp, levels, .expr derived ends⟩

/-- What spells a block, with the position of its brace. -/
def SpellsBlock (tokens : List Token) (body : Block) : Prop :=
  ∃ first rest levels, tokens = first :: rest ∧
    DerivesStmt false tokens (.block first.position body) levels

/-- What spells an `if` with all that is chained to it. -/
def SpellsBranch (tokens : List Token) (value : Stmt) : Prop :=
  ∃ levels, DerivesStmt false tokens (.branch value) levels

/-- What spells a statement. -/
def SpellsStmt (tokens : List Token) (value : Stmt) : Prop :=
  ∃ levels, DerivesStmt false tokens (.stmt value) levels

/-- No tokens spell no statement. -/
theorem not_spellsStmt_nil (value : Stmt) : ¬ SpellsStmt [] value := by
  rintro ⟨levels, derived⟩
  obtain ⟨first, rest, impossible, -⟩ := derived.begins
  cases impossible

/-- One token that is looked at and then taken. -/
theorem run_skip_peeked {kind : Kind} {second : Unit → Parser α} {value : α}
    (isEnding : ending.kind = .ending) (seen : (next ending tokens).kind = kind)
    (notEnding : kind ≠ .ending)
    (ran : (discard advance >>= second).run ending tokens = .ok (value, rest)) :
    ∃ later, tokens = next ending tokens :: later ∧
      (second ()).run ending later = .ok (value, rest) := by
  obtain ⟨later, stands⟩ := eq_cons_of_next isEnding seen notEnding
  rw [stands, run_bind_ok (run_discard run_advance)] at ran
  exact ⟨later, stands, ran⟩

section Statements

variable {block : Parser Block} {branch : Parser Stmt} (soundBlock : Sound block SpellsBlock)

include soundBlock in
/-- A `for` from its word on. -/
theorem sound_forStmt : Sound (forStmt room block) SpellsStmt := by
  intro ending tokens value rest isEnding ran
  obtain ⟨word, later, wordRan, behindWord⟩ := run_bind_eq_ok.mp ran
  obtain ⟨begins, rfl⟩ := run_expect_eq_ok isEnding (by decide) wordRan
  obtain ⟨opening, later, opens, rfl, behindParen⟩ :=
    run_skip_eq_ok isEnding (by decide) behindWord
  obtain ⟨init, later, initRan, behindInit⟩ := run_bind_eq_ok.mp behindParen
  obtain ⟨start, rfl, startLevels, starts⟩ := sound_forInit _ _ _ _ isEnding initRan
  obtain ⟨test, later, testRan, behindTest⟩ := run_bind_eq_ok.mp behindInit
  obtain ⟨testTokens, rfl, testLevels, tested⟩ :=
    sound_exprUnless _ _ _ _ _ isEnding testRan
  obtain ⟨divider, later, divides, rfl, behindDivider⟩ :=
    run_skip_eq_ok isEnding (by decide) behindTest
  obtain ⟨step, later, stepRan, behindStep⟩ := run_bind_eq_ok.mp behindDivider
  obtain ⟨stepTokens, rfl, stepLevels, stepped⟩ :=
    sound_exprUnless _ _ _ _ _ isEnding stepRan
  obtain ⟨closing, later, closes, rfl, behindClosing⟩ :=
    run_skip_eq_ok isEnding (by decide) behindStep
  obtain ⟨body, blockRan, rfl⟩ := run_map_eq_ok.mp behindClosing
  obtain ⟨taken, rfl, first, others, levels, -, derived⟩ := soundBlock _ _ _ _ isEnding blockRan
  exact ⟨word :: opening :: (start ++ (testTokens ++ divider :: (stepTokens ++ closing :: taken))),
    by simp, _, .forLoop begins opens starts tested divides stepped closes derived⟩

include soundBlock in
/-- What was read as a statement spells it, if blocks and branches are sound at its level. -/
theorem sound_stmtWith (soundBranch : Sound branch SpellsBranch) :
    Sound (stmtWith room block branch) SpellsStmt := by
  intro ending tokens value rest isEnding ran
  obtain ⟨word, middle, looked, behind⟩ := run_bind_eq_ok.mp ran
  obtain ⟨rfl, rfl⟩ := run_peek_eq_ok looked
  -- The kind of the next token selects the statement; declarations and expressions begin at it.
  split at behind
  · obtain ⟨body, blockRan, rfl⟩ := run_map_eq_ok.mp behind
    obtain ⟨taken, rfl, first, others, levels, rfl, derived⟩ :=
      soundBlock _ _ _ _ isEnding blockRan
    exact ⟨_, rfl, levels, .block derived⟩
  · rename_i begins
    obtain ⟨later, stands, behindWord⟩ := run_skip_peeked isEnding begins (by decide) behind
    obtain ⟨taken, closing, given, rfl, ends, ⟨levels, possibly⟩, rfl⟩ :=
      (sound_exprUnless .semicolon).closed isEnding (by decide) behindWord
    exact ⟨_ :: (taken ++ [closing]), by rw [List.cons_append, List.append_assoc]; exact stands,
      levels, .returns begins possibly ends⟩
  · obtain ⟨taken, rfl, levels, derived⟩ := soundBranch _ _ _ _ isEnding behind
    exact ⟨taken, rfl, levels, .branch derived⟩
  · rename_i begins
    obtain ⟨later, stands, behindWord⟩ := run_skip_peeked isEnding begins (by decide) behind
    obtain ⟨test, left, conditionRan, behindTest⟩ := run_bind_eq_ok.mp behindWord
    obtain ⟨opening, testTokens, closing, levels, opens, tested, closes, rfl⟩ :=
      run_condition_eq_ok isEnding conditionRan
    obtain ⟨body, blockRan, rfl⟩ := run_map_eq_ok.mp behindTest
    obtain ⟨taken, rfl, first, others, more, -, derived⟩ := soundBlock _ _ _ _ isEnding blockRan
    refine ⟨_ :: opening :: (testTokens ++ closing :: taken), ?_, _,
      .whileLoop begins opens tested closes derived⟩
    rw [stands]
    simp
  · exact sound_forStmt soundBlock _ _ _ _ isEnding behind
  · rename_i begins
    obtain ⟨later, stands, behindWord⟩ := run_skip_peeked isEnding begins (by decide) behind
    obtain ⟨closing, left, ends, rfl, finished⟩ := run_skip_eq_ok isEnding (by decide) behindWord
    obtain ⟨rfl, rfl⟩ := run_pure_eq_ok.mp finished
    exact ⟨[_, closing], stands, 0, .breakLoop begins ends⟩
  · rename_i begins
    obtain ⟨later, stands, behindWord⟩ := run_skip_peeked isEnding begins (by decide) behind
    obtain ⟨closing, left, ends, rfl, finished⟩ := run_skip_eq_ok isEnding (by decide) behindWord
    obtain ⟨rfl, rfl⟩ := run_pure_eq_ok.mp finished
    exact ⟨[_, closing], stands, 0, .continueLoop begins ends⟩
  · rename_i begins
    obtain ⟨later, stands, behindWord⟩ := run_skip_peeked isEnding begins (by decide) behind
    obtain ⟨body, blockRan, rfl⟩ := run_map_eq_ok.mp behindWord
    obtain ⟨taken, rfl, first, others, levels, -, derived⟩ := soundBlock _ _ _ _ isEnding blockRan
    exact ⟨_ :: taken, stands, levels, .comptime begins derived⟩
  · rename_i begins
    obtain ⟨declared, varRan, rfl⟩ := run_map_eq_ok.mp behind
    obtain ⟨taken, levels, rfl, derived⟩ := sound_varDecl isEnding varRan
    obtain ⟨first, later, rfl, -⟩ := derived.starts
    exact ⟨_, rfl, levels, .declare derived⟩
  · rename_i begins
    obtain ⟨declared, varRan, rfl⟩ := run_map_eq_ok.mp behind
    obtain ⟨taken, levels, rfl, derived⟩ := sound_varDecl isEnding varRan
    obtain ⟨first, later, rfl, -⟩ := derived.starts
    exact ⟨_, rfl, levels, .declare derived⟩
  · obtain ⟨first, taken, closing, inner, levels, derived, ends, rfl, rfl⟩ :=
      run_exprStmt_eq_ok isEnding behind
    exact ⟨first :: taken ++ [closing], by simp, levels, .expr derived ends⟩

end Statements

/-- The statements between two braces. -/
theorem sound_block_succ (soundBlock : Sound (block room) SpellsBlock)
    (soundBranch : Sound (branch room) SpellsBranch) : Sound (block (room + 1)) SpellsBlock := by
  have soundBody : Sound (manyUntil [.rightBrace] (stmtWith room (block room) (branch room)))
      fun tokens body => ∃ levels, DerivesStmt false tokens (.body body) levels := by
    refine sound_manyUntil (sound_stmtWith soundBlock soundBranch) not_spellsStmt_nil ⟨0, .empty⟩ ?_
    rintro before after value values ⟨levels, head⟩ ⟨more, tail⟩
    exact ⟨_, .cons head tail⟩
  intro ending tokens body rest isEnding ran
  unfold block at ran
  obtain ⟨opening, later, opens, rfl, behind⟩ := run_skip_eq_ok isEnding (by decide) ran
  obtain ⟨taken, closing, inner, rfl, closes, ⟨levels, derived⟩, rfl⟩ :=
    soundBody.closed isEnding (by decide) behind
  exact ⟨opening :: (taken ++ [closing]), by simp, opening, _, _, rfl,
    .braces opens derived closes⟩

/-- An `if` with all that is chained to it. Behind its `else` stands another `if` if the next token
says so, and a block otherwise. -/
theorem sound_branch_succ (soundBlock : Sound (block room) SpellsBlock)
    (soundBranch : Sound (branch room) SpellsBranch) : Sound (branch (room + 1)) SpellsBranch := by
  intro ending tokens value rest isEnding ran
  unfold branch at ran
  obtain ⟨word, later, wordRan, behindWord⟩ := run_bind_eq_ok.mp ran
  obtain ⟨begins, rfl⟩ := run_expect_eq_ok isEnding (by decide) wordRan
  obtain ⟨condition, later, conditionRan, behindTest⟩ := run_bind_eq_ok.mp behindWord
  obtain ⟨opening, test, closing, levels, opens, tested, closes, rfl⟩ :=
    run_condition_eq_ok isEnding conditionRan
  obtain ⟨body, later, blockRan, behindBlock⟩ := run_bind_eq_ok.mp behindTest
  obtain ⟨taken, rfl, first, others, more, -, derived⟩ := soundBlock _ _ _ _ isEnding blockRan
  obtain ⟨last, lastRan, rfl⟩ := run_map_eq_ok.mp behindBlock
  obtain ⟨present, later, asked, behindElse⟩ := run_bind_eq_ok.mp lastRan
  rcases run_take_eq_ok isEnding (by decide) asked with
    ⟨rfl, otherwise, divides, rfl⟩ | ⟨rfl, -, rfl⟩
  · obtain ⟨last, afterRan, rfl⟩ := run_map_eq_ok.mp behindElse
    obtain ⟨chained, later, looked, behind⟩ := run_bind_eq_ok.mp afterRan
    obtain ⟨rfl, rfl⟩ := run_nextIs_eq_ok looked
    split at behind
    · obtain ⟨other, rfl, most, chain⟩ := soundBranch _ _ _ _ isEnding behind
      exact ⟨word :: opening :: (test ++ closing :: (taken ++ otherwise :: other)), by simp, _,
        .branchChain begins opens tested closes derived divides chain⟩
    · obtain ⟨brace, later, peeked, behindBrace⟩ := run_bind_eq_ok.mp behind
      obtain ⟨rfl, rfl⟩ := run_peek_eq_ok peeked
      obtain ⟨otherBody, otherRan, rfl⟩ := run_map_eq_ok.mp behindBrace
      obtain ⟨other, rfl, firstOther, restOther, most, rfl, derivedOther⟩ :=
        soundBlock _ _ _ _ isEnding otherRan
      exact ⟨word :: opening ::
          (test ++ closing :: (taken ++ otherwise :: firstOther :: restOther)), by simp, _,
        .branchElse begins opens tested closes derived divides derivedOther⟩
  · obtain ⟨rfl, rfl⟩ := run_pure_eq_ok.mp behindElse
    exact ⟨word :: opening :: (test ++ closing :: taken), by simp, _,
      .branchOnly begins opens tested closes derived⟩

/-- Blocks and branches that were read are spelled by their tokens, whatever the room. -/
theorem sound_block_branch (room : Nat) :
    Sound (block room) SpellsBlock ∧ Sound (branch room) SpellsBranch := by
  induction room with
  | zero =>
    constructor
    · intro ending tokens body rest _ ran
      exact absurd ran fail_ne_ok
    · intro ending tokens value rest _ ran
      exact absurd ran fail_ne_ok
  | succ room inductionHypothesis =>
    obtain ⟨soundBlock, soundBranch⟩ := inductionHypothesis
    exact ⟨sound_block_succ soundBlock soundBranch, sound_branch_succ soundBlock soundBranch⟩

end SystemsLang.Parser
