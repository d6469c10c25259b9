import SystemsLang.Proofs.Parsing.Extensions
import SystemsLang.Proofs.Parsing.SoundType

/-!
# What is read as an expression spells it

The invariant of the loop of extensions is about the row of what was read so far: the tokens taken
spell it in that row, the row is tight enough for the search, and the operator that stands next, if
there is one, is no tighter than the row. So the next operator can take what was read as its left
operand. The invariant holds behind an operand, whose row no operator is tighter than, and every
extension keeps it, because the search for a right operand went on to an operator that is too loose
for it.
-/

namespace SystemsLang.Parser

open Token (Kind Failure)
open Syntax (ParseError BinaryOp UnaryOp Extension Expr Ident TypeExpr assignPower)
open Grammar

variable {ending token : Token} {tokens rest before : List Token} {least room row : Nat}
  {value left : Expr} {α : Type}

/-- A list with commas is sound for a relation with lists that is closed under putting an item in
front, if every item takes a token. -/
theorem sound_commaList {close : Kind} {item : Parser α} {Spells : List Token → α → Prop}
    {SpellsList : List Token → List α → Prop} (sound : Sound item Spells)
    (nonempty : ∀ value, ¬ Spells [] value) (nil : SpellsList [] [])
    (last : ∀ tokens value, Spells tokens value → SpellsList tokens [value])
    (cons : ∀ before comma after value values, Spells before value → comma.kind = .comma →
      SpellsList after values → SpellsList (before ++ comma :: after) (value :: values)) :
    Sound (commaList close item) SpellsList := by
  intro ending tokens values rest isEnding ran
  induction values generalizing tokens with
  | nil =>
    rcases run_manyUntil_eq_ok ran with ⟨-, rfl, -⟩ | ⟨first, later, middle, impossible, -⟩
    · exact ⟨[], rfl, nil⟩
    · cases impossible
  | cons value values inductionHypothesis =>
    rcases run_manyUntil_eq_ok ran with
      ⟨impossible, -⟩ | ⟨first, later, middle, same, -, read, goesOn⟩
    · cases impossible
    · cases same
      obtain ⟨first, stopped, itemRan, behind⟩ := run_bind_eq_ok.mp read
      obtain ⟨done, left, separated, finished⟩ := run_bind_eq_ok.mp behind
      obtain ⟨rfl, rfl⟩ := run_pure_eq_ok.mp finished
      obtain ⟨before, rfl, spells⟩ := sound _ _ _ _ isEnding itemRan
      have positive : 0 < before.length := by
        refine List.length_pos_iff.mpr ?_
        rintro rfl
        exact nonempty _ spells
      rcases run_separator_eq_ok isEnding separated with ⟨comma, separates, rfl⟩ | ⟨rfl, closes⟩
      · have more := goesOn (by simp only [List.length_append, List.length_cons]; omega)
        obtain ⟨after, rfl, spellsLater⟩ := inductionHypothesis _ more
        exact ⟨before ++ comma :: after, by simp, cons _ _ _ _ _ spells separates spellsLater⟩
      · have more := goesOn (by rw [List.length_append]; omega)
        have stops : ¬ GoesOn [close] (next ending stopped) := by simp [GoesOn, closes]
        rw [run_manyUntil_stop stops, Except.ok.injEq, Prod.mk.injEq] at more
        obtain ⟨rfl, rfl⟩ := more
        exact ⟨before, rfl, last _ _ spells⟩

/-- What was read above a power spells an expression of a row that is tight enough. -/
def SpellsExpr (least : Nat) (tokens : List Token) (value : Expr) : Prop :=
  ∃ row chain levels, Derives tokens (.expr row chain value) levels ∧ least ≤ rowPower row

/-- What is known of the parser of subexpressions: up to the power of prefix operators it is sound,
and it goes on until the search ends. -/
structure SoundAbove (sub : Nat → Parser Expr) : Prop where
  sound : ∀ least, least ≤ UnaryOp.power → Sound (sub least) (SpellsExpr least)
  stops : ∀ least ending tokens value rest, least ≤ UnaryOp.power → ending.kind = .ending →
    (sub least).run ending tokens = .ok (value, rest) → Stops least (next ending rest)

/-- What spells a whole expression. -/
def SpellsWhole (tokens : List Token) (value : Expr) : Prop :=
  ∃ levels, DerivesExpr tokens value levels

/-- No tokens spell no expression. -/
theorem not_spellsWhole_nil (value : Expr) : ¬ SpellsWhole [] value := by
  rintro ⟨levels, chain, derived⟩
  obtain ⟨first, later, impossible, -⟩ := derived.starts
  cases impossible

/-- A search for any operator reads whole expressions. -/
theorem SoundAbove.whole {sub : Nat → Parser Expr} (above : SoundAbove sub) :
    Sound (sub 0) SpellsWhole := by
  intro ending tokens value rest isEnding ran
  obtain ⟨taken, stands, row, chain, levels, derived, -⟩ :=
    above.sound 0 (Nat.zero_le _) _ _ _ _ isEnding ran
  exact ⟨taken, stands, levels, chain, derived.loosenTo (Nat.zero_le row)⟩

/-- The length in an array literal, or the underscore in its place. -/
theorem run_openLength_eq_ok {count : Option UInt64} (isEnding : ending.kind = .ending)
    (ran : openLength.run ending tokens = .ok (count, rest)) :
    ∃ length, OpenLength length count ∧ tokens = length :: rest := by
  obtain ⟨length, middle, looked, behind⟩ := run_bind_eq_ok.mp ran
  obtain ⟨rfl, rfl⟩ := run_peek_eq_ok looked
  split at behind
  · rename_i underscore
    obtain ⟨_, left, skipped, finished⟩ := run_bind_eq_ok.mp behind
    obtain ⟨rfl, rfl⟩ := run_pure_eq_ok.mp finished
    obtain ⟨token, advanced⟩ := run_discard_eq_ok.mp skipped
    obtain ⟨later, stands⟩ := eq_cons_of_next isEnding underscore.1 (by decide)
    rw [stands, run_advance, Except.ok.injEq, Prod.mk.injEq] at advanced
    obtain ⟨-, rfl⟩ := advanced
    exact ⟨_, .open underscore.1 underscore.2, stands⟩
  · obtain ⟨length, lengthRan, rfl⟩ := run_map_eq_ok.mp behind
    obtain ⟨token, counts, rfl⟩ := run_arrayLength_eq_ok isEnding lengthRan
    exact ⟨token, .given counts, rfl⟩

/-- What was read as an operand spells it in one of the two tightest rows, and the operator that
stands next, if there is one, takes it as its left operand. -/
def SpellsOperand (ending : Token) (tokens : List Token) (value : Expr) (rest : List Token) :
    Prop :=
  ∃ taken row chain levels, tokens = taken ++ rest ∧ Derives taken (.expr row chain value) levels ∧
    prefixRow ≤ row ∧ Looser row (next ending rest)

/-- An operand in the row of operands is one whatever stands behind it. -/
theorem SpellsOperand.intro {taken : List Token} {levels : Nat}
    (stands : tokens = taken ++ rest) (derived : Derives taken (.expr postfixRow 0 value) levels) :
    SpellsOperand ending tokens value rest :=
  ⟨taken, postfixRow, 0, levels, stands, derived, Nat.le_succ 7, looser_postfix⟩

/-- A prefix operator is spelled by one token, and that token spells no other. -/
theorem prefixKind_of_ofKind? {kind : Kind} {operator : UnaryOp}
    (found : UnaryOp.ofKind? kind = some operator) : kind = prefixKind operator := by
  unfold UnaryOp.ofKind? at found
  split at found <;> cases found <;> rfl

/-- Behind the operand of a prefix operator no operator stands that the operation cannot take as its
left operand. -/
theorem looser_of_stops_prefix (stops : Stops UnaryOp.power token) : Looser prefixRow token := by
  intro form begun
  have looser := stops form begun
  rw [leftPower_eq, prefixPower_eq, ← Nat.not_le, rowPower_le_iff] at looser
  exact ⟨Nat.succ_pos 6, Nat.le_of_not_le looser⟩

section Operands

variable {sub : Nat → Parser Expr} {type : Parser TypeExpr} (above : SoundAbove sub)
include above

/-- Arguments of a call and elements of an array literal. -/
theorem sound_arguments (close : Kind) :
    Sound (commaList close (sub 0)) fun tokens values =>
      ∃ levels, Derives tokens (.arguments values) levels := by
  refine sound_commaList above.whole not_spellsWhole_nil ⟨0, .noArgument⟩ ?_ ?_
  · rintro tokens value ⟨levels, chain, derived⟩
    exact ⟨levels, .lastArgument derived⟩
  · rintro before comma after value values ⟨levels, chain, derived⟩ separates ⟨more, later⟩
    exact ⟨_, .argument derived separates later⟩

/-- What spells one field of a struct literal. -/
def SpellsInit (tokens : List Token) (init : Ident × Expr) : Prop :=
  ∃ dot name equals taken, dot.kind = .dot ∧ name.kind = .identifier ∧ equals.kind = .assign ∧
    SpellsWhole taken init.2 ∧ tokens = dot :: name :: equals :: taken ∧
    init.1 = ⟨name.text, name.position⟩

/-- What is read as a field of a struct literal spells it. -/
theorem sound_fieldInit : Sound (fieldInit (sub 0)) SpellsInit := by
  intro ending tokens init rest isEnding ran
  obtain ⟨dot, later, dotted, rfl, behindDot⟩ := run_skip_eq_ok isEnding (by decide) ran
  obtain ⟨name, later, identRan, behindName⟩ := run_bind_eq_ok.mp behindDot
  obtain ⟨token, named, rfl, rfl⟩ := run_ident_eq_ok isEnding identRan
  obtain ⟨equals, later, assigned, rfl, behindEquals⟩ :=
    run_skip_eq_ok isEnding (by decide) behindName
  obtain ⟨value, valueRan, rfl⟩ := run_map_eq_ok.mp behindEquals
  obtain ⟨taken, rfl, spells⟩ := above.whole _ _ _ _ isEnding valueRan
  exact ⟨dot :: token :: equals :: taken, rfl, dot, token, equals, taken, dotted, named, assigned,
    spells, rfl, rfl⟩

/-- Fields of a struct literal. -/
theorem sound_inits :
    Sound (commaList .rightBrace (fieldInit (sub 0))) fun tokens values =>
      ∃ levels, Derives tokens (.inits values) levels := by
  refine sound_commaList (sound_fieldInit above) ?_ ⟨0, .noInit⟩ ?_ ?_
  · rintro _ ⟨_, _, _, _, _, _, _, _, impossible, -⟩
    cases impossible
  · rintro _ ⟨_, value⟩ ⟨dot, name, equals, taken, dotted, named, assigned,
      ⟨levels, chain, derived⟩, rfl, rfl⟩
    exact ⟨levels, .lastInit dotted named assigned derived⟩
  · rintro _ comma after ⟨_, value⟩ values ⟨dot, name, equals, taken, dotted, named, assigned,
      ⟨levels, chain, derived⟩, rfl, rfl⟩ separates ⟨more, later⟩
    exact ⟨_, .init dotted named assigned derived separates later⟩

/-- The braces of a struct literal. -/
theorem run_structLit_eq_ok {name : Ident} (isEnding : ending.kind = .ending)
    (ran : (structLit (sub 0) name).run ending tokens = .ok (value, rest)) :
    ∃ opening inner closing fields levels, opening.kind = .leftBrace ∧
      Derives inner (.inits fields) levels ∧ closing.kind = .rightBrace ∧
      tokens = opening :: (inner ++ closing :: rest) ∧
      value = .structLit name.position name fields := by
  obtain ⟨opening, later, opens, rfl, behind⟩ := run_skip_eq_ok isEnding (by decide) ran
  obtain ⟨inner, closing, fields, rfl, closes, ⟨levels, derived⟩, rfl⟩ :=
    (sound_inits above).closed isEnding (by decide) behind
  exact ⟨opening, inner, closing, fields, levels, opens, derived, closes, rfl, rfl⟩

/-- An array literal behind its opening bracket. -/
theorem run_arrayLit_eq_ok {position : Position} (typed : Sound type SpellsType)
    (isEnding : ending.kind = .ending)
    (ran : (arrayLit (sub 0) type position).run ending tokens = .ok (value, rest)) :
    ∃ length behind typeTokens opening inner closing count elementType elements typeLevels levels,
      OpenLength length count ∧ behind.kind = .rightBracket ∧
      DerivesType typeTokens elementType typeLevels ∧ opening.kind = .leftBrace ∧
      Derives inner (.arguments elements) levels ∧ closing.kind = .rightBrace ∧
      tokens = length :: behind :: (typeTokens ++ opening :: (inner ++ closing :: rest)) ∧
      value = .arrayLit position count elementType elements := by
  obtain ⟨count, later, lengthRan, behindLength⟩ := run_bind_eq_ok.mp ran
  obtain ⟨length, counts, rfl⟩ := run_openLength_eq_ok isEnding lengthRan
  obtain ⟨bracket, later, ends, rfl, behindBracket⟩ :=
    run_skip_eq_ok isEnding (by decide) behindLength
  obtain ⟨elementType, later, typeRan, behindType⟩ := run_bind_eq_ok.mp behindBracket
  obtain ⟨typeTokens, rfl, typeLevels, derivedType⟩ := typed _ _ _ _ isEnding typeRan
  obtain ⟨opening, later, opens, rfl, behindBrace⟩ :=
    run_skip_eq_ok isEnding (by decide) behindType
  obtain ⟨inner, closing, elements, rfl, closes, ⟨levels, derived⟩, rfl⟩ :=
    (sound_arguments above .rightBrace).closed isEnding (by decide) behindBrace
  exact ⟨length, bracket, typeTokens, opening, inner, closing, count, elementType, elements,
    typeLevels, levels, counts, ends, derivedType, opens, derived, closes, rfl, rfl⟩

/-- A prefix operator with its operand. -/
theorem spells_before {operator : UnaryOp} {operand : Expr} (isEnding : ending.kind = .ending)
    (spelled : token.kind = prefixKind operator)
    (ran : (sub UnaryOp.power).run ending tokens = .ok (operand, rest)) :
    SpellsOperand ending (token :: tokens) (.unary token.position operator operand) rest := by
  obtain ⟨taken, rfl, row, chain, levels, derived, binds⟩ :=
    above.sound _ (Nat.le_refl _) _ _ _ _ isEnding ran
  have stops := above.stops _ _ _ _ _ (Nat.le_refl _) isEnding ran
  have tight : prefixRow ≤ row := rowPower_le_iff.mp binds
  exact ⟨token :: taken, prefixRow, 0, levels + 1, rfl, .before spelled (derived.loosenTo tight),
    Nat.le_refl _, looser_of_stops_prefix stops⟩

/-- What was read as an operand is one. -/
theorem spells_operand (typed : Sound type SpellsType) (isEnding : ending.kind = .ending)
    (ran : (operand sub type).run ending tokens = .ok (value, rest)) :
    SpellsOperand ending tokens value rest := by
  obtain ⟨token, middle, advanced, behind⟩ := run_bind_eq_ok.mp ran
  split at behind
  · rename_i named
    -- Whether a literal follows is found out by looking ahead, which takes no token.
    obtain ⟨isLiteral, later, looked, within⟩ := run_bind_eq_ok.mp behind
    have same : later = middle := by
      unfold opensStructLit at looked
      rw [run_bind_ok run_peek, run_bind_ok (run_peekAt 1), run_pure, Except.ok.injEq,
        Prod.mk.injEq] at looked
      exact looked.2.symm
    subst same
    have stands := run_advance_eq_ok isEnding advanced named (by decide)
    split at within
    · obtain ⟨opening, inner, closing, fields, levels, opens, derived, closes, rfl, rfl⟩ :=
        run_structLit_eq_ok above isEnding within
      exact .intro (by rw [stands]; simp) (.structLit named opens derived closes)
    · obtain ⟨rfl, rfl⟩ := run_pure_eq_ok.mp within
      exact .intro stands (.ident named)
  · rename_i kind
    obtain ⟨rfl, rfl⟩ := run_pure_eq_ok.mp behind
    exact .intro (run_advance_eq_ok isEnding advanced kind (by decide)) (.number kind)
  · rename_i kind
    obtain ⟨rfl, rfl⟩ := run_pure_eq_ok.mp behind
    exact .intro (run_advance_eq_ok isEnding advanced kind (by decide)) (.string kind)
  · rename_i kind
    obtain ⟨rfl, rfl⟩ := run_pure_eq_ok.mp behind
    exact .intro (run_advance_eq_ok isEnding advanced kind (by decide)) (.trueWord kind)
  · rename_i kind
    obtain ⟨rfl, rfl⟩ := run_pure_eq_ok.mp behind
    exact .intro (run_advance_eq_ok isEnding advanced kind (by decide)) (.falseWord kind)
  · rename_i kind
    obtain ⟨rfl, rfl⟩ := run_pure_eq_ok.mp behind
    exact .intro (run_advance_eq_ok isEnding advanced kind (by decide)) (.null kind)
  · rename_i kind
    obtain ⟨rfl, rfl⟩ := run_pure_eq_ok.mp behind
    exact .intro (run_advance_eq_ok isEnding advanced kind (by decide)) (.undefined kind)
  · rename_i opens
    obtain ⟨inner, closing, value, rfl, closes, ⟨levels, chain, derived⟩, rfl⟩ :=
      above.whole.closed isEnding (by decide) behind
    refine .intro ?_ (.group opens derived closes)
    rw [run_advance_eq_ok isEnding advanced opens (by decide)]
    simp
  · rename_i brackets
    obtain ⟨length, bracket, typeTokens, opening, inner, closing, count, elementType, elements,
      typeLevels, levels, counts, ends, derivedType, opens, derived, closes, rfl, rfl⟩ :=
      run_arrayLit_eq_ok above typed isEnding behind
    refine .intro ?_ (.arrayLit brackets counts ends derivedType opens derived closes)
    rw [run_advance_eq_ok isEnding advanced brackets (by decide)]
    simp
  · split at behind
    · rename_i operator found
      obtain ⟨operand, inner, rfl⟩ := run_map_eq_ok.mp behind
      have spelled := prefixKind_of_ofKind? found
      have stands := run_advance_eq_ok isEnding advanced spelled (by cases operator <;> decide)
      rw [stands]
      exact spells_before above isEnding spelled inner
    · exact absurd behind failAt_ne_ok

end Operands

/-- What was read so far and what an extension added to it spell the extended expression in the row
of the extension, and the operator that stands next, if there is one, takes that as its left
operand. -/
def SpellsExtended (ending : Token) (before : List Token) (row : Nat) (tokens : List Token)
    (value : Expr) (rest : List Token) : Prop :=
  ∃ taken chain levels, tokens = taken ++ rest ∧
    Derives (before ++ taken) (.expr row chain value) levels ∧ Looser row (next ending rest)

section Extensions

variable {sub : Nat → Parser Expr} {first mark : Token} {chain levels : Nat}

/-- Behind a dot one token decides what the operator is. -/
theorem spells_afterDot (isEnding : ending.kind = .ending) (dotted : mark.kind = .dot)
    (derived : Derives (first :: before) (.expr postfixRow chain left) levels)
    (ran : (afterDot left).run ending tokens = .ok (value, rest)) :
    SpellsExtended ending (first :: before) postfixRow (mark :: tokens) value rest := by
  obtain ⟨token, middle, advanced, behind⟩ := run_bind_eq_ok.mp ran
  rw [derived.position_eq] at behind
  split at behind
  · rename_i named
    obtain ⟨rfl, rfl⟩ := run_pure_eq_ok.mp behind
    rw [run_advance_eq_ok isEnding advanced named (by decide)]
    exact ⟨[mark, token], _, _, rfl, .member derived dotted named, looser_postfix⟩
  · rename_i starred
    obtain ⟨rfl, rfl⟩ := run_pure_eq_ok.mp behind
    rw [run_advance_eq_ok isEnding advanced starred (by decide)]
    exact ⟨[mark, token], _, _, rfl, .deref derived dotted starred, looser_postfix⟩
  · rename_i marked
    obtain ⟨rfl, rfl⟩ := run_pure_eq_ok.mp behind
    rw [run_advance_eq_ok isEnding advanced marked (by decide)]
    exact ⟨[mark, token], _, _, rfl, .unwrap derived dotted marked, looser_postfix⟩
  · exact absurd behind failAt_ne_ok

variable (above : SoundAbove sub)
include above

/-- A binary operator with its right operand. The search for that operand ended before an operator
that is too loose for it, and so is none of a tighter row. -/
theorem spells_binary {operator : BinaryOp} {right : Expr} (isEnding : ending.kind = .ending)
    (spelled : mark.kind = operator.kind)
    (derived : Derives (first :: before) (.expr (operatorRow operator) chain left) levels)
    (ran : (sub operator.power.right).run ending tokens = .ok (right, rest)) :
    SpellsExtended ending (first :: before) (operatorRow operator) (mark :: tokens)
      (.binary first.position operator left right) rest := by
  have within : operator.power.right ≤ UnaryOp.power := by cases operator <;> decide
  obtain ⟨taken, rfl, rightRow, rightChain, more, rightDerived, binds⟩ :=
    above.sound _ within _ _ _ _ isEnding ran
  have stops := above.stops _ _ _ _ _ within isEnding ran
  have tight : operatorRow operator + 1 ≤ rightRow := by
    rw [rightPower_eq] at binds
    refine Nat.lt_of_not_le fun loose => ?_
    have le := rowPower_le_iff.mpr loose
    omega
  refine ⟨mark :: taken, _, _, rfl, .binary derived spelled (rightDerived.loosenTo tight), ?_⟩
  intro form begun
  have looser := stops form begun
  rw [leftPower_eq, rightPower_eq] at looser
  exact ⟨(operatorRow_bounds operator).1, rowPower_le_iff.mp (Nat.le_of_lt_succ looser)⟩

/-- An assignment with the value on its right. No operator stands behind it, since the search for
the value would have gone on to any. -/
theorem spells_assign {operator : Option BinaryOp} {right : Expr}
    (isEnding : ending.kind = .ending) (spelled : some mark.kind = assignKind operator)
    (place : left.isPlace = true)
    (derived : Derives (first :: before) (.expr row chain left) levels)
    (ran : (sub assignPower.right).run ending tokens = .ok (right, rest)) :
    SpellsExtended ending (first :: before) 0 (mark :: tokens)
      (.assign first.position operator left right) rest := by
  have within : assignPower.right ≤ UnaryOp.power := by decide
  obtain ⟨taken, rfl, rightRow, rightChain, more, rightDerived, -⟩ :=
    above.sound _ within _ _ _ _ isEnding ran
  have stops := above.stops _ _ _ _ _ within isEnding ran
  refine ⟨mark :: taken, _, _, rfl,
    .assign (derived.place_postfix place) place spelled (rightDerived.loosenTo (Nat.zero_le _)), ?_⟩
  intro form begun
  have looser := stops form begun
  have least : rowPower 0 ≤ rowPower (extensionRow form) := rowPower_le_iff.mpr (Nat.zero_le _)
  rw [leftPower_eq] at looser
  have assign : assignPower.right < rowPower 0 := by decide
  omega

/-- What was read so far is extended as the grammar says. -/
theorem spells_extend {form : Extension} (isEnding : ending.kind = .ending)
    (begun : Extension.ofKind? (next ending tokens).kind = some form)
    (derived : Derives before (.expr row chain left) levels) (tight : extensionRow form ≤ row)
    (ran : (extend sub form left).run ending tokens = .ok (value, rest)) :
    SpellsExtended ending before (extensionRow form) tokens value rest := by
  obtain ⟨first, before, rfl, -⟩ := derived.starts
  obtain ⟨mark, middle, advanced, behind⟩ := run_bind_eq_ok.mp ran
  have spelled := spelled_of_ofKind? begun
  have notEnding : (next ending tokens).kind ≠ .ending := by
    intro same
    rw [same] at begun
    cases begun
  obtain ⟨later, stands⟩ := eq_cons_of_next isEnding rfl notEnding
  rw [stands, run_advance, Except.ok.injEq, Prod.mk.injEq] at advanced
  obtain ⟨rfl, rfl⟩ := advanced
  rw [stands]
  cases form with
  | binary operator =>
    obtain ⟨right, rightRan, rfl⟩ := run_map_eq_ok.mp behind
    rw [derived.position_eq]
    exact spells_binary above isEnding spelled (derived.loosenTo tight) rightRan
  | assign operator =>
    simp only at behind
    split at behind
    · rename_i place
      obtain ⟨right, rightRan, rfl⟩ := run_map_eq_ok.mp behind
      rw [derived.position_eq]
      exact spells_assign above isEnding spelled place derived rightRan
    · exact absurd behind failAt_ne_ok
  | dot => exact spells_afterDot isEnding spelled (derived.loosenTo tight) behind
  | call =>
    obtain ⟨inner, closing, arguments, rfl, closes, ⟨more, listed⟩, rfl⟩ :=
      (sound_arguments above .rightParen).closed isEnding (by decide) behind
    rw [derived.position_eq]
    exact ⟨_ :: (inner ++ [closing]), _, _, by simp,
      .call (derived.loosenTo tight) spelled listed closes, looser_postfix⟩
  | index =>
    obtain ⟨inner, closing, subscript, rfl, closes, ⟨more, innerChain, subscripted⟩, rfl⟩ :=
      above.whole.closed isEnding (by decide) behind
    rw [derived.position_eq]
    exact ⟨_ :: (inner ++ [closing]), _, _, by simp,
      .index (derived.loosenTo tight) spelled subscripted closes, looser_postfix⟩

end Extensions

/-- What is known of the loop of extensions with some room: it goes on from what was read so far to
an expression that is spelled in a row tight enough, and until the search ends. -/
def SoundLoop (room : Nat) : Prop :=
  ∀ {least ending before row chain left levels tokens value rest}, ending.kind = .ending →
    Derives before (.expr row chain left) levels → least ≤ rowPower row →
    Looser row (next ending tokens) →
    (extensions room least left).run ending tokens = .ok (value, rest) →
      (∃ taken, tokens = taken ++ rest ∧ SpellsExpr least (before ++ taken) value) ∧
        Stops least (next ending rest)

/-- If the search does not end at a token, the token begins an extension that binds tightly
enough. -/
theorem binds_of_not_stops (goesOn : ¬ Stops least token) :
    ∃ form, Extension.ofKind? token.kind = some form ∧ least ≤ form.leftPower := by
  cases begun : Extension.ofKind? token.kind with
  | none =>
    refine absurd ?_ goesOn
    intro form impossible
    rw [begun] at impossible
    cases impossible
  | some form =>
    refine ⟨form, rfl, Nat.le_of_not_lt fun looser => goesOn ?_⟩
    intro other same
    rw [begun, Option.some.injEq] at same
    rwa [← same]

/-- Where the search ends, what was read so far is the expression. -/
theorem sound_stop {chain levels : Nat} (stops : Stops least (next ending tokens))
    (derived : Derives before (.expr row chain left) levels) (binds : least ≤ rowPower row)
    (ran : (extensions room least left).run ending tokens = .ok (value, rest)) :
    (∃ taken, tokens = taken ++ rest ∧ SpellsExpr least (before ++ taken) value) ∧
      Stops least (next ending rest) := by
  rw [run_extensions_stop stops, Except.ok.injEq, Prod.mk.injEq] at ran
  obtain ⟨rfl, rfl⟩ := ran
  refine ⟨⟨[], rfl, row, chain, levels, ?_, binds⟩, stops⟩
  rwa [List.append_nil]

/-- One round of the loop keeps the invariant. -/
theorem SoundLoop.succ (above : SoundAbove (expr room)) (loop : SoundLoop room) :
    SoundLoop (room + 1) := by
  intro least ending before row chain left levels tokens value rest isEnding derived binds looser
    ran
  by_cases stops : Stops least (next ending tokens)
  · exact sound_stop stops derived binds ran
  · obtain ⟨form, begun, binding⟩ := binds_of_not_stops stops
    rw [run_extensions_succ begun binding] at ran
    obtain ⟨extended, middle, extendRan, behind⟩ := run_bind_eq_ok.mp ran
    obtain ⟨taken, chain, levels, rfl, extendedDerived, extendedLooser⟩ :=
      spells_extend above isEnding begun derived (looser form begun).2 extendRan
    rw [leftPower_eq] at binding
    obtain ⟨⟨later, rfl, spells⟩, ends⟩ :=
      loop isEnding extendedDerived binding extendedLooser behind
    refine ⟨⟨taken ++ later, by rw [List.append_assoc], ?_⟩, ends⟩
    rwa [← List.append_assoc]

/-- An expression is its operand and what the loop makes of it. -/
theorem SoundAbove.succ (above : SoundAbove (expr room)) (loop : SoundLoop room) :
    SoundAbove (expr (room + 1)) := by
  have whole : ∀ least ending tokens value rest, least ≤ UnaryOp.power → ending.kind = .ending →
      (expr (room + 1) least).run ending tokens = .ok (value, rest) →
        (∃ taken, tokens = taken ++ rest ∧ SpellsExpr least taken value) ∧
          Stops least (next ending rest) := by
    intro least ending tokens value rest within isEnding ran
    unfold expr at ran
    obtain ⟨first, middle, operandRan, behind⟩ := run_bind_eq_ok.mp ran
    obtain ⟨taken, row, chain, levels, rfl, derived, tight, looser⟩ :=
      spells_operand above (sound_typeExpr room) isEnding operandRan
    have binds : least ≤ rowPower row :=
      Nat.le_trans (Nat.le_trans within (Nat.le_of_eq prefixPower_eq)) (rowPower_le_iff.mpr tight)
    obtain ⟨⟨later, rfl, spells⟩, ends⟩ := loop isEnding derived binds looser behind
    exact ⟨⟨taken ++ later, by rw [List.append_assoc], spells⟩, ends⟩
  constructor
  · intro least within ending tokens value rest isEnding ran
    exact (whole least ending tokens value rest within isEnding ran).1
  · intro least ending tokens value rest within isEnding ran
    exact (whole least ending tokens value rest within isEnding ran).2

/-- The parser of expressions and its loop are sound, whatever the room. -/
theorem sound_expr_loop (room : Nat) : SoundAbove (expr room) ∧ SoundLoop room := by
  induction room with
  | zero =>
    refine ⟨⟨?_, ?_⟩, ?_⟩
    · intro least _ ending tokens value rest _ ran
      exact absurd ran fail_ne_ok
    · intro least ending tokens value rest _ _ ran
      exact absurd ran fail_ne_ok
    · intro least ending before row chain left levels tokens value rest _ derived binds _ ran
      by_cases stops : Stops least (next ending tokens)
      · exact sound_stop stops derived binds ran
      · obtain ⟨form, begun, binding⟩ := binds_of_not_stops stops
        rw [run_extensions_zero begun binding] at ran
        exact absurd ran fail_ne_ok
  | succ room inductionHypothesis =>
    obtain ⟨above, loop⟩ := inductionHypothesis
    exact ⟨above.succ loop, loop.succ above⟩

/-- The tokens that were read as a whole expression spell it. -/
theorem sound_expr (room : Nat) : Sound (expr room 0) SpellsWhole :=
  (sound_expr_loop room).1.whole

end SystemsLang.Parser
