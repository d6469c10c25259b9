import SystemsLang.Parser.Program
import SystemsLang.Proofs.Parsing.Extensions
import SystemsLang.Proofs.Parsing.Settled

/-!
# Room for nesting

With less room for nesting a parser gives what it gives with more, or it reports that nesting is too
deep; nothing else can change (`runAt_shallower`).

`Tighter` says this of two parsers, the first of which has the tighter limit. It is closed under the
ways parsers are put together, and a part that uses no room needs no argument. Room runs out in two
places. Where a construct begins, the limit is checked before the token is looked at; so if that
token records a lexical failure, it is this failure that is reported, and the construct has to
report it too when it is let in (`Refuses`). Where an operator extends an operand, the next token is
that operator and records no failure.
-/

namespace SystemsLang.Parser

open Token (Kind Failure)
open Syntax

variable {α β : Type} {ending : Token} {tokens : List Token} {less more : Nat}

/-- Two outcomes, the first of which is the second or says that nesting is too deep. -/
inductive Limited : Except ParseError (α × List Token) → Except ParseError (α × List Token) → Prop
  | same {outcome : Except ParseError (α × List Token)} : Limited outcome outcome
  | tooDeep {token : Token} {outcome : Except ParseError (α × List Token)} :
    Limited (.error ⟨.nestingTooDeep, token⟩) outcome

/-- On all tokens the first parser gives what the second gives, or reports that nesting is too
deep. -/
def Tighter (first second : Parser α) : Prop :=
  ∀ ending tokens, Limited (first.run ending tokens) (second.run ending tokens)

section Sequences

variable {first second first' second' : Parser α} {next next' : α → Parser β}

/-- A parser that uses no room gives what it gives. -/
theorem Tighter.refl (parser : Parser α) : Tighter parser parser :=
  fun _ _ => .same

/-- In a sequence the first report that nesting is too deep ends both. -/
theorem Tighter.bind (tighter : Tighter first second)
    (goesOn : ∀ value, Tighter (next value) (next' value)) :
    Tighter (first >>= next) (second >>= next') := by
  intro ending tokens
  have limited := tighter ending tokens
  rw [run_bind, run_bind]
  generalize first.run ending tokens = outcome, second.run ending tokens = outcome' at limited ⊢
  cases limited with
  | tooDeep => exact .tooDeep
  | same =>
    cases outcome with
    | error error => exact .same
    | ok result => exact goesOn result.1 ending result.2

/-- A step that uses no room in front of parsers of which one has a tighter limit. -/
theorem Tighter.step {parser : Parser α} (goesOn : ∀ value, Tighter (next value) (next' value)) :
    Tighter (parser >>= next) (parser >>= next') :=
  (Tighter.refl parser).bind goesOn

/-- A step with a limit, in front of what uses no room. -/
theorem Tighter.map (tighter : Tighter first second) :
    Tighter (first >>= next) (second >>= next) :=
  tighter.bind fun value => .refl (next value)

/-- A choice that does not depend on the room. -/
theorem Tighter.ite {condition : Prop} [Decidable condition] (yes : Tighter first first')
    (no : Tighter second second') :
    Tighter (if condition then first else second) (if condition then first' else second') := by
  by_cases holds : condition
  · rw [if_pos holds, if_pos holds]
    exact yes
  · rw [if_neg holds, if_neg holds]
    exact no

/-- A repetition with a tighter limit on its items.

Proof: by induction on the number of tokens. While the items of both agree, so do the rounds; the
first item that nests too deep ends the one repetition with that report. -/
theorem Tighter.manyUntil (closing : List Kind) (tighter : Tighter first second) :
    Tighter (manyUntil closing first) (manyUntil closing second) := by
  intro ending tokens
  induction size : tokens.length using Nat.strongRecOn generalizing tokens with
  | _ size inductionHypothesis =>
  by_cases goesOn : GoesOn closing (Parser.next ending tokens)
  · have limited := tighter ending tokens
    rw [run_manyUntil goesOn, run_manyUntil goesOn]
    generalize first.run ending tokens = outcome, second.run ending tokens = outcome' at limited ⊢
    cases limited with
    | tooDeep => exact .tooDeep
    | same =>
      cases outcome with
      | error error => exact .same
      | ok result =>
        obtain ⟨value, rest⟩ := result
        by_cases shorter : rest.length < tokens.length
        · have later := inductionHypothesis rest.length (size ▸ shorter) rest rfl
          simp only [shorter, if_true]
          generalize (Parser.manyUntil closing first).run ending rest = outcome,
            (Parser.manyUntil closing second).run ending rest = outcome' at later ⊢
          cases later with
          | tooDeep => exact .tooDeep
          | same => exact .same
        · simp only [shorter, if_false]
          exact .same
  · rw [run_manyUntil_stop goesOn, run_manyUntil_stop goesOn]
    exact .same

/-- A list with a tighter limit on its items. -/
theorem Tighter.commaList (closing : Kind) (tighter : Tighter first second) :
    Tighter (commaList closing first) (commaList closing second) :=
  .manyUntil [closing] tighter.map

/-- A part that may be left out, with a tighter limit if it is not. -/
theorem Tighter.optionalAfter (kind : Kind) (tighter : Tighter first second) :
    Tighter (optionalAfter kind first) (optionalAfter kind second) :=
  .step fun _ => .ite tighter.map (.refl _)

end Sequences

/-- Where a token comes next that records a lexical failure, the parser reports that failure. -/
def Refuses (parser : Parser α) : Prop :=
  ∀ ending tokens failure, Failure.of? (next ending tokens) = some failure →
    parser.run ending tokens = .error ⟨.lexical failure, next ending tokens⟩

/-- A parser that is refused for want of room differs from one that is let in only where this is
what is reported. -/
theorem Refuses.tighter {parser : Parser α} (refuses : Refuses parser) :
    Tighter (fail .nestingTooDeep) parser := by
  intro ending tokens
  rw [run_fail, ParseError.foundAt]
  cases found : Failure.of? (next ending tokens) with
  | none => exact .tooDeep
  | some failure =>
    rw [refuses ending tokens failure found]
    exact .same

/-- A failure is recorded by tokens of two kinds. -/
theorem kind_of_failure {token : Token} {failure : Failure}
    (found : Failure.of? token = some failure) :
    token.kind = .unexpectedChar ∨ token.kind = .unterminatedString := by
  unfold Failure.of? at found
  split at found
  · rename_i kind
    exact .inr kind
  · rename_i kind
    exact .inl kind
  · cases found

/-- A parser that fails reports the lexical failure of the next token instead of its own. -/
theorem refuses_fail (cause : ParseError.Cause) : Refuses (fail cause : Parser α) := by
  intro ending tokens failure found
  rw [run_fail, ParseError.foundAt, found]

/-- What refuses failures does so in front of anything. -/
theorem Refuses.bind {parser : Parser α} {next : α → Parser β} (refuses : Refuses parser) :
    Refuses (parser >>= next) :=
  fun ending tokens failure found => run_bind_error (refuses ending tokens failure found)

/-- An expected token is never one that records a failure. -/
theorem refuses_expect {kind : Kind} (sound : kind.isFailure = false) : Refuses (expect kind) := by
  intro ending tokens failure found
  have other : (next ending tokens).kind ≠ kind := by
    rintro rfl
    rcases kind_of_failure found with failing | failing
    · rw [failing] at sound
      cases sound
    · rw [failing] at sound
      cases sound
  rw [run_expect_other other, ParseError.foundAt, found]

/-- A parser that takes the next token unseen refuses failures if what follows fails at them. -/
theorem refuses_advance {goesOn : Token → Parser α}
    (fails : ∀ token : Token, token.kind = .unexpectedChar ∨ token.kind = .unterminatedString →
      ∃ cause, goesOn token = failAt token cause) : Refuses (advance >>= goesOn) := by
  intro ending tokens failure found
  obtain ⟨cause, failed⟩ := fails (next ending tokens) (kind_of_failure found)
  rw [run_bind_ok run_advance_next, failed, run_failAt, ParseError.foundAt, found]

/-- No type begins with a token that records a failure. -/
theorem refuses_typeExpr (room : Nat) : Refuses (typeExpr room) := by
  cases room with
  | zero => exact refuses_fail _
  | succ room =>
    apply refuses_advance
    rintro token (kind | kind)
    · exact ⟨.expectedType, by rw [kind]⟩
    · exact ⟨.expectedType, by rw [kind]⟩

/-- By induction on the smaller room, which every type inside another leaves one less of. -/
theorem tighter_typeExpr (le : less ≤ more) : Tighter (typeExpr less) (typeExpr more) := by
  induction less generalizing more with
  | zero => exact (refuses_typeExpr more).tighter
  | succ less inductionHypothesis =>
    cases more with
    | zero => exact absurd le (Nat.not_succ_le_zero less)
    | succ more =>
      have inner := inductionHypothesis (Nat.le_of_succ_le_succ le)
      apply Tighter.step
      intro token
      split
      · exact .refl _
      · exact .refl _
      · exact .step fun _ => inner.map
      · apply Tighter.step
        intro closes
        apply Tighter.ite
        · exact .step fun _ => inner.map
        · exact .step fun _ => .step fun _ => inner.map
      · exact inner.map
      · exact inner.map
      · exact .refl _

section Operands

variable {value value' : Parser Expr} {sub sub' : Nat → Parser Expr} {type type' : Parser TypeExpr}

/-- A struct literal with a tighter limit on its values. -/
theorem tighter_structLit (values : Tighter value value') (name : Ident) :
    Tighter (structLit value name) (structLit value' name) := by
  have field : Tighter (fieldInit value) (fieldInit value') :=
    .step fun _ => .step fun _ => .step fun _ => values.map
  apply Tighter.step
  intro _
  exact (field.commaList _).map

/-- An array literal with a tighter limit on its type and its elements. -/
theorem tighter_arrayLit (values : Tighter value value') (types : Tighter type type')
    (position : Position) :
    Tighter (arrayLit value type position) (arrayLit value' type' position) := by
  apply Tighter.step
  intro length
  apply Tighter.step
  intro _
  apply types.bind
  intro elementType
  apply Tighter.step
  intro _
  exact (values.commaList _).map

/-- An operand with a tighter limit on the parts inside of it. -/
theorem tighter_operand (subs : ∀ least, Tighter (sub least) (sub' least))
    (types : Tighter type type') : Tighter (operand sub type) (operand sub' type') := by
  apply Tighter.step
  intro token
  split
  · exact .step fun _ => .ite (tighter_structLit (subs 0) _) (.refl _)
  · exact .refl _
  · exact .refl _
  · exact .refl _
  · exact .refl _
  · exact .refl _
  · exact .refl _
  · exact (subs 0).map
  · exact tighter_arrayLit (subs 0) types _
  · split
    · exact (subs _).map
    · exact .refl _

/-- What extends an operand, with a tighter limit on what is behind the operator. -/
theorem tighter_extend (subs : ∀ least, Tighter (sub least) (sub' least)) (form : Extension)
    (left : Expr) : Tighter (extend sub form left) (extend sub' form left) := by
  apply Tighter.step
  intro token
  cases form with
  | binary operator => exact (subs _).map
  | assign operator => exact .ite (subs _).map (.refl _)
  | dot => exact .refl _
  | call => exact ((subs 0).commaList _).map
  | index => exact (subs 0).map

end Operands

/-- Extending an operand has a tighter limit if the expressions behind the extensions do. -/
theorem tighter_extensions {least : Nat} (le : less ≤ more)
    (subs : ∀ less' < less, ∀ more', less' ≤ more' → ∀ least,
      Tighter (expr less' least) (expr more' least)) (left : Expr) :
    Tighter (extensions less least left) (extensions more least left) := by
  induction less generalizing more left with
  | zero =>
    intro ending tokens
    by_cases stops : Stops least (next ending tokens)
    · rw [run_extensions_stop stops, run_extensions_stop stops]
      exact .same
    · -- The next token is an operator, so the report is about nesting.
      obtain ⟨form, begun, binds⟩ : ∃ form,
          Extension.ofKind? (next ending tokens).kind = some form ∧ least ≤ form.leftPower := by
        simpa [Stops] using stops
      rw [run_extensions_zero begun binds, run_fail, ParseError.foundAt,
        of?_eq_none_of_extension begun]
      exact .tooDeep
  | succ less inductionHypothesis =>
    cases more with
    | zero => exact absurd le (Nat.not_succ_le_zero less)
    | succ more =>
      have leBelow : less ≤ more := Nat.le_of_succ_le_succ le
      apply Tighter.step
      intro form
      cases form with
      | none => exact .refl _
      | some form =>
        apply (tighter_extend (subs less (Nat.lt_succ_self less) more leBelow) form left).bind
        intro extended
        apply inductionHypothesis leBelow
        intro less' isLess
        exact subs less' (Nat.lt_succ_of_lt isLess)

/-- No expression begins with a token that records a failure. -/
theorem refuses_expr (room least : Nat) : Refuses (expr room least) := by
  cases room with
  | zero => exact refuses_fail _
  | succ room =>
    apply Refuses.bind
    apply refuses_advance
    rintro token (kind | kind)
    · exact ⟨.unexpectedInExpr, by rw [kind]; rfl⟩
    · exact ⟨.unexpectedInExpr, by rw [kind]; rfl⟩

/-- An expression with less room. The induction is on the room, of which every part has one level
less on both sides. -/
theorem tighter_expr (le : less ≤ more) (least : Nat) :
    Tighter (expr less least) (expr more least) := by
  induction less using Nat.strongRecOn generalizing more least with
  | _ less inductionHypothesis =>
  cases less with
  | zero => exact (refuses_expr more least).tighter
  | succ less =>
    cases more with
    | zero => exact absurd le (Nat.not_succ_le_zero less)
    | succ more =>
      have leBelow : less ≤ more := Nat.le_of_succ_le_succ le
      have subs (least : Nat) : Tighter (expr less least) (expr more least) :=
        inductionHypothesis less (Nat.lt_succ_self less) leBelow least
      apply (tighter_operand subs (tighter_typeExpr leBelow)).bind
      intro first
      apply tighter_extensions leBelow
      intro less' isLess more' le' least
      exact inductionHypothesis less' (Nat.lt_succ_of_lt isLess) le' least

section Statements

variable (le : less ≤ more)
include le

/-- A variable declaration with less room for its type and its value. -/
theorem tighter_varDecl (isPub : Bool) (position : Position) :
    Tighter (varDecl less isPub position) (varDecl more isPub position) := by
  apply Tighter.step
  intro first
  apply Tighter.step
  intro name
  apply ((tighter_typeExpr le).optionalAfter _).bind
  intro type
  exact ((tighter_expr le 0).optionalAfter _).map

/-- An expression that may be left out, with less room if it is not. -/
theorem tighter_exprUnless (closing : Kind) :
    Tighter (exprUnless less closing) (exprUnless more closing) :=
  .step fun _ => .ite (.refl _) (tighter_expr le 0).map

/-- A condition with less room. -/
theorem tighter_condition : Tighter (condition less) (condition more) :=
  .step fun _ => (tighter_expr le 0).map

/-- An expression as a statement, with less room. -/
theorem tighter_exprStmt (position : Position) :
    Tighter (exprStmt less position) (exprStmt more position) :=
  (tighter_expr le 0).map

/-- The first part of a loop header with less room. -/
theorem tighter_forInit : Tighter (forInit less) (forInit more) := by
  apply Tighter.step
  intro first
  split
  · exact .refl _
  · exact (tighter_varDecl le _ _).map
  · exact (tighter_varDecl le _ _).map
  · exact (tighter_exprStmt le _).map

variable {body body' : Parser Block} {chained chained' : Parser Stmt}

/-- A loop with less room for its header and a tighter limit on its body. -/
theorem tighter_forStmt (bodies : Tighter body body') :
    Tighter (forStmt less body) (forStmt more body') := by
  apply Tighter.step
  intro first
  apply Tighter.step
  intro _
  apply (tighter_forInit le).bind
  intro init
  apply (tighter_exprUnless le _).bind
  intro test
  apply Tighter.step
  intro _
  apply (tighter_exprUnless le _).bind
  intro step
  exact .step fun _ => bodies.map

/-- A statement with less room for its expressions and a tighter limit on its blocks. -/
theorem tighter_stmtWith (bodies : Tighter body body') (chains : Tighter chained chained') :
    Tighter (stmtWith less body chained) (stmtWith more body' chained') := by
  apply Tighter.step
  intro first
  split
  · exact bodies.map
  · exact .step fun _ => (tighter_exprUnless le _).map
  · exact chains
  · exact .step fun _ => (tighter_condition le).bind fun _ => bodies.map
  · exact tighter_forStmt le bodies
  · exact .refl _
  · exact .refl _
  · exact .step fun _ => bodies.map
  · exact (tighter_varDecl le _ _).map
  · exact (tighter_varDecl le _ _).map
  · exact tighter_exprStmt le _

end Statements

/-- No block begins with a token that records a failure. -/
theorem refuses_block (room : Nat) : Refuses (block room) := by
  cases room with
  | zero => exact refuses_fail _
  | succ room =>
    have brace : Refuses (discard (expect .leftBrace)) := (refuses_expect rfl).bind
    exact brace.bind

/-- No chained conditional begins with a token that records a failure. -/
theorem refuses_branch (room : Nat) : Refuses (branch room) := by
  cases room with
  | zero => exact refuses_fail _
  | succ room => exact (refuses_expect rfl).bind

/-- A block and an `if` use the room below them only, so the induction is on the room of both. -/
theorem tighter_block_branch (le : less ≤ more) :
    Tighter (block less) (block more) ∧ Tighter (branch less) (branch more) := by
  induction less generalizing more with
  | zero => exact ⟨(refuses_block more).tighter, (refuses_branch more).tighter⟩
  | succ less inductionHypothesis =>
    cases more with
    | zero => exact absurd le (Nat.not_succ_le_zero less)
    | succ more =>
      have leBelow : less ≤ more := Nat.le_of_succ_le_succ le
      obtain ⟨bodies, chains⟩ := inductionHypothesis leBelow
      constructor
      · apply Tighter.step
        intro _
        exact (Tighter.manyUntil _ (tighter_stmtWith leBelow bodies chains)).map
      · have last : Tighter (afterElse (block less) (branch less))
            (afterElse (block more) (branch more)) :=
          .step fun _ => .ite chains (.step fun _ => bodies.map)
        apply Tighter.step
        intro first
        apply (tighter_condition leBelow).bind
        intro test
        apply bodies.bind
        intro body
        exact (last.optionalAfter _).map

/-- The parsers that are told how much room there is: those of types, blocks, statements and
expressions, and the lists with commas of what they parse. -/
inductive Nested : {α : Type} → (Nat → Parser α) → Prop
  | typeExpr : Nested typeExpr
  | block : Nested block
  | stmt : Nested stmt
  | branch : Nested branch
  | forStmt : Nested fun room => forStmt room (block room)
  | expr (least : Nat) : Nested fun room => expr room least
  | commaList {α : Type} {item : Nat → Parser α} (closing : Kind) (items : Nested item) :
    Nested fun room => commaList closing (item room)

/-- Every construct that nests, with less room. -/
theorem Nested.tighter {parser : Nat → Parser α} (nested : Nested parser) (le : less ≤ more) :
    Tighter (parser less) (parser more) := by
  induction nested with
  | typeExpr => exact tighter_typeExpr le
  | block => exact (tighter_block_branch le).1
  | stmt =>
    obtain ⟨bodies, chains⟩ := tighter_block_branch le
    exact tighter_stmtWith le bodies chains
  | branch => exact (tighter_block_branch le).2
  | forStmt => exact tighter_forStmt le (tighter_block_branch le).1
  | expr least => exact tighter_expr le least
  | commaList closing _ items => exact items.commaList closing

/-- What a parser gives that begins at a place of a list with a number of levels around it: what it
makes of the tokens, and those that are left. Beyond the limit there is no room. -/
def runAt (parser : Nat → Parser α) (depth : Nat) (tokens : List Token) (place : Nat) :
    Except ParseError (α × List Token) :=
  (parser (maxDepth - depth)).run (Token.endingOf tokens) (tokens.drop place)

/-- The limit on nesting only ever turns an outcome into the report that nesting is too deep. What a
parser reads with some levels around it, it reads with fewer, and it leaves the same tokens; and
where it fails for any other reason, it fails with fewer for this reason at the same token. -/
theorem runAt_shallower {parser : Nat → Parser α} (nested : Nested parser) {depth deeper : Nat}
    (le : depth ≤ deeper) (tokens : List Token) (place : Nat) :
    (∀ tree rest, runAt parser deeper tokens place = .ok (tree, rest) →
      runAt parser depth tokens place = .ok (tree, rest)) ∧
    ∀ error, runAt parser deeper tokens place = .error error → error.cause ≠ .nestingTooDeep →
      runAt parser depth tokens place = .error error := by
  have roomier : maxDepth - deeper ≤ maxDepth - depth := Nat.sub_le_sub_left le maxDepth
  have limited := nested.tighter roomier (Token.endingOf tokens) (tokens.drop place)
  unfold runAt
  generalize (parser (maxDepth - deeper)).run (Token.endingOf tokens) (tokens.drop place) = narrow,
    (parser (maxDepth - depth)).run (Token.endingOf tokens) (tokens.drop place) = wide at limited ⊢
  cases limited with
  | same => exact ⟨fun _ _ ran => ran, fun _ failed _ => failed⟩
  | tooDeep =>
    constructor
    · intro tree rest impossible
      cases impossible
    · rintro error ⟨⟩ other
      exact absurd rfl other

/-- The arguments of a call, from behind its opening parenthesis. -/
def callArguments (room : Nat) : Parser (List Expr) :=
  commaList .rightParen (expr room 0)

/-- The argument `(1 + 2)`, in which the second summand is on the fourth level and may be
missing. -/
def sumArgument (summand : List Token) : List Token :=
  [⟨.leftParen, "(", ⟨1, 1⟩⟩, ⟨.number, "1", ⟨1, 2⟩⟩, ⟨.plus, "+", ⟨1, 4⟩⟩] ++ summand ++
    [⟨.rightParen, ")", ⟨1, 7⟩⟩, ⟨.rightParen, ")", ⟨1, 8⟩⟩]

/-- What is read on the last four levels is read on the first as well, and without the second
summand parsing fails for the same reason on both. -/
theorem runAt_shallower_sum :
    (runAt callArguments 124 (sumArgument [⟨.number, "2", ⟨1, 6⟩⟩]) 0 =
        .ok ([.binary ⟨1, 1⟩ .add (.number ⟨1, 2⟩ "1") (.number ⟨1, 6⟩ "2")],
          [⟨.rightParen, ")", ⟨1, 8⟩⟩]) ∧
      runAt callArguments 0 (sumArgument [⟨.number, "2", ⟨1, 6⟩⟩]) 0 =
        .ok ([.binary ⟨1, 1⟩ .add (.number ⟨1, 2⟩ "1") (.number ⟨1, 6⟩ "2")],
          [⟨.rightParen, ")", ⟨1, 8⟩⟩])) ∧
    runAt callArguments 124 (sumArgument []) 0 =
        .error ⟨.unexpectedInExpr, ⟨.rightParen, ")", ⟨1, 7⟩⟩⟩ ∧
      runAt callArguments 0 (sumArgument []) 0 =
        .error ⟨.unexpectedInExpr, ⟨.rightParen, ")", ⟨1, 7⟩⟩⟩ := by
  have nested : Nested callArguments := .commaList .rightParen (.expr 0)
  have read : runAt callArguments 124 (sumArgument [⟨.number, "2", ⟨1, 6⟩⟩]) 0 =
      .ok ([.binary ⟨1, 1⟩ .add (.number ⟨1, 2⟩ "1") (.number ⟨1, 6⟩ "2")],
        [⟨.rightParen, ")", ⟨1, 8⟩⟩]) := by
    with_unfolding_all rfl
  have failed : runAt callArguments 124 (sumArgument []) 0 =
      .error ⟨.unexpectedInExpr, ⟨.rightParen, ")", ⟨1, 7⟩⟩⟩ := by
    with_unfolding_all rfl
  constructor
  · exact ⟨read, (runAt_shallower nested (by decide) _ 0).1 _ _ read⟩
  · exact ⟨failed, (runAt_shallower nested (by decide) _ 0).2 _ failed (by decide)⟩

end SystemsLang.Parser
