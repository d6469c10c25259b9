import SystemsLang.Proofs.Parsing.Room
import SystemsLang.Proofs.Parsing.SettledProgram
import SystemsLang.Proofs.Parsing.TracksExpr

/-!
# Walks along statements and declarations

Statements and declarations track their parsers as expressions do. So every part of the grammar
does, and every loop over such parts, which gives `parts_progress_and_loops_end`: no machine goes on
forever on any tokens, and what it has entered it has left when it ends with a value.
-/

namespace SystemsLang.Walk

open Token (Kind endingOf)
open Syntax
open SystemsLang.Parser (next)

variable {depth room calls : Nat}

section Nesting

variable (limit : depth + room = maxDepth) (enough : room < calls)
include limit enough

/-- A variable declaration takes its first word at least. -/
theorem tracks_varDecl (isPub : Bool) (position : Position) :
    Tracks depth depth 1 (varDecl calls isPub position) (Parser.varDecl room isPub position) := by
  refine (takes_expectAny (by decide)).read.bind fun _ => tracks_ident.any.bind fun _ => ?_
  refine ((tracks_typeExpr limit enough).optionalAfter (by decide)).bind fun _ => ?_
  refine ((tracks_expr limit enough 0).optionalAfter (by decide)).bind fun _ => ?_
  exact (tracks_skip (by decide)).any.map

/-- An expression that may be left out takes nothing if it is. -/
theorem tracks_exprUnless (closing : Kind) :
    Tracks depth depth 0 (exprUnless calls closing) (Parser.exprUnless room closing) :=
  tracks_nextIs.bind fun _ => .ite (tracks_pure none) (tracks_expr limit enough 0).any.map

/-- A condition takes its parenthesis at least. -/
theorem tracks_condition :
    Tracks depth depth 1 (condition calls) (Parser.condition room) :=
  (tracks_skip (by decide)).bind fun _ => (tracks_expr limit enough 0).any.bind fun _ =>
    (tracks_skip (by decide)).any.map

/-- An expression as a statement takes what the expression takes. -/
theorem tracks_exprStmt (position : Position) :
    Tracks depth depth 1 (exprStmt calls position) (Parser.exprStmt room position) :=
  (tracks_expr limit enough 0).bind fun _ => (tracks_skip (by decide)).any.map

/-- The first part of a loop header takes its semicolon at least. -/
theorem tracks_forInit : Tracks depth depth 1 (forInit calls) (Parser.forInit room) := by
  refine .peek fun tokens before ready => ?_
  generalize seen : (next (endingOf tokens) (tokens.drop before.place)).kind = kind
  cases kind with
  | semicolon => exact .skip ready seen (by decide) (tracks_pure none)
  | constWord | varWord => exact (tracks_varDecl limit enough _ _).map tokens before ready
  | _ => exact (tracks_exprStmt limit enough _).map tokens before ready

variable {block : Walk Block} {branch : Walk Stmt} {blockParser : Parser Block}
  {branchParser : Parser Stmt} (blocks : Tracks depth depth 1 block blockParser)
  (branches : Tracks depth depth 1 branch branchParser)

include blocks in
/-- A loop takes its word, and its body is tracked if blocks are. -/
theorem tracks_forStmt :
    Tracks depth depth 1 (forStmt calls block) (Parser.forStmt room blockParser) := by
  refine (takes_expect (by decide)).read.bind fun _ => ?_
  refine (tracks_skip (by decide)).any.bind fun _ => ?_
  refine (tracks_forInit limit enough).any.bind fun _ => ?_
  refine (tracks_exprUnless limit enough _).bind fun _ => ?_
  refine (tracks_skip (by decide)).any.bind fun _ => ?_
  refine (tracks_exprUnless limit enough _).bind fun _ => ?_
  refine (tracks_skip (by decide)).any.bind fun _ => ?_
  exact blocks.any.map

include blocks branches in
/-- A statement takes a token in each of its forms. -/
theorem tracks_stmtWith :
    Tracks depth depth 1 (stmtWith calls block branch)
      (Parser.stmtWith room blockParser branchParser) := by
  refine .peek fun tokens before ready => ?_
  generalize seen : (next (endingOf tokens) (tokens.drop before.place)).kind = kind
  have semicolon {value : Stmt} : Tracks depth depth 0
      (do read (discard (.expect .semicolon)); return value)
      (do discard (.expect .semicolon); return value) := (tracks_skip (by decide)).any.map
  cases kind with
  | leftBrace => exact blocks.map tokens before ready
  | returnWord =>
    exact .skip ready seen (by decide) ((tracks_exprUnless limit enough _).bind fun _ => semicolon)
  | ifWord => exact branches tokens before ready
  | whileWord =>
    exact .skip ready seen (by decide)
      ((tracks_condition limit enough).any.bind fun _ => blocks.any.map)
  | forWord => exact tracks_forStmt limit enough blocks tokens before ready
  | breakWord | continueWord => exact .skip ready seen (by decide) semicolon
  | comptimeWord => exact .skip ready seen (by decide) blocks.any.map
  | constWord | varWord => exact (tracks_varDecl limit enough _ _).map tokens before ready
  | _ => exact tracks_exprStmt limit enough _ tokens before ready

omit limit enough

include blocks branches in
/-- What follows an `else` takes a token, as a block or as a conditional. -/
theorem tracks_afterElse :
    Tracks depth depth 1 (afterElse block branch) (Parser.afterElse blockParser branchParser) :=
  tracks_nextIs.step fun _ => .ite branches (.peek fun tokens before ready =>
    blocks.map tokens before ready)

end Nesting

/-- By induction on the calls. A block and an `if` enter a level before the next call of either. -/
theorem tracks_block_branch (limit : depth + room = maxDepth) (enough : room < calls) :
    Tracks depth depth 1 (block calls) (Parser.block room) ∧
      Tracks depth depth 1 (branch calls) (Parser.branch room) := by
  induction calls generalizing depth room with
  | zero => exact absurd enough (Nat.not_lt_zero room)
  | succ calls inductionHypothesis =>
  constructor
  · unfold Walk.block
    refine .inLevel limit rfl fun lower same => ?_
    subst same
    have inside : depth + 1 + lower = maxDepth := by omega
    have fewer : lower < calls := Nat.lt_of_succ_lt_succ enough
    obtain ⟨blocks, branches⟩ := inductionHypothesis inside fewer
    refine (tracks_skip (by decide)).bind fun _ => ?_
    refine ((tracks_stmtWith inside fewer blocks branches).manyUntil _).bind fun _ => ?_
    exact (tracks_skip (by decide)).any.map
  · unfold Walk.branch
    refine .inLevel limit rfl fun lower same => ?_
    subst same
    have inside : depth + 1 + lower = maxDepth := by omega
    have fewer : lower < calls := Nat.lt_of_succ_lt_succ enough
    obtain ⟨blocks, branches⟩ := inductionHypothesis inside fewer
    refine (takes_expect (by decide)).read.bind fun _ => ?_
    refine (tracks_condition inside fewer).any.bind fun _ => blocks.any.bind fun _ => ?_
    exact ((tracks_afterElse blocks branches).optionalAfter (by decide)).map

section Declarations

variable (limit : depth + room = maxDepth) (enough : room < calls)
include limit enough

/-- A statement is tracked together with the blocks and conditionals inside of it. -/
theorem tracks_stmt : Tracks depth depth 1 (stmt calls) (Parser.stmt room) :=
  tracks_stmtWith limit enough (tracks_block_branch limit enough).1
    (tracks_block_branch limit enough).2

/-- A parameter takes its name at least. -/
theorem tracks_param : Tracks depth depth 1 (param calls) (Parser.param room) := by
  refine .peek fun tokens before ready => ?_
  refine Tracks.step (tracks_take (by decide)) (fun _ => ?_) tokens before ready
  refine tracks_ident.bind fun _ => (tracks_skip (by decide)).any.bind fun _ => ?_
  exact (tracks_typeExpr limit enough).any.map

/-- A function declaration takes a word at least. -/
theorem tracks_fnDecl (isPub : Bool) (position : Position) :
    Tracks depth depth 1 (fnDecl calls isPub position) (Parser.fnDecl room isPub position) := by
  refine (takes_of_settling Parser.settling_fnModifier).read.step fun _ => ?_
  refine (tracks_skip (by decide)).bind fun _ => tracks_ident.any.bind fun _ => ?_
  refine (tracks_skip (by decide)).any.bind fun _ => ?_
  refine ((tracks_param limit enough).commaList _).bind fun _ => ?_
  refine (tracks_skip (by decide)).any.bind fun _ => ?_
  refine (tracks_typeExpr limit enough).any.bind fun _ => ?_
  exact (tracks_block_branch limit enough).1.any.map

/-- A field takes its name at least. -/
theorem tracks_field : Tracks depth depth 1 (field calls) (Parser.field room) := by
  refine .peek fun tokens before ready => ?_
  refine Tracks.bind tracks_ident (fun _ => ?_) tokens before ready
  exact (tracks_skip (by decide)).any.bind fun _ => (tracks_typeExpr limit enough).any.map

/-- A struct declaration takes a word at least. -/
theorem tracks_structDecl (isPub : Bool) (position : Position) :
    Tracks depth depth 1 (structDecl calls isPub position)
      (Parser.structDecl room isPub position) := by
  refine (tracks_skip (by decide)).bind fun _ => tracks_ident.any.bind fun _ => ?_
  refine (tracks_skip (by decide)).any.bind fun _ => (tracks_skip (by decide)).any.bind fun _ => ?_
  refine (tracks_skip (by decide)).any.bind fun _ => ?_
  refine ((tracks_field limit enough).commaList _).bind fun _ => ?_
  exact (tracks_skip (by decide)).any.bind fun _ => (tracks_skip (by decide)).any.map

/-- A declaration takes a token in each of its forms. -/
theorem tracks_decl : Tracks depth depth 1 (decl calls) (Parser.decl room) := by
  refine .peek fun tokens before ready => ?_
  refine Tracks.step (tracks_take (by decide)) (fun isPub => ?_) tokens before ready
  refine .peek fun tokens before ready => ?_
  have ahead : Takes 0 Parser.opensStruct := takes_of_stays fun ending tokens value rest ran => by
    rw [Parser.run_opensStruct, Except.ok.injEq, Prod.mk.injEq] at ran
    exact ran.2.symm
  cases (next (endingOf tokens) (tokens.drop before.place)).kind with
  | fnWord | inlineWord | comptimeWord =>
    exact (tracks_fnDecl limit enough _ _).map tokens before ready
  | constWord =>
    refine ahead.read.step (fun _ => .ite ?_ ?_) tokens before ready
    · exact (tracks_structDecl limit enough _ _).map
    · exact (tracks_varDecl limit enough _ _).map
  | varWord => exact (tracks_varDecl limit enough _ _).map tokens before ready
  | _ => exact takes_fail.read tokens before ready

end Declarations

/-- The parts of the grammar with a parser of their own, by the type of their trees. The items of
all lists are among them. -/
inductive Part : Type → Type
  | decl : Part Decl
  | fnDecl (isPub : Bool) (position : Position) : Part FnDecl
  | structDecl (isPub : Bool) (position : Position) : Part StructDecl
  | varDecl (isPub : Bool) (position : Position) : Part VarDecl
  | param : Part Param
  | field : Part Field
  | typeExpr : Part TypeExpr
  | block : Part Block
  | stmt : Part Stmt
  | branch : Part Stmt
  | forStmt : Part Stmt
  | fieldInit : Part (Ident × Expr)
  | expr (least : Nat) : Part Expr

namespace Part

variable {α : Type}

/-- How a machine parses a part. -/
def walk (calls : Nat) : Part α → Walk α
  | decl => Walk.decl calls
  | fnDecl isPub position => Walk.fnDecl calls isPub position
  | structDecl isPub position => Walk.structDecl calls isPub position
  | varDecl isPub position => Walk.varDecl calls isPub position
  | param => Walk.param calls
  | field => Walk.field calls
  | typeExpr => Walk.typeExpr calls
  | block => Walk.block calls
  | stmt => Walk.stmt calls
  | branch => Walk.branch calls
  | forStmt => Walk.forStmt calls (Walk.block calls)
  | fieldInit => Walk.fieldInit (Walk.expr calls 0)
  | expr least => Walk.expr calls least

/-- How a part is parsed with room for a number of levels. -/
def parser (room : Nat) : Part α → Parser α
  | decl => Parser.decl room
  | fnDecl isPub position => Parser.fnDecl room isPub position
  | structDecl isPub position => Parser.structDecl room isPub position
  | varDecl isPub position => Parser.varDecl room isPub position
  | param => Parser.param room
  | field => Parser.field room
  | typeExpr => Parser.typeExpr room
  | block => Parser.block room
  | stmt => Parser.stmt room
  | branch => Parser.branch room
  | forStmt => Parser.forStmt room (Parser.block room)
  | fieldInit => Parser.fieldInit (Parser.expr room 0)
  | expr least => Parser.expr room least

/-- Every part of the grammar is tracked where there is room for what it nests and calls enough for
it. -/
theorem tracks (part : Part α) (limit : depth + room = maxDepth) (enough : room < calls) :
    Tracks depth depth 1 (part.walk calls) (part.parser room) := by
  cases part with
  | decl => exact tracks_decl limit enough
  | fnDecl isPub position => exact tracks_fnDecl limit enough isPub position
  | structDecl isPub position => exact tracks_structDecl limit enough isPub position
  | varDecl isPub position => exact tracks_varDecl limit enough isPub position
  | param => exact tracks_param limit enough
  | field => exact tracks_field limit enough
  | typeExpr => exact tracks_typeExpr limit enough
  | block => exact (tracks_block_branch limit enough).1
  | stmt => exact tracks_stmt limit enough
  | branch => exact (tracks_block_branch limit enough).2
  | forStmt => exact tracks_forStmt limit enough (tracks_block_branch limit enough).1
  | fieldInit => exact tracks_fieldInit (tracks_expr limit enough 0)
  | expr least => exact tracks_expr limit enough least

end Part

/-- The loops of the grammar: those over the declarations of a program or the statements of a block,
those over the items of a list with commas, and those over the operators that extend an operand. The
last give levels back, of which there are no more than the limit. -/
inductive Loop : Type → Type 1
  | manyUntil {α : Type} (closing : List Kind) (part : Part α) : Loop (List α)
  | commaList {α : Type} (closing : Kind) (part : Part α) : Loop (List α)
  | extensions (least : Nat) {outer : Nat} (within : outer ≤ maxDepth) (left : Expr) : Loop Expr

namespace Loop

variable {α : Type}

/-- How a machine goes round a loop. -/
def walk (calls : Nat) : Loop α → Walk α
  | manyUntil closing part => Walk.manyUntil closing (part.walk calls)
  | commaList closing part => Walk.commaList closing (part.walk calls)
  | @extensions least outer _ left => Walk.extensions (Walk.expr calls) least outer left

/-- How the same is parsed with room for a number of levels. -/
def parser (room : Nat) : Loop α → Parser α
  | manyUntil closing part => Parser.manyUntil closing (part.parser room)
  | commaList closing part => Parser.commaList closing (part.parser room)
  | extensions least _ left => Parser.extensions room least left

/-- Every loop over such a part is tracked. It may go round no time at all, and then it takes
nothing. -/
theorem tracks (loop : Loop α) (limit : depth + room = maxDepth) (enough : room < calls) :
    ∃ final, Tracks depth final 0 (loop.walk calls) (loop.parser room) := by
  cases loop with
  | manyUntil closing part => exact ⟨depth, (part.tracks limit enough).manyUntil closing⟩
  | commaList closing part => exact ⟨depth, (part.tracks limit enough).commaList closing⟩
  | extensions least within left =>
    exact ⟨_, tracks_extensions (tracks_expr · ·) within limit (Nat.le_of_lt enough) left⟩

end Loop

/-- A walk ends by itself, as a parser does, and has not been deeper than the limit. -/
structure EndsAs {α : Type} (tokens : List Token) (outcome : Outcome α)
    (result : Except ParseError (α × List Token)) : Prop where
  parsed : outcome.parsed? tokens = some result
  shallow : ∀ last ∈ outcome.standing?, last.deepest ≤ maxDepth

/-- A walk that agrees with a parser has returned or failed as the parser does. -/
theorem Agrees.endsAs {α : Type} {tokens : List Token} {least place final : Nat}
    {outcome : Outcome α} {result : Except ParseError (α × List Token)}
    (agrees : Agrees tokens least place final outcome result) : EndsAs tokens outcome result := by
  cases agrees with
  | returned passes ready => exact ⟨rfl, by simpa [Outcome.standing?] using ready.shallow⟩
  | failed shallow => exact ⟨rfl, by simpa [Outcome.standing?] using shallow⟩

/-- What it is for a walk to have moved on: at least one token has been taken and none that is not
there, none of them is an end marker, and the levels are those from before. -/
structure MovedOn (tokens : List Token) (before after : Standing) : Prop where
  forward : before.place < after.place
  within : after.place ≤ tokens.length
  usable : ∀ token ∈ (tokens.drop before.place).take (after.place - before.place),
    token.kind ≠ .ending
  restored : after.depth = before.depth

/-- From each place of any list of tokens and with any number of levels around it up to the limit,
a machine parses every part of the grammar to the end. With a value it has moved on, and has given
back the levels it entered; never has it been deeper than the limit. And from there every loop over
such parts comes to its end. The tokens need not hold an end marker.

Proof: every part tracks its parser and takes a token, and a walk that tracks a parser is not cut
off (`Part.tracks`). -/
theorem parts_progress_and_loops_end (tokens : List Token) {place depth calls : Nat}
    (inside : place ≤ tokens.length) (shallow : depth ≤ maxDepth)
    (enough : maxDepth < depth + calls) :
    (∀ {α : Type} (part : Part α),
      EndsAs tokens ((part.walk calls).run tokens (.starting place depth))
        (Parser.runAt (fun room => part.parser room) depth tokens place) ∧
      ∀ value after,
        (part.walk calls).run tokens (.starting place depth) = .returned value after →
          MovedOn tokens (.starting place depth) after) ∧
    ∀ {α : Type} (loop : Loop α),
      EndsAs tokens ((loop.walk calls).run tokens (.starting place depth))
        (Parser.runAt (fun room => loop.parser room) depth tokens place) := by
  have limit : depth + (maxDepth - depth) = maxDepth := by omega
  have fewer : maxDepth - depth < calls := by omega
  have ready : (Standing.starting place depth).Ready tokens depth := ⟨inside, rfl, shallow⟩
  constructor
  · intro α part
    have agrees := part.tracks limit fewer tokens _ ready
    refine ⟨agrees.endsAs, fun value after ran => ?_⟩
    rw [ran] at agrees
    generalize (part.parser (maxDepth - depth)).run (endingOf tokens)
      (tokens.drop (Standing.starting place depth).place) = result at agrees
    cases agrees with
    | returned passes readyAfter =>
      obtain ⟨forward, usable⟩ := passes.places inside readyAfter.within
      exact ⟨forward, readyAfter.within, usable, readyAfter.level⟩
  · intro α loop
    obtain ⟨final, tracks⟩ := loop.tracks limit fewer
    exact (tracks tokens _ ready).endsAs

/-- The sum `1 + 2` in front of an end marker with one more number behind it. -/
def endedSum : List Token :=
  [⟨.number, "1", ⟨1, 1⟩⟩, ⟨.plus, "+", ⟨1, 3⟩⟩, ⟨.number, "2", ⟨1, 5⟩⟩, ⟨.ending, "", ⟨1, 6⟩⟩,
    ⟨.number, "3", ⟨1, 7⟩⟩]

/-- With three levels left the sum is parsed up to the end marker on all of them, and they are given
back. -/
theorem sum_moves_on :
    0 ≤ endedSum.length ∧ 125 ≤ maxDepth ∧ maxDepth < 125 + 4 ∧
    ∃ value after, ((Part.expr 0).walk 4).run endedSum (.starting 0 125) = .returned value after ∧
      after.place = 3 ∧ after.deepest = maxDepth ∧ MovedOn endedSum (.starting 0 125) after := by
  refine ⟨by decide, by decide, by decide, ?_⟩
  have progress := (parts_progress_and_loops_end endedSum (Nat.zero_le _)
    (by decide : 125 ≤ maxDepth) (by decide : maxDepth < 125 + 4)).1 (.expr 0)
  have ran : ∃ value after, ((Part.expr 0).walk 4).run endedSum (.starting 0 125) =
      .returned value after ∧ after.place = 3 ∧ after.deepest = maxDepth :=
    ⟨_, _, rfl, rfl, rfl⟩
  obtain ⟨value, after, ran, place, deepest⟩ := ran
  exact ⟨value, after, ran, place, deepest, progress.2 value after ran⟩

end SystemsLang.Walk
