import SystemsLang.Proofs.Typing.WellTyped

/-!
# Functions of accepted programs end in a `return`

How the statements of a function may be left, whatever its expressions come to: a condition may go
either way, and the body of a loop may run any number of times (`Exits`). Control may fall off the
end of a statement, return, with a value or without, or leave or restart the loop around it.

The check asks two things of a function that has to give back a value: each of its `return`
statements has a value, and some statement of its body surely returns, of which loops are none. It
also asks that each `break` and each `continue` stands in a loop. If nothing is reported, then by
induction along the way that is taken no statement is left otherwise than its place allows
(`allows_of_exits`), and one that surely returns does not fall through (`not_falls_of_returns`). So
the body of the function can only be left by a `return` with a value.
-/

namespace SystemsLang.Syntax

/-- How a statement is left: at its end, by a `return` with or without a value, by a `break` or by a
`continue`. -/
inductive Exit
  | falls
  | returned (valued : Bool)
  | broke
  | continued
deriving DecidableEq

/-- In a function that has to give back a value, inside a loop or not, a statement may be left in
this way. -/
def Exit.AllowedIn (inLoop : Bool) : Exit → Prop
  | falls => True
  | returned valued => valued = true
  | broke | continued => inLoop = true

mutual

/-- A statement may be left in some way. What an expression comes to plays no part, so each branch
of an `if` may be taken. -/
inductive Exits : Stmt → Exit → Prop
  | block {position : Position} {body : Block} {exit : Exit} (inner : ExitsAll body exit) :
    Exits (.block position body) exit
  | comptime {position : Position} {body : Block} {exit : Exit} (inner : ExitsAll body exit) :
    Exits (.comptime position body) exit
  | returns {position : Position} {value : Option Expr} :
    Exits (.returns position value) (.returned value.isSome)
  | taken {position : Position} {condition : Expr} {body : Block} {otherwise : Option Stmt}
      {exit : Exit} (inner : ExitsAll body exit) :
    Exits (.branch position condition body otherwise) exit
  | passed {position : Position} {condition : Expr} {body : Block} {otherwise : Option Stmt}
      {exit : Exit} (other : ExitsAll otherwise.toList exit) :
    Exits (.branch position condition body otherwise) exit
  | whileLoop {position : Position} {condition : Expr} {body : Block} {exit : Exit}
      (turns : Turns body exit) : Exits (.whileLoop position condition body) exit
  | forLoop {position : Position} {init : Option Stmt} {condition step : Option Expr}
      {body : Block} {exit : Exit} (starts : ExitsAll init.toList .falls)
      (turns : Turns body exit) : Exits (.forLoop position init condition step body) exit
  | forInit {position : Position} {init : Option Stmt} {condition step : Option Expr}
      {body : Block} {exit : Exit} (starts : ExitsAll init.toList exit) (leaves : exit ≠ .falls) :
    Exits (.forLoop position init condition step body) exit
  | breakLoop {position : Position} : Exits (.breakLoop position) .broke
  | continueLoop {position : Position} : Exits (.continueLoop position) .continued
  | expr {position : Position} {value : Expr} : Exits (.expr position value) .falls
  | declare {position : Position} {declared : VarDecl} : Exits (.declare position declared) .falls

/-- Statements one after the other may be left in some way: behind the last of them, or where one
of them does not fall through to the next. -/
inductive ExitsAll : List Stmt → Exit → Prop
  | nil : ExitsAll [] .falls
  | next {first : Stmt} {rest : List Stmt} {exit : Exit} (head : Exits first .falls)
      (tail : ExitsAll rest exit) : ExitsAll (first :: rest) exit
  | leave {first : Stmt} {rest : List Stmt} {exit : Exit} (head : Exits first exit)
      (leaves : exit ≠ .falls) : ExitsAll (first :: rest) exit

/-- A loop may be left in some way: before any turn of its body, or after one more of them, which
may be cut short by a `continue`, or out of the middle of one. -/
inductive Turns : Block → Exit → Prop
  | done {body : Block} : Turns body .falls
  | again {body : Block} {turn exit : Exit} (inner : ExitsAll body turn)
      (goesOn : turn = .falls ∨ turn = .continued) (turns : Turns body exit) : Turns body exit
  | broke {body : Block} (inner : ExitsAll body .broke) : Turns body .falls
  | returned {body : Block} {valued : Bool} (inner : ExitsAll body (.returned valued)) :
    Turns body (.returned valued)

end

/-- Where statements fall through, each of them does. -/
theorem falls_of_mem {body : Block} (falls : ExitsAll body .falls) :
    ∀ statement ∈ body, Exits statement .falls := by
  induction body with
  | nil => exact fun _ impossible => nomatch impossible
  | cons first rest inductionHypothesis =>
    cases falls with
    | next head tail => exact List.forall_mem_cons.mpr ⟨head, inductionHypothesis tail⟩
    | leave head leaves => exact absurd rfl leaves

end SystemsLang.Syntax

namespace SystemsLang.Typing

open Syntax

variable {Same : Ty → Ty → Prop}

/-- A statement that surely returns does not fall through. -/
theorem not_falls_of_returns {statement : Stmt} (surely : Returns statement) :
    ¬ Exits statement .falls := by
  induction surely with
  | returns => exact fun falls => nomatch falls
  | block member surely inductionHypothesis =>
    intro falls
    cases falls with
    | block inner => exact inductionHypothesis (falls_of_mem inner _ member)
  | comptime member surely inductionHypothesis =>
    intro falls
    cases falls with
    | comptime inner => exact inductionHypothesis (falls_of_mem inner _ member)
  | branch member surely other thenHypothesis elseHypothesis =>
    intro falls
    cases falls with
    | taken inner => exact thenHypothesis (falls_of_mem inner _ member)
    | passed other => exact elseHypothesis (falls_of_mem other _ List.mem_cons_self)

/-- The environment is inside a function that has to give back a value. -/
def Env.Valued (env : Env) : Prop :=
  ∃ result, env.result = some result ∧ NeedsValue result

/-- What the function gives back has to be given back. -/
theorem Env.Valued.needs {env : Env} (valued : env.Valued) {result : Ty}
    (inside : env.result = some result) : NeedsValue result := by
  obtain ⟨other, same, needs⟩ := valued
  rwa [Option.some.inj (inside.symm.trans same)]

/-- An environment with the same result is inside the same function. -/
theorem Env.Valued.of_result {env other : Env} (valued : env.Valued)
    (same : other.result = env.result) : other.Valued := by
  rwa [Env.Valued, same]

/-- A block inside belongs to the same function. -/
theorem Env.Valued.inner {env : Env} (valued : env.Valued) : env.inner.Valued :=
  valued.of_result rfl

mutual

/-- A statement changes nothing that no binding changes. -/
theorem StmtOk.kept {α : Type} (property : Env → α)
    (kept : ∀ env name binding, property (env.bind name binding) = property env) {inLoop : Bool}
    {env after : Env} {statement : Stmt} :
    StmtOk Same inLoop env statement after → property after = property env
  | .block _ | .comptime _ | .returnNothing _ _ | .returnValue _ _ _ _ | .whileLoop _ _
  | .forLoop _ _ _ _ | .breakLoop | .continueLoop | .expr _ => rfl
  | .branch _ _ last => StmtsOk.kept property kept last
  | .declare _ _ => kept _ _ _

/-- Nor do several. -/
theorem StmtsOk.kept {α : Type} (property : Env → α)
    (kept : ∀ env name binding, property (env.bind name binding) = property env) {inLoop : Bool}
    {env after : Env} {statements : List Stmt} :
    StmtsOk Same inLoop env statements after → property after = property env
  | .nil => rfl
  | .cons head tail => (StmtsOk.kept property kept tail).trans (StmtOk.kept property kept head)

end

mutual

/-- A statement that is in order is left in no way that its place does not allow. -/
theorem allows_of_exits {inLoop : Bool} {env after : Env} {statement : Stmt} {exit : Exit} :
    Exits statement exit → env.Valued → StmtOk Same inLoop env statement after →
      exit.AllowedIn inLoop
  | .block exits, valued, .block inner => allows_of_exitsAll exits valued.inner inner
  | .comptime exits, valued, .comptime inner => allows_of_exitsAll exits valued.inner inner
  | .returns, valued, .returnNothing inside needless => absurd (valued.needs inside) needless
  | .returns, _, .returnValue _ _ _ _ => rfl
  | .taken exits, valued, .branch _ inner _ => allows_of_exitsAll exits valued.inner inner
  | .passed exits, valued, .branch _ _ last => allows_of_exitsAll exits valued last
  | .whileLoop turns, valued, .whileLoop _ inner => allows_of_turns turns valued inner
  | .forLoop _ turns, valued, .forLoop starts _ _ inner =>
    have kept := StmtsOk.kept Env.result Env.result_bind starts
    allows_of_turns turns (valued.inner.of_result kept) inner
  | .forInit exits _, valued, .forLoop starts _ _ _ => allows_of_exitsAll exits valued.inner starts
  | .breakLoop, _, .breakLoop | .continueLoop, _, .continueLoop => rfl
  | .expr, _, _ | .declare, _, _ => trivial

/-- So are several. -/
theorem allows_of_exitsAll {inLoop : Bool} {env after : Env} {statements : List Stmt}
    {exit : Exit} : ExitsAll statements exit → env.Valued →
      StmtsOk Same inLoop env statements after → exit.AllowedIn inLoop
  | .nil, _, _ => trivial
  | .next _ exits, valued, .cons head tail =>
    allows_of_exitsAll exits (valued.of_result (StmtOk.kept Env.result Env.result_bind head)) tail
  | .leave exits _, valued, .cons head _ => allows_of_exits exits valued head

/-- A loop whose body is in order is left in no way that is not allowed outside of loops. -/
theorem allows_of_turns {inLoop : Bool} {env after : Env} {body : Block} {exit : Exit} :
    Turns body exit → env.Valued → StmtsOk Same true env.inner body after → exit.AllowedIn inLoop
  | .done, _, _ | .broke _, _, _ => trivial
  | .again _ _ turns, valued, ok => allows_of_turns turns valued ok
  | .returned exits, valued, ok =>
    -- A `return` in the loop leads out of the function, so it is judged by its value alone.
    (allows_of_exitsAll exits valued.inner ok : Exit.AllowedIn true (.returned _))

end

/-- The functions among declarations that are in order are in order. -/
theorem DeclsOk.fnOk {structs : String → Option Fields} {globals : Frame} {program : Program}
    (ok : DeclsOk Same structs globals program) {declared : FnDecl}
    (member : .fn declared ∈ program) : ∃ globals, FnOk Same structs globals declared := by
  induction ok with
  | nil => cases member
  | fn head tail inductionHypothesis =>
    rcases List.mem_cons.mp member with same | member
    · cases same
      exact ⟨_, head⟩
    · exact inductionHypothesis member
  | var typed tail inductionHypothesis =>
    rcases List.mem_cons.mp member with same | member
    · cases same
    · exact inductionHypothesis member
  | struct head tail inductionHypothesis =>
    rcases List.mem_cons.mp member with same | member
    · cases same
    · exact inductionHypothesis member

/-- The body of a function that is in order and has to give back a value is left by a `return` with
a value. -/
theorem FnOk.exit_eq {structs : String → Option Fields} {globals : Frame} {declared : FnDecl}
    (ok : FnOk Same structs globals declared) (needs : NeedsValue (denoted declared.returnType))
    (exits : ExitsAll declared.body exit) : exit = .returned true := by
  obtain ⟨after, body⟩ := ok.body
  have allowed : exit.AllowedIn false := allows_of_exitsAll exits ⟨_, rfl, needs⟩ body
  obtain ⟨statement, member, surely⟩ := ok.returns needs
  cases exit with
  | falls => exact absurd (falls_of_mem exits statement member) (not_falls_of_returns surely)
  | returned valued => exact congrArg Exit.returned allowed
  | broke | continued => cases allowed

/-- If nothing is reported of a program, then each of its functions that has to give back a value,
that is, whose result is neither `void` nor `!void` nor `noreturn`, is left by a `return` with a
value, whichever way its conditions go and however often its loops run: it does not fall off its
end, and no `break`, `continue` or `return` without a value leads out of it. -/
theorem exit_of_check_nil {program : Program} (quiet : program.check = .ok [])
    {declared : FnDecl} (member : .fn declared ∈ program)
    (needs : NeedsValue (denoted declared.returnType)) {exit : Exit}
    (exits : ExitsAll declared.body exit) : exit = .returned true := by
  have wellTyped := check_eq_nil_iff_eq.mp quiet
  obtain ⟨globals, ok⟩ := wellTyped.decls.fnOk member
  exact ok.exit_eq needs exits

/-- A function with a loop that it may leave early, and an `if` both branches of which return. -/
def choosing : FnDecl :=
  let flag (line column : Nat) : Expr := .ident ⟨line, column⟩ "flag"
  let giveBack (line column : Nat) : Stmt :=
    .returns ⟨line, column⟩ (some (.number ⟨line, column + 7⟩ "1"))
  ⟨false, none, ⟨"choose", ⟨1, 4⟩⟩,
    [⟨false, ⟨"flag", ⟨1, 11⟩⟩, .primitive ⟨1, 17⟩ "bool", ⟨1, 11⟩⟩], .primitive ⟨1, 23⟩ "i32",
    [.whileLoop ⟨2, 3⟩ (flag 2 10) [.branch ⟨2, 18⟩ (flag 2 22) [.breakLoop ⟨2, 30⟩] none,
        giveBack 2 39],
      .branch ⟨3, 3⟩ (flag 3 7) [giveBack 3 15] (some (.block ⟨3, 30⟩ [giveBack 3 32]))],
    ⟨1, 1⟩⟩

/-- Whichever way its conditions go, it gives back a value; so it does if the loop is left in its
first turn. -/
theorem exit_of_check_nil_choosing :
    Program.check [.fn choosing] = .ok [] ∧ NeedsValue (denoted choosing.returnType) ∧
      ExitsAll choosing.body (.returned true) ∧
      ∀ exit, ExitsAll choosing.body exit → exit = .returned true := by
  have quiet : Program.check [.fn choosing] = .ok [] := by decide +kernel
  have needs : NeedsValue (denoted choosing.returnType) := by
    simp [NeedsValue, denoted, choosing, Ty.ofPrimitive]
  have leaves : ExitsAll [.branch ⟨2, 18⟩ (.ident ⟨2, 22⟩ "flag") [.breakLoop ⟨2, 30⟩] none,
      .returns ⟨2, 39⟩ (some (.number ⟨2, 46⟩ "1"))] .broke :=
    .leave (.taken (.leave .breakLoop (by simp))) (by simp)
  have possible : ExitsAll choosing.body (.returned true) :=
    .next (.whileLoop (.broke leaves))
      (.leave (.taken (.leave .returns (by simp))) (by simp))
  exact ⟨quiet, needs, possible,
    fun _ exits => exit_of_check_nil quiet List.mem_cons_self needs exits⟩

end SystemsLang.Typing
