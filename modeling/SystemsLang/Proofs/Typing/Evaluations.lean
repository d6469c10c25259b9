import SystemsLang.Proofs.Typing.ControlFlow
import SystemsLang.Proofs.Typing.Frames
import SystemsLang.Proofs.Typing.Sites

/-!
# Where expressions are judged

Judging a program comes to each of its expressions in an environment: that of the statement in which
the expression stands, after the statements before it. `Evaluates` says which environment this is,
along the statements that are passed and the bodies that are entered on the way. In a program that
is in order the expression at every site has a type there (`exists_evaluates`), and it has no other
(`HasType.unique`).
-/

namespace SystemsLang.Typing

open Syntax

variable (Same : Ty → Ty → Prop)

/-- The statements that stand in a statement, with the environment in which they are judged. -/
inductive Opens (env : Env) : Stmt → Env → List Stmt → Prop
  | block {position : Position} {body : Block} : Opens env (.block position body) env.inner body
  | comptime {position : Position} {body : Block} :
    Opens env (.comptime position body) env.inner body
  | taken {position : Position} {condition : Expr} {body : Block} {otherwise : Option Stmt} :
    Opens env (.branch position condition body otherwise) env.inner body
  | passed {position : Position} {condition : Expr} {body : Block} {otherwise : Option Stmt} :
    Opens env (.branch position condition body otherwise) env otherwise.toList
  | whileLoop {position : Position} {condition : Expr} {body : Block} :
    Opens env (.whileLoop position condition body) env.inner body
  | header {position : Position} {init : Option Stmt} {condition step : Option Expr}
      {body : Block} : Opens env (.forLoop position init condition step body) env.inner init.toList
  | forLoop {inLoop : Bool} {header : Env} {position : Position} {init : Option Stmt}
      {condition step : Option Expr} {body : Block}
      (starts : StmtsOk Same inLoop env.inner init.toList header) :
    Opens env (.forLoop position init condition step body) header.inner body

/-- The expressions that are a part of a statement itself, with the environment in which they are
judged. -/
inductive Has (env : Env) : Stmt → Env → Expr → Prop
  | returns {position : Position} {value : Expr} :
    Has env (.returns position (some value)) env value
  | branch {position : Position} {condition : Expr} {body : Block} {otherwise : Option Stmt} :
    Has env (.branch position condition body otherwise) env condition
  | whileLoop {position : Position} {condition : Expr} {body : Block} :
    Has env (.whileLoop position condition body) env condition
  | forLoop {inLoop : Bool} {header : Env} {position : Position} {init : Option Stmt}
      {condition step : Option Expr} {body : Block} {value : Expr}
      (starts : StmtsOk Same inLoop env.inner init.toList header)
      (member : value ∈ condition.toList ++ step.toList) :
    Has env (.forLoop position init condition step body) header value
  | expr {position : Position} {value : Expr} : Has env (.expr position value) env value
  | declare {position : Position} {declared : VarDecl} {value : Expr}
      (given : declared.init = some value) : Has env (.declare position declared) env value

/-- Judging statements in an environment comes to an expression in another. -/
inductive Evaluates : Env → List Stmt → Env → Expr → Prop
  | own {env place : Env} {first : Stmt} {rest : List Stmt} {value : Expr}
      (has : Has Same env first place value) : Evaluates env (first :: rest) place value
  | inside {env inner place : Env} {first : Stmt} {rest body : List Stmt} {value : Expr}
      (opens : Opens Same env first inner body) (inside : Evaluates inner body place value) :
    Evaluates env (first :: rest) place value
  | behind {inLoop : Bool} {env between place : Env} {first : Stmt} {rest : List Stmt}
      {value : Expr} (head : StmtOk Same inLoop env first between)
      (later : Evaluates between rest place value) : Evaluates env (first :: rest) place value

/-- Judging declarations behind others comes to an expression in an environment. -/
inductive DeclsEvaluate (structs : String → Option Fields) :
    Frame → Program → Env → Expr → Prop
  | fn {globals : Frame} {declared : FnDecl} {rest : Program} {place : Env} {value : Expr}
      (inside : Evaluates Same ⟨structs, globals, [paramFrame declared.params],
        some (denoted declared.returnType)⟩ declared.body place value) :
    DeclsEvaluate structs globals (.fn declared :: rest) place value
  | var {globals : Frame} {declared : VarDecl} {rest : Program} {value : Expr}
      (given : declared.init = some value) :
    DeclsEvaluate structs globals (.var declared :: rest) ⟨structs, globals, [], none⟩ value
  | behindFn {globals : Frame} {declared : FnDecl} {rest : Program} {place : Env} {value : Expr}
      (later : DeclsEvaluate structs globals rest place value) :
    DeclsEvaluate structs globals (.fn declared :: rest) place value
  | behindVar {globals : Frame} {declared : VarDecl} {type : Ty} {rest : Program} {place : Env}
      {value : Expr} (typed : VarType Same ⟨structs, globals, [], none⟩ declared type)
      (later : DeclsEvaluate structs (globals.bind declared.name.name ⟨type, declared.isConst⟩)
        rest place value) :
    DeclsEvaluate structs globals (.var declared :: rest) place value
  | behindStruct {globals : Frame} {declared : StructDecl} {rest : Program} {place : Env}
      {value : Expr} (later : DeclsEvaluate structs globals rest place value) :
    DeclsEvaluate structs globals (.struct declared :: rest) place value

/-- Judging statements comes to the expression, which has a type there. -/
def Judges (env : Env) (statements : List Stmt) (value : Expr) : Prop :=
  ∃ place type, Evaluates Same env statements place value ∧ HasType Same place value type

variable {Same} {env : Env}

/-- A binary operation has one type at most. -/
theorem BinaryType.unique {operator : BinaryOp} {left right type other : Ty}
    (rule : BinaryType Same operator left right type)
    (otherRule : BinaryType Same operator left right other) : type = other := by
  cases rule with
  | arithmetic isClass =>
    cases otherRule with
    | arithmetic => rfl
    | comparison otherClass | logical otherClass => cases isClass.symm.trans otherClass
  | comparison isClass =>
    cases otherRule with
    | comparison | logical => rfl
    | arithmetic otherClass => cases isClass.symm.trans otherClass
  | logical isClass =>
    cases otherRule with
    | comparison | logical => rfl
    | arithmetic otherClass => cases isClass.symm.trans otherClass

/-- A prefix operation has one type at most. -/
theorem UnaryType.unique {operator : UnaryOp} {operand : Expr} {operandType type other : Ty}
    (rule : UnaryType env operand operator operandType type)
    (otherRule : UnaryType env operand operator operandType other) : type = other := by
  cases rule with
  | negate | not | attempt | attemptUnknown =>
    cases otherRule
    rfl
  | addressOfName named bound =>
    cases otherRule with
    | addressOfName otherNamed otherBound =>
      obtain ⟨rfl, rfl⟩ := Expr.ident.inj (named.symm.trans otherNamed)
      rw [Option.some.inj (bound.symm.trans otherBound)]
    | addressOf unnamed => exact absurd named (unnamed _ _)
  | addressOf unnamed =>
    cases otherRule with
    | addressOfName named => exact absurd named (unnamed _ _)
    | addressOf => rfl

/-- A member has one type at most. -/
theorem MemberType.unique {field : String} {objectType type other : Ty}
    (rule : MemberType env field objectType type)
    (otherRule : MemberType env field objectType other) : type = other := by
  cases rule with
  | field looked declared present =>
    cases otherRule with
    | field otherLooked otherDeclared otherPresent =>
      cases looked <;> cases otherLooked <;>
      · cases Option.some.inj (declared.symm.trans otherDeclared)
        exact Option.some.inj (present.symm.trans otherPresent)
    | length counted => cases looked <;> cases counted
    | unknown => cases looked
  | length counted =>
    cases otherRule with
    | field looked => cases looked <;> cases counted
    | length => rfl
    | unknown => cases counted
  | unknown =>
    cases otherRule with
    | field looked => cases looked
    | length counted => cases counted
    | unknown => rfl

/-- An expression has one type at most. -/
theorem HasType.unique (expression : Expr) {type other : Ty}
    (typed : HasType Same env expression type) (otherTyped : HasType Same env expression other) :
    type = other := by
  cases typed with
  | integer whole =>
    cases otherTyped with
    | integer => rfl
    | fraction point => exact absurd point whole
  | fraction point =>
    cases otherTyped with
    | integer whole => exact absurd point whole
    | fraction => rfl
  | string | bool | null | undefined | structLit | arrayLit =>
    cases otherTyped
    rfl
  | ident bound =>
    cases otherTyped with
    | ident otherBound => rw [Option.some.inj (bound.symm.trans otherBound)]
  | @binary _ _ left right _ _ _ leftTyped rightTyped rule =>
    cases otherTyped with
    | binary otherLeft otherRight otherRule =>
      obtain rfl := HasType.unique left leftTyped otherLeft
      obtain rfl := HasType.unique right rightTyped otherRight
      exact rule.unique otherRule
  | @unary _ _ operand _ _ typed rule =>
    cases otherTyped with
    | unary otherTyped otherRule =>
      obtain rfl := HasType.unique operand typed otherTyped
      exact rule.unique otherRule
  | @call _ callee _ _ _ _ typed _ rule =>
    cases otherTyped with
    | call otherTyped _ otherRule =>
      obtain rfl := HasType.unique callee typed otherTyped
      cases rule <;> cases otherRule <;> rfl
  | @member _ object _ _ _ typed rule =>
    cases otherTyped with
    | member otherTyped otherRule =>
      obtain rfl := HasType.unique object typed otherTyped
      exact rule.unique otherRule
  | @index _ object _ _ _ _ typed _ _ rule =>
    cases otherTyped with
    | index otherTyped _ _ otherRule =>
      obtain rfl := HasType.unique object typed otherTyped
      cases rule <;> cases otherRule <;> rfl
  | @deref _ object _ _ typed rule =>
    cases otherTyped with
    | deref otherTyped otherRule =>
      obtain rfl := HasType.unique object typed otherTyped
      cases rule <;> cases otherRule <;> rfl
  | @unwrap _ object _ _ typed rule =>
    cases otherTyped with
    | unwrap otherTyped otherRule =>
      obtain rfl := HasType.unique object typed otherTyped
      cases rule <;> cases otherRule <;> rfl
  | discard discards =>
    cases otherTyped with
    | discard => rfl
    | assign keeps => exact absurd discards keeps
  | @assign _ _ target _ _ _ keeps _ targetTyped =>
    cases otherTyped with
    | discard discards => exact absurd discards keeps
    | assign _ _ otherTyped => exact HasType.unique target targetTyped otherTyped

/-- Statements do not change the structs. -/
theorem structs_of_stmtsOk {inLoop : Bool} {after : Env} {statements : List Stmt}
    (ok : StmtsOk Same inLoop env statements after) : after.structs = env.structs :=
  StmtsOk.kept Env.structs Env.structs_bind ok

/-- The structs are the same in a statement. -/
theorem Opens.structs {inner : Env} {statement : Stmt} {body : List Stmt}
    (opens : Opens Same env statement inner body) : inner.structs = env.structs := by
  cases opens with
  | forLoop starts =>
    have same := structs_of_stmtsOk starts
    exact same
  | _ => rfl

/-- An expression is judged with the structs of its statement. -/
theorem Has.structs {place : Env} {statement : Stmt} {value : Expr}
    (has : Has Same env statement place value) : place.structs = env.structs := by
  cases has with
  | forLoop starts member =>
    have same := structs_of_stmtsOk starts
    exact same
  | _ => rfl

/-- The structs are the same wherever judging statements comes to. -/
theorem Evaluates.structs {place : Env} {statements : List Stmt} {value : Expr}
    (evaluates : Evaluates Same env statements place value) : place.structs = env.structs := by
  induction evaluates with
  | own has => exact has.structs
  | inside opens inside inductionHypothesis => exact inductionHypothesis.trans opens.structs
  | behind head later inductionHypothesis =>
    exact inductionHypothesis.trans (StmtOk.kept Env.structs Env.structs_bind head)

/-- The structs of the program are those of every environment in it. -/
theorem DeclsEvaluate.structs {structs : String → Option Fields} {globals : Frame}
    {program : Program} {place : Env} {value : Expr}
    (evaluates : DeclsEvaluate Same structs globals program place value) :
    place.structs = structs := by
  induction evaluates with
  | fn inside => exact inside.structs
  | var given => rfl
  | behindFn later inductionHypothesis | behindVar typed later inductionHypothesis
  | behindStruct later inductionHypothesis => exact inductionHypothesis

section Judges

variable {inner between : Env} {first : Stmt} {rest body : List Stmt} {value : Expr}

/-- Judging statements comes to an expression that is a part of the first and has a type. -/
theorem Judges.own {place : Env} {type : Ty} (has : Has Same env first place value)
    (typed : HasType Same place value type) : Judges Same env (first :: rest) value :=
  ⟨place, type, .own has, typed⟩

/-- It comes to what judging the statements inside the first comes to. -/
theorem Judges.inside (opens : Opens Same env first inner body)
    (judges : Judges Same inner body value) : Judges Same env (first :: rest) value := by
  obtain ⟨place, type, evaluates, typed⟩ := judges
  exact ⟨place, type, .inside opens evaluates, typed⟩

/-- It comes to what judging those behind the first comes to. -/
theorem Judges.behind {inLoop : Bool} (head : StmtOk Same inLoop env first between)
    (judges : Judges Same between rest value) : Judges Same env (first :: rest) value := by
  obtain ⟨place, type, evaluates, typed⟩ := judges
  exact ⟨place, type, .behind head evaluates, typed⟩

end Judges

/-- The value that a variable is given has a type. -/
theorem VarType.hasType {declared : VarDecl} {type : Ty}
    (typed : VarType Same env declared type) {value : Expr} (given : declared.init = some value) :
    ∃ actual, HasType Same env value actual := by
  cases typed with
  | stated _ absent => cases absent.symm.trans given
  | checked _ isValue _ typed _ | inferred _ isValue typed =>
    obtain rfl := Option.some.inj (isValue.symm.trans given)
    exact ⟨_, typed⟩

/-- Judging a `for` comes to what is tested and to what is done after a turn. -/
theorem judges_header {inLoop : Bool} {header : Env} {position : Position}
    {init : Option Stmt} {condition step : Option Expr} {body : Block} {value : Expr}
    (starts : StmtsOk Same inLoop env.inner init.toList header)
    (tested : ∀ test ∈ condition, Condition Same header test)
    (stepped : ∀ update ∈ step, ∃ type, HasType Same header update type)
    (member : value ∈ condition.toList ++ step.toList) (rest : List Stmt) :
    Judges Same env (.forLoop position init condition step body :: rest) value := by
  have typed : ∃ type, HasType Same header value type := by
    rcases List.mem_append.mp member with isTest | isStep
    · obtain ⟨type, typed, -⟩ := tested value (Option.mem_toList.mp isTest)
      exact ⟨type, typed⟩
    · exact stepped value (Option.mem_toList.mp isStep)
  obtain ⟨type, typed⟩ := typed
  exact .own (.forLoop starts member) typed

mutual

/-- Judging a statement that is in order comes to all the expressions at its sites. -/
theorem judges_of_stmtOk {inLoop : Bool} {env after : Env} (statement : Stmt)
    (ok : StmtOk Same inLoop env statement after) (layers : List Layer) (loops : Nat)
    {site : Site} (member : site ∈ statement.sites layers loops) {value : Expr}
    (here : site.item = .value value) (rest : List Stmt) :
    Judges Same env (statement :: rest) value := by
  cases statement with
  | block position body =>
    cases ok with
    | block inner => exact (judges_of_stmtsOk body inner _ _ member here).inside .block
  | comptime position body =>
    cases ok with
    | comptime inner => exact (judges_of_stmtsOk body inner _ _ member here).inside .comptime
  | returns position given =>
    cases ok with
    | returnNothing => cases member
    | returnValue inside valued typed =>
      obtain rfl := List.mem_singleton.mp member
      cases here
      exact .own .returns typed
  | branch position condition body otherwise =>
    cases ok with
    | branch tested taken last =>
      rw [Stmt.sites, List.mem_append, List.mem_cons] at member
      rcases member with (rfl | inBody) | inElse
      · cases here
        obtain ⟨type, typed, -⟩ := tested
        exact .own .branch typed
      · exact (judges_of_stmtsOk body taken _ _ inBody here).inside .taken
      · exact (judges_of_optionalOk otherwise last _ _ inElse here).inside .passed
  | whileLoop position condition body =>
    cases ok with
    | whileLoop tested inner =>
      rcases List.mem_cons.mp member with rfl | inBody
      · cases here
        obtain ⟨type, typed, -⟩ := tested
        exact .own .whileLoop typed
      · exact (judges_of_stmtsOk body inner _ _ inBody here).inside .whileLoop
  | forLoop position init condition step body =>
    cases ok with
    | forLoop starts tested stepped inner =>
      rw [Stmt.sites, List.mem_append, List.mem_append] at member
      rcases member with (inInit | isPart) | inBody
      · exact (judges_of_optionalOk init starts _ _ inInit here).inside .header
      · obtain ⟨part, inHeader, rfl⟩ := List.mem_map.mp isPart
        cases here
        exact judges_header starts tested stepped inHeader rest
      · exact (judges_of_stmtsOk body inner _ _ inBody here).inside (.forLoop starts)
  | breakLoop position | continueLoop position =>
    obtain rfl := List.mem_singleton.mp member
    cases here
  | expr position given =>
    cases ok with
    | expr typed =>
      obtain rfl := List.mem_singleton.mp member
      cases here
      exact .own .expr typed
  | declare position declared =>
    cases ok with
    | declare typed fresh =>
      rcases List.mem_append.mp member with isInit | isName
      · obtain ⟨given, isGiven, rfl⟩ := List.mem_map.mp isInit
        cases here
        have isInit := Option.mem_toList.mp isGiven
        obtain ⟨type, typed⟩ := typed.hasType isInit
        exact .own (.declare isInit) typed
      · obtain rfl := List.mem_singleton.mp isName
        cases here

/-- So does judging several. -/
theorem judges_of_stmtsOk {inLoop : Bool} {env after : Env} (statements : List Stmt)
    (ok : StmtsOk Same inLoop env statements after) (layers : List Layer) (loops : Nat)
    {site : Site} (member : site ∈ Stmt.sitesOfAll layers loops statements) {value : Expr}
    (here : site.item = .value value) : Judges Same env statements value := by
  match statements with
  | [] => cases member
  | first :: rest =>
    cases ok with
    | cons head tail =>
      rcases List.mem_append.mp member with inFirst | inRest
      · exact judges_of_stmtOk first head _ _ inFirst here rest
      · exact (judges_of_stmtsOk rest tail _ _ inRest here).behind head

/-- So does judging one that may be absent. -/
theorem judges_of_optionalOk {inLoop : Bool} {env after : Env} (optional : Option Stmt)
    (ok : StmtsOk Same inLoop env optional.toList after) (layers : List Layer) (loops : Nat)
    {site : Site} (member : site ∈ Stmt.sitesOfOption layers loops optional) {value : Expr}
    (here : site.item = .value value) : Judges Same env optional.toList value := by
  match optional with
  | none => cases member
  | some inner =>
    cases ok with
    | cons head tail => exact judges_of_stmtOk inner head _ _ member here []

end

/-- The sites of parameters are no expressions. -/
theorem declared_of_mem_paramSites {earlier : Layer} {params : List Param} {site : Site}
    (member : site ∈ paramSites earlier params) : ∃ name, site.item = .declared name := by
  induction params generalizing earlier with
  | nil => cases member
  | cons param rest inductionHypothesis =>
    rcases List.mem_cons.mp member with rfl | later
    · exact ⟨_, rfl⟩
    · exact inductionHypothesis later

/-- Judging declarations that are in order comes to all the expressions at their sites, and each has
a type there. -/
theorem exists_evaluates {structs : String → Option Fields} {globals : Frame} {program : Program}
    (ok : DeclsOk Same structs globals program) {site : Site} (member : site ∈ program.sites)
    {value : Expr} (here : site.item = .value value) :
    ∃ place type, DeclsEvaluate Same structs globals program place value ∧
      HasType Same place value type := by
  induction ok with
  | nil => cases member
  | @fn globals declared rest head tail inductionHypothesis =>
    rcases List.mem_append.mp member with inFirst | inRest
    · rcases List.mem_append.mp inFirst with isParam | inBody
      · obtain ⟨name, isName⟩ := declared_of_mem_paramSites isParam
        cases isName.symm.trans here
      · obtain ⟨after, body⟩ := head.body
        obtain ⟨place, type, evaluates, typed⟩ := judges_of_stmtsOk _ body _ _ inBody here
        exact ⟨place, type, .fn evaluates, typed⟩
    · obtain ⟨place, type, evaluates, typed⟩ := inductionHypothesis inRest
      exact ⟨place, type, .behindFn evaluates, typed⟩
  | @var globals declared type rest typed tail inductionHypothesis =>
    rcases List.mem_append.mp member with inFirst | inRest
    · obtain ⟨given, isGiven, rfl⟩ := List.mem_map.mp inFirst
      cases here
      have isInit := Option.mem_toList.mp isGiven
      obtain ⟨actual, hasType⟩ := typed.hasType isInit
      exact ⟨_, actual, .var isInit, hasType⟩
    · obtain ⟨place, type, evaluates, hasType⟩ := inductionHypothesis inRest
      exact ⟨place, type, .behindVar typed evaluates, hasType⟩
  | struct head tail inductionHypothesis =>
    rcases List.mem_append.mp member with inFirst | inRest
    · cases inFirst
    · obtain ⟨place, type, evaluates, typed⟩ := inductionHypothesis inRest
      exact ⟨place, type, .behindStruct evaluates, typed⟩

end SystemsLang.Typing
