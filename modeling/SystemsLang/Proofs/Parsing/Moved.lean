import SystemsLang.Proofs.Parsing.Lockstep
import SystemsLang.Proofs.Typing.Unplacing

/-!
# Trees of tokens that stand elsewhere

With its tokens moved a program has the same tree with its positions moved, or the same error at the
moved token (`lockstep_program`). There is one lemma for each parser of the grammar.
-/

namespace SystemsLang

namespace Typing.Relabeling

open Syntax

variable (labels : Relabeling)

/-- Moving a list of expressions is moving each of them. -/
theorem exprs_eq_map (values : List Expr) :
    labels.exprs values = values.map labels.expr := by
  induction values with
  | nil => rfl
  | cons first rest inductionHypothesis => rw [exprs, inductionHypothesis, List.map_cons]

/-- Moving a list of statements is moving each of them. -/
theorem stmts_eq_map (statements : List Stmt) :
    labels.stmts statements = statements.map labels.stmt := by
  induction statements with
  | nil => rfl
  | cons first rest inductionHypothesis => rw [stmts, inductionHypothesis, List.map_cons]

/-- Moving a statement that may be absent is moving it if it is there. -/
theorem optionalStmt_eq_map (optional : Option Stmt) :
    labels.optionalStmt optional = optional.map labels.stmt := by
  cases optional <;> rfl

/-- An expression that has been moved goes to the same place as the expression. -/
theorem expr_moveTo (position : Position) (value : Expr) :
    labels.expr (value.moveTo position) = (labels.expr value).moveTo (labels.place position) := by
  cases value <;> rfl

/-- Whether an expression may be assigned to does not depend on positions. -/
theorem isPlace_expr (value : Expr) :
    (labels.expr value).isPlace = value.isPlace := by
  cases value <;> rfl

end Typing.Relabeling

namespace Parser

open Token (Kind)
open Syntax
open Typing (Relabeling)

variable {place : Position → Position} {pool : Token → Prop}

/-- A name that is moved has the same text. -/
theorem lockstep_ident :
    Lockstep place pool (MovedTo (Relabeling.moving place).ident) ident ident :=
  (lockstep_expect _).token fun _ _ => lockstep_pure ⟨⟩

/-- The length of an array has no position. -/
theorem lockstep_arrayLength : Lockstep place pool Eq arrayLength arrayLength := by
  refine (lockstep_expect _).token fun token member => ?_
  rw [Token.text_moved]
  split
  · exact lockstep_pure rfl
  · exact lockstep_failAt _ ⟨member⟩

/-- A type expression moves with its tokens. The induction is on the room, so every level that is
entered has the claim below it. -/
theorem lockstep_typeExpr (room : Nat) :
    Lockstep place pool (MovedTo (Relabeling.moving place).typeExpr) (typeExpr room)
      (typeExpr room) := by
  induction room with
  | zero => exact lockstep_fail _
  | succ room inner =>
  refine lockstep_advance.token fun token member => ?_
  rw [Token.kind_moved]
  split
  · exact lockstep_pure ⟨⟩
  · exact lockstep_pure ⟨⟩
  · exact (lockstep_take _).answer fun _ => inner.value fun _ => lockstep_pure ⟨⟩
  · refine (lockstep_take _).answer fun _ => .ite ?_ ?_
    · exact (lockstep_take _).answer fun _ => inner.value fun _ => lockstep_pure ⟨⟩
    · exact lockstep_arrayLength.answer fun _ => (lockstep_skip _).answer fun _ =>
        inner.value fun _ => lockstep_pure ⟨⟩
  · exact inner.value fun _ => lockstep_pure ⟨⟩
  · exact inner.value fun _ => lockstep_pure ⟨⟩
  · exact lockstep_failAt _ ⟨member⟩

/-- The name and the value of a field, both moved. -/
def movedField (place : Position → Position) (given : Ident × Expr) : Ident × Expr :=
  ((Relabeling.moving place).ident given.1, (Relabeling.moving place).expr given.2)

/-- Moving the list of fields in a struct literal is moving each of them. -/
theorem fieldValues_eq_map (values : List (Ident × Expr)) :
    (Relabeling.moving place).fieldValues values = values.map (movedField place) := by
  induction values with
  | nil => rfl
  | cons first rest inductionHypothesis =>
    rw [Relabeling.fieldValues, inductionHypothesis]
    rfl

section Operands

variable {value : Parser Expr} {sub : Nat → Parser Expr} {type : Parser TypeExpr}
  (values : Lockstep place pool (MovedTo (Relabeling.moving place).expr) value value)
  (subs : ∀ least, Lockstep place pool (MovedTo (Relabeling.moving place).expr) (sub least)
    (sub least))
  (types : Lockstep place pool (MovedTo (Relabeling.moving place).typeExpr) type type)

/-- Whether a struct literal follows is seen from kinds of tokens. -/
theorem lockstep_opensStructLit : Lockstep place pool Eq opensStructLit opensStructLit :=
  lockstep_peek.token fun _ _ => (lockstep_peekAt 1).token fun _ _ => lockstep_pure rfl

include values in
/-- A field of a struct literal moves with its name and its value. -/
theorem lockstep_fieldInit :
    Lockstep place pool (MovedTo (movedField place)) (fieldInit value) (fieldInit value) :=
  (lockstep_skip _).answer fun _ => lockstep_ident.value fun _ =>
    (lockstep_skip _).answer fun _ => values.value fun _ => lockstep_pure ⟨⟩

include values in
/-- A struct literal takes its position from the name in front of it. -/
theorem lockstep_structLit (name : Ident) :
    Lockstep place pool (MovedTo (Relabeling.moving place).expr) (structLit value name)
      (structLit value ((Relabeling.moving place).ident name)) := by
  refine (lockstep_skip _).answer fun _ => ?_
  refine (lockstep_commaList _ (lockstep_fieldInit values)).value fun fields => ?_
  refine (lockstep_skip _).answer fun _ => lockstep_pure (.of_eq ?_)
  rw [Relabeling.expr, fieldValues_eq_map]
  rfl

/-- Whether an array literal leaves its length open is seen from kinds of tokens. -/
theorem lockstep_openLength : Lockstep place pool Eq openLength openLength := by
  refine lockstep_peek.token fun token _ => ?_
  rw [Token.kind_moved, Token.text_moved]
  refine .ite ?_ ?_
  · exact (lockstep_discard lockstep_advance).answer fun _ => lockstep_pure rfl
  · exact lockstep_arrayLength.answer fun _ => lockstep_pure rfl

include values types in
/-- An array literal takes the position that is handed to it. -/
theorem lockstep_arrayLit (position : Position) :
    Lockstep place pool (MovedTo (Relabeling.moving place).expr) (arrayLit value type position)
      (arrayLit value type (place position)) := by
  refine lockstep_openLength.answer fun length => (lockstep_skip _).answer fun _ => ?_
  refine types.value fun elementType => (lockstep_skip _).answer fun _ => ?_
  refine (lockstep_commaList _ values).value fun elements => ?_
  refine (lockstep_skip _).answer fun _ => lockstep_pure (.of_eq ?_)
  rw [Relabeling.expr, Relabeling.exprs_eq_map]
  rfl

include subs types in
/-- An operand moves with its tokens, if the parts inside of it do. -/
theorem lockstep_operand :
    Lockstep place pool (MovedTo (Relabeling.moving place).expr) (operand sub type)
      (operand sub type) := by
  refine lockstep_advance.token fun token member => ?_
  rw [Token.kind_moved]
  split
  · exact lockstep_opensStructLit.answer fun _ =>
      .ite (lockstep_structLit (subs 0) _) (lockstep_pure ⟨⟩)
  · exact lockstep_pure ⟨⟩
  · exact lockstep_pure ⟨⟩
  · exact lockstep_pure ⟨⟩
  · exact lockstep_pure ⟨⟩
  · exact lockstep_pure ⟨⟩
  · exact lockstep_pure ⟨⟩
  · refine (subs 0).value fun inner => (lockstep_skip _).answer fun _ => lockstep_pure (.of_eq ?_)
    rw [Relabeling.expr_moveTo]
    rfl
  · exact lockstep_arrayLit (subs 0) types _
  · split
    · exact (subs _).value fun _ => lockstep_pure ⟨⟩
    · exact lockstep_failAt _ ⟨member⟩

/-- A member, a dereference or an unwrapping has the position of what it is made from. -/
theorem lockstep_afterDot (left : Expr) :
    Lockstep place pool (MovedTo (Relabeling.moving place).expr) (afterDot left)
      (afterDot ((Relabeling.moving place).expr left)) := by
  refine lockstep_advance.token fun token member => ?_
  rw [Token.kind_moved, Relabeling.position_expr]
  split
  · exact lockstep_pure ⟨⟩
  · exact lockstep_pure ⟨⟩
  · exact lockstep_pure ⟨⟩
  · exact lockstep_failAt _ ⟨member⟩

include subs in
/-- What extends an operand leaves it at its position, which is where the whole expression stands.
-/
theorem lockstep_extend (form : Extension) (left : Expr) :
    Lockstep place pool (MovedTo (Relabeling.moving place).expr) (extend sub form left)
      (extend sub form ((Relabeling.moving place).expr left)) := by
  refine lockstep_advance.token fun token member => ?_
  rw [Relabeling.position_expr, Relabeling.isPlace_expr]
  cases form with
  | binary operator => exact (subs _).value fun _ => lockstep_pure ⟨⟩
  | assign operator =>
    exact .ite ((subs _).value fun _ => lockstep_pure ⟨⟩) (lockstep_failAt _ ⟨member⟩)
  | dot => exact lockstep_afterDot left
  | call =>
    refine (lockstep_commaList _ (subs 0)).value fun arguments => ?_
    refine (lockstep_skip _).answer fun _ => lockstep_pure (.of_eq ?_)
    rw [Relabeling.expr, Relabeling.exprs_eq_map]
  | index => exact (subs 0).value fun _ => (lockstep_skip _).answer fun _ => lockstep_pure ⟨⟩

end Operands

/-- Which operator follows is decided by its kind and how tight it binds. -/
theorem lockstep_extensionAbove (least : Nat) :
    Lockstep place pool Eq (extensionAbove least) (extensionAbove least) :=
  lockstep_peek.token fun _ _ => lockstep_pure rfl

/-- Extending an operand is in lockstep if the expressions behind the extensions are. -/
theorem lockstep_extensions {room least : Nat}
    (subs : ∀ room' < room, ∀ least, Lockstep place pool (MovedTo (Relabeling.moving place).expr)
      (expr room' least) (expr room' least)) (left : Expr) :
    Lockstep place pool (MovedTo (Relabeling.moving place).expr) (extensions room least left)
      (extensions room least ((Relabeling.moving place).expr left)) := by
  induction room generalizing left with
  | zero =>
    refine (lockstep_extensionAbove least).answer fun form => ?_
    cases form with
    | none => exact lockstep_pure ⟨⟩
    | some form => exact lockstep_fail _
  | succ room inductionHypothesis =>
    refine (lockstep_extensionAbove least).answer fun form => ?_
    cases form with
    | none => exact lockstep_pure ⟨⟩
    | some form =>
      have longer := lockstep_extend (subs room (Nat.lt_succ_self room)) form left
      exact longer.value fun extended =>
        inductionHypothesis (fun room' less => subs room' (Nat.lt_succ_of_lt less)) extended

/-- An expression moves with its tokens, at any room and whatever operators may stand in it. -/
theorem lockstep_expr (room least : Nat) :
    Lockstep place pool (MovedTo (Relabeling.moving place).expr) (expr room least)
      (expr room least) := by
  induction room using Nat.strongRecOn generalizing least with
  | _ room inductionHypothesis =>
  cases room with
  | zero => exact lockstep_fail _
  | succ room =>
    have subs := inductionHypothesis room (Nat.lt_succ_self room)
    refine (lockstep_operand subs (lockstep_typeExpr room)).value fun first => ?_
    exact lockstep_extensions
      (fun room' less => inductionHypothesis room' (Nat.lt_succ_of_lt less)) first

/-- A variable declaration takes the position that is handed to it. -/
theorem lockstep_varDecl (room : Nat) (isPub : Bool) (position : Position) :
    Lockstep place pool (MovedTo (Relabeling.moving place).varDecl) (varDecl room isPub position)
      (varDecl room isPub (place position)) := by
  refine (lockstep_expectAny _).token fun first _ => lockstep_ident.value fun name => ?_
  refine (lockstep_optionalAfter _ (lockstep_typeExpr room)).value fun type => ?_
  refine (lockstep_optionalAfter _ (lockstep_expr room 0)).value fun init => ?_
  exact (lockstep_skip _).answer fun _ => lockstep_pure ⟨⟩

/-- An expression that may be left out in front of a closing token is left out in both. -/
theorem lockstep_exprUnless (room : Nat) (closing : Kind) :
    Lockstep place pool (MovedTo (Option.map (Relabeling.moving place).expr))
      (exprUnless room closing) (exprUnless room closing) :=
  (lockstep_nextIs _).answer fun _ =>
    .ite (lockstep_pure ⟨⟩) ((lockstep_expr room 0).value fun _ => lockstep_pure ⟨⟩)

/-- A condition is an expression in parentheses, which leave no trace. -/
theorem lockstep_condition (room : Nat) :
    Lockstep place pool (MovedTo (Relabeling.moving place).expr) (condition room)
      (condition room) :=
  (lockstep_skip _).answer fun _ => (lockstep_expr room 0).value fun _ =>
    (lockstep_skip _).answer fun _ => lockstep_pure ⟨⟩

/-- An expression as a statement takes the position that is handed to it. -/
theorem lockstep_exprStmt (room : Nat) (position : Position) :
    Lockstep place pool (MovedTo (Relabeling.moving place).stmt) (exprStmt room position)
      (exprStmt room (place position)) :=
  (lockstep_expr room 0).value fun _ => (lockstep_skip _).answer fun _ => lockstep_pure ⟨⟩

/-- The first part of a loop header is a declaration, an expression, or left out. -/
theorem lockstep_forInit (room : Nat) :
    Lockstep place pool (MovedTo (Option.map (Relabeling.moving place).stmt)) (forInit room)
      (forInit room) := by
  have declared (position : Position) : Lockstep place pool
      (MovedTo (Option.map (Relabeling.moving place).stmt))
      (do return some (.declare position (← varDecl room false position)))
      (do return some (.declare (place position) (← varDecl room false (place position)))) :=
    (lockstep_varDecl room false position).value fun _ => lockstep_pure ⟨⟩
  refine lockstep_peek.token fun first _ => ?_
  rw [Token.kind_moved]
  split
  · exact (lockstep_discard lockstep_advance).answer fun _ => lockstep_pure ⟨⟩
  · exact declared _
  · exact declared _
  · exact (lockstep_exprStmt room _).value fun _ => lockstep_pure ⟨⟩

section Blocks

variable {room : Nat} {body : Parser Block} {chained : Parser Stmt}
  (bodies : Lockstep place pool (MovedTo (List.map (Relabeling.moving place).stmt)) body body)
  (chains : Lockstep place pool (MovedTo (Relabeling.moving place).stmt) chained chained)

include bodies in
/-- A loop moves with its tokens, if its body does. -/
theorem lockstep_forStmt :
    Lockstep place pool (MovedTo (Relabeling.moving place).stmt) (forStmt room body)
      (forStmt room body) := by
  refine (lockstep_expect _).token fun first _ => (lockstep_skip _).answer fun _ => ?_
  refine (lockstep_forInit room).value fun init => ?_
  refine (lockstep_exprUnless room _).value fun test => (lockstep_skip _).answer fun _ => ?_
  refine (lockstep_exprUnless room _).value fun step => (lockstep_skip _).answer fun _ => ?_
  refine bodies.value fun block => lockstep_pure (.of_eq ?_)
  rw [Relabeling.stmt, Relabeling.stmts_eq_map, Relabeling.optionalStmt_eq_map]
  rfl

include bodies chains in
/-- A statement moves with its tokens, if blocks and chained conditionals inside of it do. -/
theorem lockstep_stmtWith :
    Lockstep place pool (MovedTo (Relabeling.moving place).stmt) (stmtWith room body chained)
      (stmtWith room body chained) := by
  have skip : Lockstep place pool Eq (discard advance) (discard advance) :=
    lockstep_discard lockstep_advance
  have declared (position : Position) : Lockstep place pool
      (MovedTo (Relabeling.moving place).stmt)
      (do return .declare position (← varDecl room false position))
      (do return .declare (place position) (← varDecl room false (place position))) :=
    (lockstep_varDecl room false position).value fun _ => lockstep_pure ⟨⟩
  refine lockstep_peek.token fun first _ => ?_
  rw [Token.kind_moved]
  split
  · refine bodies.value fun block => lockstep_pure (.of_eq ?_)
    rw [Relabeling.stmt, Relabeling.stmts_eq_map]
    rfl
  · exact skip.answer fun _ => (lockstep_exprUnless room _).value fun _ =>
      (lockstep_skip _).answer fun _ => lockstep_pure ⟨⟩
  · exact chains
  · refine skip.answer fun _ => (lockstep_condition room).value fun test => ?_
    refine bodies.value fun block => lockstep_pure (.of_eq ?_)
    rw [Relabeling.stmt, Relabeling.stmts_eq_map]
    rfl
  · exact lockstep_forStmt bodies
  · exact skip.answer fun _ => (lockstep_skip _).answer fun _ => lockstep_pure ⟨⟩
  · exact skip.answer fun _ => (lockstep_skip _).answer fun _ => lockstep_pure ⟨⟩
  · refine skip.answer fun _ => bodies.value fun block => lockstep_pure (.of_eq ?_)
    rw [Relabeling.stmt, Relabeling.stmts_eq_map]
    rfl
  · exact declared _
  · exact declared _
  · exact lockstep_exprStmt room _

include bodies chains in
/-- What follows an `else` is a block or another conditional. -/
theorem lockstep_afterElse :
    Lockstep place pool (MovedTo (Relabeling.moving place).stmt) (afterElse body chained)
      (afterElse body chained) := by
  refine (lockstep_nextIs _).answer fun _ => .ite chains ?_
  refine lockstep_peek.token fun opening _ => ?_
  refine bodies.value fun block => lockstep_pure (.of_eq ?_)
  rw [Relabeling.stmt, Relabeling.stmts_eq_map]
  rfl

end Blocks

/-- A block and an `if` use the room below them only, so the induction is on the room of both. -/
theorem lockstep_block_branch (room : Nat) :
    Lockstep place pool (MovedTo (List.map (Relabeling.moving place).stmt)) (block room)
        (block room) ∧
      Lockstep place pool (MovedTo (Relabeling.moving place).stmt) (branch room) (branch room) := by
  induction room with
  | zero => exact ⟨lockstep_fail _, lockstep_fail _⟩
  | succ room inductionHypothesis =>
    obtain ⟨bodies, chains⟩ := inductionHypothesis
    constructor
    · refine (lockstep_skip _).answer fun _ => ?_
      refine (lockstep_manyUntil _ (lockstep_stmtWith bodies chains)).value fun statements => ?_
      exact (lockstep_skip _).answer fun _ => lockstep_pure ⟨⟩
    · refine (lockstep_expect _).token fun first _ => ?_
      refine (lockstep_condition room).value fun test => bodies.value fun block => ?_
      refine (lockstep_optionalAfter _ (lockstep_afterElse bodies chains)).value fun last => ?_
      refine lockstep_pure (.of_eq ?_)
      rw [Relabeling.stmt, Relabeling.stmts_eq_map, Relabeling.optionalStmt_eq_map]
      rfl

/-- A block is a list of statements that move. -/
theorem lockstep_block (room : Nat) :
    Lockstep place pool (MovedTo (List.map (Relabeling.moving place).stmt)) (block room)
      (block room) :=
  (lockstep_block_branch room).1

/-- A parameter moves with its name and its type. -/
theorem lockstep_param (room : Nat) :
    Lockstep place pool (MovedTo (Relabeling.moving place).param) (param room) (param room) := by
  refine lockstep_peek.token fun first _ => (lockstep_take _).answer fun isComptime => ?_
  refine lockstep_ident.value fun name => (lockstep_skip _).answer fun _ => ?_
  exact (lockstep_typeExpr room).value fun _ => lockstep_pure ⟨⟩

/-- The modifier of a function has no position. -/
theorem lockstep_fnModifier : Lockstep place pool Eq fnModifier fnModifier := by
  refine lockstep_peek.token fun first _ => ?_
  rw [Token.kind_moved]
  split
  · exact (lockstep_discard lockstep_advance).answer fun _ => lockstep_pure rfl
  · exact (lockstep_discard lockstep_advance).answer fun _ => lockstep_pure rfl
  · exact lockstep_pure rfl

/-- A function declaration takes the position that is handed to it. -/
theorem lockstep_fnDecl (room : Nat) (isPub : Bool) (position : Position) :
    Lockstep place pool (MovedTo (Relabeling.moving place).fnDecl) (fnDecl room isPub position)
      (fnDecl room isPub (place position)) := by
  refine lockstep_fnModifier.answer fun modifier => (lockstep_skip _).answer fun _ => ?_
  refine lockstep_ident.value fun name => (lockstep_skip _).answer fun _ => ?_
  refine (lockstep_commaList _ (lockstep_param room)).value fun params => ?_
  refine (lockstep_skip _).answer fun _ => (lockstep_typeExpr room).value fun returnType => ?_
  refine (lockstep_block room).value fun body => lockstep_pure (.of_eq ?_)
  rw [Relabeling.fnDecl, Relabeling.stmts_eq_map]
  rfl

/-- A field moves with its name and its type. -/
theorem lockstep_field (room : Nat) :
    Lockstep place pool (MovedTo (Relabeling.moving place).field) (field room) (field room) := by
  refine lockstep_peek.token fun first _ => lockstep_ident.value fun name => ?_
  refine (lockstep_skip _).answer fun _ => ?_
  exact (lockstep_typeExpr room).value fun _ => lockstep_pure ⟨⟩

/-- A struct declaration takes the position that is handed to it. -/
theorem lockstep_structDecl (room : Nat) (isPub : Bool) (position : Position) :
    Lockstep place pool (MovedTo (Relabeling.moving place).structDecl)
      (structDecl room isPub position) (structDecl room isPub (place position)) := by
  refine (lockstep_skip _).answer fun _ => lockstep_ident.value fun name => ?_
  refine (lockstep_skip _).answer fun _ => (lockstep_skip _).answer fun _ => ?_
  refine (lockstep_skip _).answer fun _ => ?_
  refine (lockstep_commaList _ (lockstep_field room)).value fun fields => ?_
  exact (lockstep_skip _).answer fun _ => (lockstep_skip _).answer fun _ => lockstep_pure ⟨⟩

/-- Whether a declaration defines a struct is seen from kinds of tokens. -/
theorem lockstep_opensStruct : Lockstep place pool Eq opensStruct opensStruct :=
  (lockstep_peekAt 1).token fun _ _ => (lockstep_peekAt 2).token fun _ _ =>
    (lockstep_peekAt 3).token fun _ _ => lockstep_pure rfl

/-- A declaration moves with its first token, whichever form it has. -/
theorem lockstep_decl (room : Nat) :
    Lockstep place pool (MovedTo (Relabeling.moving place).decl) (decl room) (decl room) := by
  have function (isPub : Bool) (position : Position) : Lockstep place pool
      (MovedTo (Relabeling.moving place).decl) (do return .fn (← fnDecl room isPub position))
      (do return .fn (← fnDecl room isPub (place position))) :=
    (lockstep_fnDecl room isPub position).value fun _ => lockstep_pure ⟨⟩
  have binding (isPub : Bool) (position : Position) : Lockstep place pool
      (MovedTo (Relabeling.moving place).decl) (do return .var (← varDecl room isPub position))
      (do return .var (← varDecl room isPub (place position))) :=
    (lockstep_varDecl room isPub position).value fun _ => lockstep_pure ⟨⟩
  refine lockstep_peek.token fun first _ => (lockstep_take _).answer fun isPub => ?_
  refine lockstep_peek.token fun word _ => ?_
  rw [Token.kind_moved]
  split
  · exact function isPub _
  · exact function isPub _
  · exact function isPub _
  · refine lockstep_opensStruct.answer fun _ => .ite ?_ (binding isPub _)
    exact (lockstep_structDecl room isPub _).value fun _ => lockstep_pure ⟨⟩
  · exact binding isPub _
  · exact lockstep_fail _

/-- Parsing moved tokens is in lockstep with parsing the tokens. -/
theorem lockstep_program (room : Nat) :
    Lockstep place pool (MovedTo (Relabeling.moving place).program) (program room)
      (program room) :=
  lockstep_manyUntil _ (lockstep_decl room)

end Parser

end SystemsLang
