import SystemsLang.Proofs.Parsing.CompleteProgram
import SystemsLang.Proofs.Parsing.SettledExpr

/-!
# Statements, declarations and programs settle

Most of these parsers look at one token to see what begins there. A declaration that begins with
`const` looks at three more to tell a struct from a constant, but neither of the two can end before
the tokens that were looked at (`settles_structOrConstant`), so it settles like all the others.
-/

namespace SystemsLang.Parser

open Token (Kind)
open Syntax

variable {ending ending' : Token} {tokens others rest : List Token}

/-- What stands behind the name of a variable or a constant. -/
def bindingBehind (room : Nat) (isPub isConst : Bool) (name : Ident) (position : Position) :
    Parser VarDecl := do
  let type ← optionalAfter .colon (typeExpr room)
  let init ← optionalAfter .assign (expr room 0)
  discard (expect .semicolon)
  return ⟨isPub, isConst, name, type, init, position⟩

/-- What stands behind the name of a constant or a variable settles. -/
theorem settling_bindingBehind (room : Nat) (isPub isConst : Bool) (name : Ident)
    (position : Position) : Settling (bindingBehind room isPub isConst name position) := by
  refine ((settling_typeExpr room).optionalAfter (by decide)).bind fun _ => ?_
  refine ((settling_expr room 0).optionalAfter (by decide)).bind fun _ => ?_
  exact (settling_skip (by decide)).bind fun _ => settling_pure _

/-- A variable declaration settles. -/
theorem settling_varDecl (room : Nat) (isPub : Bool) (position : Position) :
    Settling (varDecl room isPub position) := by
  refine (settling_expectAny (by decide)).bind fun first => settling_ident.bind fun name => ?_
  exact settling_bindingBehind room isPub _ name position

/-- So it does if it is wrapped in a statement or a declaration. -/
theorem settling_declared {α : Type} (room : Nat) (isPub : Bool) (position : Position)
    (wrap : VarDecl → α) : Settling (do return wrap (← varDecl room isPub position)) :=
  (settling_varDecl room isPub position).bind fun declared => settling_pure (wrap declared)

/-- An expression that may be left out settles, with a look at the token that would close. -/
theorem settling_exprUnless (room : Nat) (closing : Kind) : Settling (exprUnless room closing) :=
  (settling_nextIs closing).bind fun _ =>
    .ite (settling_pure _) ((settling_expr room 0).bind fun _ => settling_pure _)

/-- A condition settles. -/
theorem settling_condition (room : Nat) : Settling (condition room) :=
  (settling_skip (by decide)).bind fun _ => (settling_expr room 0).bind fun _ =>
    (settling_skip (by decide)).bind fun _ => settling_pure _

/-- An expression as a statement settles. -/
theorem settling_exprStmt (room : Nat) (position : Position) : Settling (exprStmt room position) :=
  (settling_expr room 0).bind fun _ => (settling_skip (by decide)).bind fun _ => settling_pure _

/-- The first part of a loop header settles in each of its three forms. -/
theorem settling_forInit (room : Nat) : Settling (forInit room) := by
  refine .peek fun ending tokens isEnding => ?_
  split
  · rename_i same
    exact .skip isEnding (usable_of_kind same (by decide)) (settling_pure none)
  · exact settling_declared _ _ _ _ ending tokens isEnding
  · exact settling_declared _ _ _ _ ending tokens isEnding
  · exact ((settling_exprStmt room _).bind fun _ => settling_pure _) ending tokens isEnding

section Blocks

variable {room : Nat} {body : Parser Block} {chained : Parser Stmt}

/-- A loop settles if its body does. -/
theorem settling_forStmt (bodies : Settling body) : Settling (forStmt room body) := by
  refine (settling_expect (by decide)).bind fun _ => (settling_skip (by decide)).bind fun _ => ?_
  refine (settling_forInit room).bind fun _ => ?_
  refine (settling_exprUnless room _).bind fun _ => (settling_skip (by decide)).bind fun _ => ?_
  refine (settling_exprUnless room _).bind fun _ => (settling_skip (by decide)).bind fun _ => ?_
  exact bodies.bind fun _ => settling_pure _

/-- A statement settles if the blocks and conditionals inside of it do. -/
theorem settling_stmtWith (bodies : Settling body) (chains : Settling chained) :
    Settling (stmtWith room body chained) := by
  refine .peek fun ending tokens isEnding => ?_
  have wrapped {wrap : Block → Stmt} : Settling (do return wrap (← body)) :=
    bodies.bind fun block => settling_pure (wrap block)
  have semicolon {value : Stmt} : Settling (do discard (expect .semicolon); return value) :=
    (settling_skip (by decide)).bind fun _ => settling_pure value
  split
  · exact wrapped ending tokens isEnding
  · rename_i same
    exact .skip isEnding (usable_of_kind same (by decide))
      ((settling_exprUnless room _).bind fun _ => semicolon)
  · exact chains ending tokens isEnding
  · rename_i same
    exact .skip isEnding (usable_of_kind same (by decide))
      ((settling_condition room).bind fun _ => wrapped)
  · exact settling_forStmt bodies ending tokens isEnding
  · rename_i same
    exact .skip isEnding (usable_of_kind same (by decide)) semicolon
  · rename_i same
    exact .skip isEnding (usable_of_kind same (by decide)) semicolon
  · rename_i same
    exact .skip isEnding (usable_of_kind same (by decide)) wrapped
  · exact settling_declared _ _ _ _ ending tokens isEnding
  · exact settling_declared _ _ _ _ ending tokens isEnding
  · exact settling_exprStmt room _ ending tokens isEnding

/-- What follows an `else` settles as a block or as a conditional. -/
theorem settling_afterElse (bodies : Settling body) (chains : Settling chained) :
    Settling (afterElse body chained) :=
  (settling_nextIs _).bind fun _ => .ite chains
    (.peek fun ending tokens isEnding =>
      (bodies ending tokens isEnding).bind fun _ rest => settling_pure _ ending rest isEnding)

end Blocks

/-- A block and an `if` use the room below them only, so the induction is on the room of both. -/
theorem settling_block_branch (room : Nat) : Settling (block room) ∧ Settling (branch room) := by
  induction room with
  | zero => exact ⟨settling_fail rfl, settling_fail rfl⟩
  | succ room inductionHypothesis =>
    obtain ⟨bodies, chains⟩ := inductionHypothesis
    constructor
    · refine (settling_skip (by decide)).bind fun _ => ?_
      refine (Settling.manyUntil _ (settling_stmtWith bodies chains)).bind fun _ => ?_
      exact (settling_skip (by decide)).bind fun _ => settling_pure _
    · refine (settling_expect (by decide)).bind fun _ => ?_
      refine (settling_condition room).bind fun _ => bodies.bind fun _ => ?_
      exact ((settling_afterElse bodies chains).optionalAfter (by decide)).bind fun _ =>
        settling_pure _

/-- A parameter settles. -/
theorem settling_param (room : Nat) : Settling (param room) := by
  refine .peek fun ending tokens isEnding => ?_
  refine Settling.bind (settling_take (by decide)) (fun _ => ?_) ending tokens isEnding
  refine settling_ident.bind fun _ => (settling_skip (by decide)).bind fun _ => ?_
  exact (settling_typeExpr room).bind fun _ => settling_pure _

/-- The word that may stand in front of `fn` settles. -/
theorem settling_fnModifier : Settling fnModifier := by
  refine .peek fun ending tokens isEnding => ?_
  split
  · rename_i same
    exact .skip isEnding (usable_of_kind same (by decide)) (settling_pure _)
  · rename_i same
    exact .skip isEnding (usable_of_kind same (by decide)) (settling_pure _)
  · exact settling_pure none ending tokens isEnding

/-- A function declaration settles. -/
theorem settling_fnDecl (room : Nat) (isPub : Bool) (position : Position) :
    Settling (fnDecl room isPub position) := by
  refine settling_fnModifier.bind fun _ => (settling_skip (by decide)).bind fun _ => ?_
  refine settling_ident.bind fun _ => (settling_skip (by decide)).bind fun _ => ?_
  refine ((settling_param room).commaList _).bind fun _ => ?_
  refine (settling_skip (by decide)).bind fun _ => (settling_typeExpr room).bind fun _ => ?_
  exact (settling_block_branch room).1.bind fun _ => settling_pure _

/-- A field settles. -/
theorem settling_field (room : Nat) : Settling (field room) := by
  refine .peek fun ending tokens isEnding => ?_
  refine Settling.bind settling_ident (fun _ => ?_) ending tokens isEnding
  refine (settling_skip (by decide)).bind fun _ => ?_
  exact (settling_typeExpr room).bind fun _ => settling_pure _

/-- What stands behind the word `struct`. -/
def fieldsBehind (room : Nat) (isPub : Bool) (name : Ident) (position : Position) :
    Parser StructDecl := do
  discard (expect .leftBrace)
  let fields ← commaList .rightBrace (field room)
  discard (expect .rightBrace)
  discard (expect .semicolon)
  return ⟨isPub, name, fields, position⟩

/-- What stands behind the word `struct` settles. -/
theorem settling_fieldsBehind (room : Nat) (isPub : Bool) (name : Ident) (position : Position) :
    Settling (fieldsBehind room isPub name position) := by
  refine (settling_skip (by decide)).bind fun _ => ?_
  refine ((settling_field room).commaList _).bind fun _ => ?_
  exact (settling_skip (by decide)).bind fun _ => (settling_skip (by decide)).bind fun _ =>
    settling_pure _

section Constants

variable {word name : Token} (begins : word.kind = .constWord) (named : name.kind = .identifier)

include begins named in
/-- A constant is parsed word by word. -/
theorem run_varDecl_named {room : Nat} {isPub : Bool} {position : Position} :
    (varDecl room isPub position).run ending (word :: name :: rest) =
      (bindingBehind room isPub (word.kind == .constWord) ⟨name.text, name.position⟩ position).run
        ending rest := by
  have listed : word.kind ∈ [Kind.constWord, .varWord] := begins ▸ List.mem_cons_self
  unfold varDecl
  rw [run_bind_ok (run_expectAny listed), run_bind_ok (run_ident named)]
  rfl

include begins in
/-- A constant has to have a name. -/
theorem run_varDecl_unnamed {room : Nat} {isPub : Bool} {position : Position}
    (unnamed : (next ending rest).kind ≠ .identifier) :
    (varDecl room isPub position).run ending (word :: rest) =
      .error (ParseError.foundAt (next ending rest) (.expected .identifier)) := by
  have listed : word.kind ∈ [Kind.constWord, .varWord] := begins ▸ List.mem_cons_self
  unfold varDecl ident
  rw [run_bind_ok (run_expectAny listed)]
  exact run_bind_error (run_bind_error (run_expect_other unnamed))

include begins named in
/-- A struct is parsed word by word as well. -/
theorem run_structDecl_named {room : Nat} {isPub : Bool} {position : Position}
    {equals struct : Token} (assigned : equals.kind = .assign)
    (structured : struct.kind = .structWord) :
    (structDecl room isPub position).run ending (word :: name :: equals :: struct :: rest) =
      (fieldsBehind room isPub ⟨name.text, name.position⟩ position).run ending rest := by
  unfold structDecl
  rw [run_bind_ok (run_discard (run_expect begins)), run_bind_ok (run_ident named),
    run_bind_ok (run_discard (run_expect assigned)),
    run_bind_ok (run_discard (run_expect structured))]
  rfl

/-- The three tokens behind `const` tell whether a struct begins. -/
theorem run_opensStruct_behind :
    opensStruct.run ending (word :: rest) =
      .ok ((next ending rest).kind == .identifier && (next ending rest.tail).kind == .assign &&
        (next ending rest.tail.tail).kind == .structWord, word :: rest) := by
  rw [run_opensStruct]
  simp [next, List.head?_eq_getElem?]

end Constants

/-- What the word `const` begins, a struct or a constant. -/
def structOrConstant {α : Type} (room : Nat) (isPub : Bool) (position : Position)
    (asStruct : StructDecl → α) (asVar : VarDecl → α) : Parser α := do
  if ← opensStruct then return asStruct (← structDecl room isPub position)
  else return asVar (← varDecl room isPub position)

section StructOrConstant

variable {α : Type} {room : Nat} {isPub : Bool} {position : Position} {word name : Token}
  {asStruct : StructDecl → α} {asVar : VarDecl → α} (isEnding : ending.kind = .ending)
  (begins : word.kind = .constWord) (named : name.kind = .identifier)

include isEnding begins named in
/-- A struct has taken four tokens before anything behind them is looked at. -/
theorem settles_struct {equals struct : Token} (assigned : equals.kind = .assign)
    (structured : struct.kind = .structWord) :
    Settles (structOrConstant room isPub position asStruct asVar) ending
      (word :: name :: equals :: struct :: rest) := by
  have known : ∀ token ∈ [word, name, equals, struct], token.kind.Usable := by
    simp only [List.forall_mem_cons, begins, named, assigned, structured]
    decide
  have fields : Settling (do
      return asStruct (← fieldsBehind room isPub ⟨name.text, name.position⟩ position)) :=
    (settling_fieldsBehind room isPub ⟨name.text, name.position⟩ position).bind fun declared =>
      settling_pure (asStruct declared)
  refine .behind known (fun ending' others _ => ?_) (fields ending rest isEnding)
  unfold structOrConstant
  rw [List.cons_append, run_bind_ok run_opensStruct_behind]
  simp only [List.cons_append, List.nil_append, next_cons, List.tail_cons, named, assigned,
    structured, beq_self_eq_true, Bool.and_self, if_true]
  rw [run_bind, run_structDecl_named begins named assigned structured, run_bind]

include isEnding begins named in
/-- A constant has taken two tokens when the two behind them are looked at. -/
theorem settles_constant
    (plain : ¬ ((next ending rest).kind = .assign ∧ (next ending rest.tail).kind = .structWord)) :
    Settles (structOrConstant room isPub position asStruct asVar) ending
      (word :: name :: rest) := by
  have known : ∀ token ∈ [word, name], token.kind.Usable := by
    simp only [List.forall_mem_cons, begins, named]
    decide
  have binding : Settling (do
      return asVar (← bindingBehind room isPub (word.kind == .constWord)
        ⟨name.text, name.position⟩ position)) :=
    (settling_bindingBehind room isPub _ ⟨name.text, name.position⟩ position).bind fun declared =>
      settling_pure (asVar declared)
  refine .behind known (fun ending' others agrees => ?_) (binding ending rest isEnding)
  -- The two tokens behind the name are no more than may be looked at.
  have isPlain : ((next ending' others).kind == .assign &&
      (next ending' others.tail).kind == .structWord) = false := by
    rw [agrees.next (by omega)]
    by_cases assigned : (next ending rest).kind = .assign
    · have notEnding : (next ending rest).kind ≠ .ending := by
        rw [assigned]
        decide
      rw [agrees.next_tail isEnding notEnding]
      simpa using plain
    · simp [assigned]
  unfold structOrConstant
  rw [List.cons_append, run_bind_ok run_opensStruct_behind]
  simp only [List.cons_append, List.nil_append, next_cons, List.tail_cons, named,
    beq_self_eq_true, Bool.true_and, isPlain, Bool.false_eq_true, if_false]
  rw [run_bind, run_varDecl_named begins named, run_bind]

include begins in
/-- Where `const` is not followed by a name, that is the error. -/
theorem settles_unnamed (unnamed : (next ending rest).kind ≠ .identifier) :
    Settles (structOrConstant room isPub position asStruct asVar) ending (word :: rest) := by
  have usable : word.kind.Usable := usable_of_kind begins (by decide)
  refine .behindOne usable (fun ending' others agrees => ?_)
    (.fails (.expected .identifier) rfl fun _ _ _ => run_fail)
  rw [← agrees.next (by omega)] at unnamed
  have isUnnamed : ((next ending' others).kind == .identifier) = false := by
    simpa using unnamed
  unfold structOrConstant
  rw [run_bind_ok run_opensStruct_behind]
  simp only [isUnnamed, Bool.false_and, Bool.false_eq_true, if_false]
  rw [run_bind_error (run_varDecl_unnamed begins unnamed), run_fail]

include isEnding in
/-- What the word `const` begins settles in each of the three cases. -/
theorem settles_structOrConstant (begins : (next ending tokens).kind = .constWord) :
    Settles (structOrConstant room isPub position asStruct asVar) ending tokens := by
  obtain ⟨rest, stands⟩ := eq_cons_of_next isEnding begins (by decide)
  generalize next ending tokens = word at begins stands
  subst stands
  by_cases named : (next ending rest).kind = .identifier
  · obtain ⟨later, stands⟩ := eq_cons_of_next isEnding named (by decide)
    generalize next ending rest = name at named stands
    subst stands
    by_cases struct : (next ending later).kind = .assign ∧
        (next ending later.tail).kind = .structWord
    · obtain ⟨assigned, structured⟩ := struct
      obtain ⟨behind, stands⟩ := eq_cons_of_next isEnding assigned (by decide)
      rw [stands, List.tail_cons] at structured
      obtain ⟨fields, standsToo⟩ := eq_cons_of_next isEnding structured (by decide)
      rw [stands, standsToo]
      exact settles_struct isEnding begins named assigned structured
    · exact settles_constant isEnding begins named struct
  · exact settles_unnamed begins named

end StructOrConstant

/-- A declaration settles, also where it takes three more tokens to tell what it declares. -/
theorem settling_decl (room : Nat) : Settling (decl room) := by
  refine .peek fun ending tokens isEnding => ?_
  refine Settling.bind (settling_take (by decide)) (fun isPub => ?_) ending tokens isEnding
  refine .peek fun ending tokens isEnding => ?_
  have function (position : Position) :
      Settling (do return Decl.fn (← fnDecl room isPub position)) :=
    (settling_fnDecl room isPub position).bind fun _ => settling_pure _
  split
  · exact function _ ending tokens isEnding
  · exact function _ ending tokens isEnding
  · exact function _ ending tokens isEnding
  · rename_i same
    exact settles_structOrConstant isEnding same
  · exact settling_declared _ _ _ _ ending tokens isEnding
  · exact settling_fail rfl ending tokens isEnding

/-- Parsing a program settles. -/
theorem settling_program (room : Nat) : Settling (program room) :=
  .manyUntil [] (settling_decl room)

end SystemsLang.Parser
