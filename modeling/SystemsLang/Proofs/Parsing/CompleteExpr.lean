import SystemsLang.Proofs.Parsing.CompleteType
import SystemsLang.Proofs.Parsing.Extensions

/-!
# What spells an expression is read

The parser holds a part of an expression and extends it to the right, while the grammar splits an
operation into its operands. The two are brought together by a law about expressions that are not
finished: once all tokens of a derivation are taken, the parser stands in its loop with the tree of
that derivation, and has used up one level for the operand and one for each operator in the chain.
The law is shown by induction on the derivation. What may follow an expression of a row is nothing
that binds more tightly than the row, so a left operand is handed on to its operator and a right
operand is closed by what comes after it.
-/

namespace SystemsLang.Parser

open Token (Kind Failure)
open Syntax (ParseError BinaryOp UnaryOp Extension Expr Ident TypeExpr assignPower)
open Grammar

variable {ending token : Token} {tokens rest : List Token} {levels room least : Nat}
  {row chain : Nat} {value : Expr}

/-- What may stand behind an expression of a row: no brace that could make a name the beginning of a
literal, and no operator but one that takes the expression as its left operand. -/
structure Follows (row : Nat) (token : Token) : Prop where
  notBrace : token.kind ≠ .leftBrace
  looser : Looser row token

/-- Where an expression of a row may be followed, one of the next row may be as well. -/
theorem Follows.tighten (follows : Follows row token) : Follows (row + 1) token :=
  ⟨follows.notBrace, fun form begun => ⟨Nat.succ_pos row, by
    have looser := follows.looser form begun
    omega⟩⟩

/-- A token that begins no operator may stand behind every expression, unless it is a brace. -/
theorem Follows.of_none (notBrace : token.kind ≠ .leftBrace)
    (none : Extension.ofKind? token.kind = none) : Follows row token :=
  ⟨notBrace, fun form begun => by
    rw [none] at begun
    cases begun⟩

/-- Behind the right operand of a binary operator the search with the operator's right power ends,
since what follows the operation is no tighter than the operator. -/
theorem Follows.stops_right {operator : BinaryOp} (follows : Follows (operatorRow operator) token) :
    Stops operator.power.right token := by
  intro form begun
  have looser := (follows.looser form begun).2
  rw [leftPower_eq, rightPower_eq]
  unfold rowPower
  have assign : assignPower.left = 2 := rfl
  have bounds := (operatorRow_bounds operator).1
  split <;> split <;> omega

/-- Behind an operand of a prefix operator the search with the power of that operator ends. -/
theorem Follows.stops_prefix (follows : Follows prefixRow token) : Stops UnaryOp.power token := by
  intro form begun
  have looser := (follows.looser form begun).2
  rw [leftPower_eq, prefixPower_eq]
  have notPrefix : extensionRow form ≠ prefixRow := by
    cases form with
    | binary operator => exact Nat.ne_of_lt (operatorRow_bounds operator).2
    | assign operator => exact Nat.ne_of_lt (Nat.succ_pos 6)
    | dot | call | index => decide
  have assign : assignPower.left = 2 := rfl
  have row : prefixRow = 7 := rfl
  unfold rowPower
  split <;> split <;> omega

/-- Behind an expression that no operator may follow every search ends. -/
theorem Follows.stops_loosest (follows : Follows 0 token) : Stops least token := by
  intro form begun
  exact absurd (follows.looser form begun).1 (Nat.lt_irrefl 0)

/-- Reading an expression takes its tokens and goes on with the loop of extensions, on as many
levels less as its chain says, if there is room; otherwise nesting is too deep. -/
structure Unfinished (tokens : List Token) (chain : Nat) (value : Expr) (levels : Nat)
    (ending : Token) (rest : List Token) (room least : Nat) : Prop where
  fits : levels ≤ room → (expr room least).run ending (tokens ++ rest) =
    (extensions (room - (chain + 1)) least value).run ending rest
  exceeds : room < levels → TooDeep (expr room least) ending (tokens ++ rest)

/-- What is shown of the phrases of a derivation. Lists in brackets are read up to their closing
bracket. -/
def Completes (tokens : List Token) (levels : Nat) : Phrase → Prop
  | .expr row chain value => chain < levels ∧ ∀ ending rest room least,
    Follows row (next ending rest) → least ≤ rowPower row →
      Unfinished tokens chain value levels ending rest room least
  | .arguments values => ∀ ending rest room close, close = .rightParen ∨ close = .rightBrace →
    (next ending rest).kind = close →
      Reads (commaList close (expr room 0)) ending levels room (tokens ++ rest) values rest
  | .inits values => ∀ ending rest room, (next ending rest).kind = .rightBrace →
    Reads (commaList .rightBrace (fieldInit (expr room 0))) ending levels room (tokens ++ rest)
      values rest

/-- A finished expression: its derivation goes all the way to what stops the search. -/
theorem Completes.reads (completes : Completes tokens levels (.expr row chain value))
    (follows : Follows row (next ending rest)) (binds : least ≤ rowPower row)
    (stops : Stops least (next ending rest)) (room : Nat) :
    Reads (expr room least) ending levels room (tokens ++ rest) value rest := by
  have unfinished := completes.2 ending rest room least follows binds
  constructor
  · intro fits
    rw [unfinished.fits fits, run_extensions_stop stops]
  · exact unfinished.exceeds

/-- A whole expression is read before any token that begins no operator and is no brace. -/
theorem Completes.reads_whole (completes : Completes tokens levels (.expr 0 chain value))
    (notBrace : (next ending rest).kind ≠ .leftBrace)
    (none : Extension.ofKind? (next ending rest).kind = none) (room : Nat) :
    Reads (expr room 0) ending levels room (tokens ++ rest) value rest := by
  have follows : Follows 0 (next ending rest) := Follows.of_none notBrace none
  exact completes.reads follows (Nat.zero_le _) follows.stops_loosest room

/-- A token that begins an expression records no lexical failure. -/
theorem of?_eq_none_of_startsExpr (starts : startsExpr token.kind = true) :
    Failure.of? token = none := by
  unfold Failure.of?
  split <;> simp_all [startsExpr]

/-- A token that begins an expression is none of the kinds that no expression begins with. -/
theorem kind_ne_of_startsExpr {kind : Kind} (starts : startsExpr token.kind = true)
    (other : startsExpr kind = false) : token.kind ≠ kind := by
  intro same
  rw [same, other] at starts
  cases starts

/-- An operand is an expression without a chain, on one level more than the operand itself. -/
theorem Completes.of_operand (starts : ∃ first later, tokens = first :: later ∧
      startsExpr first.kind = true)
    (operand : ∀ ending rest room, Follows row (next ending rest) →
      Reads (operand (expr room) (typeExpr room)) ending levels room (tokens ++ rest) value rest) :
    Completes tokens (levels + 1) (.expr row 0 value) := by
  refine ⟨Nat.succ_pos levels, ?_⟩
  intro ending rest room least follows binds
  obtain ⟨first, later, rfl, begins⟩ := starts
  cases room with
  | zero =>
    refine ⟨fun impossible => by omega, fun _ => ?_⟩
    unfold expr
    exact tooDeep_fail (of?_eq_none_of_startsExpr begins)
  | succ room =>
    have inner := operand ending rest room follows
    constructor
    · intro fits
      unfold expr
      rw [run_bind_ok (inner.fits (by omega))]
      rfl
    · intro exceeds
      unfold expr
      exact .bind (inner.exceeds (by omega))

/-- An extension behind an expression makes the chain longer by one. It takes up the levels of the
chain so far, one for itself, and those of what stands behind its first token. -/
theorem Completes.extend {mark : Token} {after : List Token} {left : Expr} {leftRow : Nat}
    (completes : Completes tokens levels (.expr leftRow chain left)) (form : Extension) (more : Nat)
    (begun : Extension.ofKind? mark.kind = some form) (positive : 0 < leftRow)
    (tight : extensionRow form ≤ leftRow) (rows : row = extensionRow form)
    (notBrace : mark.kind ≠ .leftBrace)
    (extended : ∀ ending rest room, Follows row (next ending rest) →
      Reads (extend (expr room) form left) ending more room (mark :: (after ++ rest)) value rest) :
    Completes (tokens ++ mark :: after) (max levels (chain + 2 + more))
      (.expr row (chain + 1) value) := by
  refine ⟨by omega, ?_⟩
  intro ending rest room least follows binds
  have binding : least ≤ form.leftPower := by rwa [leftPower_eq, ← rows]
  have leftBinds : least ≤ rowPower leftRow := by
    refine Nat.le_trans binds ?_
    subst rows
    unfold rowPower
    have assign : assignPower.left = 2 := rfl
    split <;> split <;> omega
  have followed : Follows leftRow (next ending (mark :: (after ++ rest))) := by
    refine ⟨notBrace, ?_⟩
    intro other begunOther
    rw [next_cons, begun] at begunOther
    cases begunOther
    exact ⟨positive, tight⟩
  have seen : Extension.ofKind? (next ending (mark :: (after ++ rest))).kind = some form := begun
  have before := completes.2 ending (mark :: (after ++ rest)) room least followed leftBinds
  -- Where the levels end decides where parsing does: in the expression on the left, at the operator
  -- itself, or behind it.
  have split : tokens ++ mark :: after ++ rest = tokens ++ mark :: (after ++ rest) := by simp
  constructor
  · intro fits
    have levelsLeft : room - (chain + 1) = (room - (chain + 1 + 1)) + 1 := by omega
    have inner := (extended ending rest (room - (chain + 1 + 1)) follows).fits (by omega)
    rw [split, before.fits (by omega), levelsLeft, run_extensions_succ seen binding,
      run_bind_ok inner]
  · intro exceeds
    rw [split]
    by_cases inLeft : room < levels
    · exact before.exceeds inLeft
    · have reached := before.fits (by omega)
      by_cases none : room = chain + 1
      · obtain ⟨token, failed⟩ : TooDeep (fail .nestingTooDeep : Parser Expr) ending
            (mark :: (after ++ rest)) := tooDeep_fail (of?_eq_none_of_extension begun)
        refine ⟨token, ?_⟩
        rw [reached, show room - (chain + 1) = 0 by omega, run_extensions_zero seen binding,
          failed]
      · have more := completes.1
        have levelsLeft : room - (chain + 1) = (room - (chain + 1 + 1)) + 1 := by omega
        have inner := (extended ending rest (room - (chain + 1 + 1)) follows).exceeds (by omega)
        have fails : TooDeep (Parser.extend (expr (room - (chain + 1 + 1))) form left >>=
            extensions (room - (chain + 1 + 1)) least) ending (mark :: (after ++ rest)) :=
          .bind inner
        obtain ⟨token, failed⟩ := fails
        refine ⟨token, ?_⟩
        rw [reached, levelsLeft, run_extensions_succ seen binding, failed]

/-- A name is the name of a literal only if a brace stands behind it. -/
theorem run_opensStructLit_false (notBrace : (next ending tokens).kind ≠ .leftBrace) :
    opensStructLit.run ending tokens = .ok (false, tokens) := by
  unfold opensStructLit
  rw [run_bind_ok run_peek, run_bind_ok (run_peekAt 1), run_pure, beq_eq_false_iff_ne.mpr notBrace,
    Bool.false_and]

/-- It is one if a dot or the closing brace stands behind the brace. -/
theorem run_opensStructLit_true {opening : Token} (opens : opening.kind = .leftBrace)
    (inner : (next ending rest).kind = .dot ∨ (next ending rest).kind = .rightBrace) :
    opensStructLit.run ending (opening :: rest) = .ok (true, opening :: rest) := by
  have second : (opening :: rest)[1]?.getD ending = next ending rest := by cases rest <;> rfl
  unfold opensStructLit
  rw [run_bind_ok run_peek, run_bind_ok (run_peekAt 1), run_pure, second, next_cons, opens]
  rcases inner with dot | brace
  · rw [dot]
    rfl
  · rw [brace]
    rfl

/-- The fields of a literal begin with a dot, or there are none and the brace closes at once. -/
theorem next_inits {values : List (Ident × Expr)} {closing : Token}
    (derived : Derives tokens (.inits values) levels) (closes : closing.kind = .rightBrace) :
    (next ending (tokens ++ closing :: rest)).kind = .dot ∨
      (next ending (tokens ++ closing :: rest)).kind = .rightBrace := by
  cases derived with
  | noInit => exact .inr closes
  | lastInit dotted => exact .inl dotted
  | init dotted => exact .inl dotted

/-- The length in an array literal, or the underscore in its place. -/
theorem run_openLength {length : Token} {count : Option UInt64} (counts : OpenLength length count) :
    openLength.run ending (length :: rest) = .ok (count, rest) := by
  unfold openLength
  rw [run_bind_ok run_peek, next_cons]
  cases counts with
  | «open» kind text =>
    rw [if_pos ⟨kind, text⟩, run_bind_ok (run_discard run_advance), run_pure]
  | given counts =>
    have number : ¬ (length.kind = .identifier ∧ length.text = "_") := by
      rintro ⟨kind, -⟩
      rw [counts.1] at kind
      cases kind
    rw [if_neg number, run_bind_ok (run_arrayLength counts), run_pure]

/-- A field of a literal is read with its value. -/
theorem Reads.fieldInit {dot name equals : Token} {item : Parser Expr} (dotted : dot.kind = .dot)
    (named : name.kind = .identifier) (assigned : equals.kind = .assign)
    (reads : Reads item ending levels room tokens value rest) :
    Reads (fieldInit item) ending levels room (dot :: name :: equals :: tokens)
      (⟨name.text, name.position⟩, value) rest := by
  refine .step (run_discard (run_expect dotted)) (.step (run_ident named) ?_)
  exact .step (run_discard (run_expect assigned)) reads.map

/-- What stands in brackets is read together with the closing bracket behind it. -/
theorem Reads.closed {α β : Type} {parser : Parser α} {value : α} {wrap : α → β}
    {closing : Token} {kind : Kind} (closes : closing.kind = kind)
    (reads : Reads parser ending levels room tokens value (closing :: rest)) :
    Reads (do
      let value ← parser
      discard (expect kind)
      return wrap value) ending levels room tokens (wrap value) rest := by
  have both : Reads (do
      let value ← parser
      discard (expect kind)
      return wrap value) ending (max levels 0) room tokens (wrap value) rest :=
    reads.bind (.step (run_discard (run_expect closes)) .pure)
  rwa [Nat.max_zero] at both

/-- The token of a prefix operator announces that operator and no other operand. -/
theorem run_operand_before {mark : Token} {operator : UnaryOp} {sub : Nat → Parser Expr}
    {type : Parser TypeExpr} (spelled : mark.kind = prefixKind operator) :
    (operand sub type).run ending (mark :: rest) =
      (sub UnaryOp.power >>= fun value =>
        pure (.unary mark.position operator value)).run ending rest := by
  unfold operand
  rw [run_bind_ok run_advance, spelled]
  cases operator <;> rfl

namespace Completes

/-- A token that is an operand of itself. -/
theorem single (starts : startsExpr token.kind = true)
    (ran : ∀ ending rest room, (next ending rest).kind ≠ .leftBrace →
      (operand (expr room) (typeExpr room)).run ending (token :: rest) = .ok (value, rest)) :
    Completes [token] 1 (.expr postfixRow 0 value) := by
  refine .of_operand ⟨token, [], rfl, starts⟩ ?_
  intro ending rest room follows
  have whole : Reads (operand (expr room) (typeExpr room) >>= pure) ending 0 room (token :: rest)
      value rest := .step (ran ending rest room follows.notBrace) .pure
  rwa [bind_pure] at whole

/-- An expression in parentheses is read, at the position of the opening one. -/
theorem group {opening closing : Token} (opens : opening.kind = .leftParen)
    (inner : Completes tokens levels (.expr 0 chain value)) (closes : closing.kind = .rightParen) :
    Completes (opening :: (tokens ++ [closing])) (levels + 1)
      (.expr postfixRow 0 (value.moveTo opening.position)) := by
  refine .of_operand ⟨opening, _, rfl, by rw [opens]; rfl⟩ ?_
  intro ending rest room _
  rw [List.cons_append, List.append_assoc]
  refine .step run_advance ?_
  simp only [opens]
  refine .closed closes (inner.reads_whole ?_ ?_ room)
  · exact fun same => nomatch closes.symm.trans same
  · exact congrArg Extension.ofKind? closes

/-- A struct literal is read, at the position of its name. -/
theorem structLit {name opening closing : Token} {values : List (Ident × Expr)}
    (named : name.kind = .identifier) (opens : opening.kind = .leftBrace)
    (derived : Derives tokens (.inits values) levels)
    (inner : Completes tokens levels (.inits values)) (closes : closing.kind = .rightBrace) :
    Completes (name :: opening :: (tokens ++ [closing])) (levels + 1)
      (.expr postfixRow 0 (.structLit name.position ⟨name.text, name.position⟩ values)) := by
  refine .of_operand ⟨name, _, rfl, by rw [named]; rfl⟩ ?_
  intro ending rest room _
  simp only [List.cons_append, List.append_assoc, List.nil_append]
  refine .step run_advance ?_
  simp only [named]
  refine .step (run_opensStructLit_true opens (next_inits derived closes)) ?_
  simp only [if_true]
  refine .step (run_discard (run_expect opens)) ?_
  exact .closed closes (inner ending (closing :: rest) room closes)

/-- An array literal is read, at the position of its bracket. -/
theorem arrayLit {first length behind opening closing : Token} {typeTokens : List Token}
    {count : Option UInt64} {type : TypeExpr} {values : List Expr} {typeLevels : Nat}
    (brackets : first.kind = .leftBracket) (counts : OpenLength length count)
    (ends : behind.kind = .rightBracket) (typed : DerivesType typeTokens type typeLevels)
    (opens : opening.kind = .leftBrace) (inner : Completes tokens levels (.arguments values))
    (closes : closing.kind = .rightBrace) :
    Completes (first :: length :: behind :: (typeTokens ++ opening :: (tokens ++ [closing])))
      (max typeLevels levels + 1)
      (.expr postfixRow 0 (.arrayLit first.position count type values)) := by
  refine .of_operand ⟨first, _, rfl, by rw [brackets]; rfl⟩ ?_
  intro ending rest room _
  simp only [List.cons_append, List.append_assoc, List.nil_append]
  refine .step run_advance ?_
  simp only [brackets]
  refine .step (run_openLength counts) (.step (run_discard (run_expect ends)) ?_)
  refine (reads_typeExpr typed room _).bind (.step (run_discard (run_expect opens)) ?_)
  exact .closed closes (inner ending (closing :: rest) room .rightBrace (.inr rfl) closes)

/-- A prefix operator is read in front of its operand, on a level of its own. -/
theorem before {mark : Token} {operator : UnaryOp} (spelled : mark.kind = prefixKind operator)
    (inner : Completes tokens levels (.expr prefixRow chain value)) :
    Completes (mark :: tokens) (levels + 1)
      (.expr prefixRow 0 (.unary mark.position operator value)) := by
  refine .of_operand ⟨mark, _, rfl, by rw [spelled]; cases operator <;> rfl⟩ ?_
  intro ending rest room follows
  have operandReads : Reads (expr room UnaryOp.power) ending levels room (tokens ++ rest) value
      rest := inner.reads follows (Nat.le_of_eq prefixPower_eq) follows.stops_prefix room
  have whole : Reads (expr room UnaryOp.power >>= fun value =>
      pure (Expr.unary mark.position operator value)) ending levels room (tokens ++ rest)
      (Expr.unary mark.position operator value) rest := operandReads.map
  constructor
  · intro fits
    rw [List.cons_append, run_operand_before spelled, whole.fits fits]
  · intro exceeds
    obtain ⟨token, failed⟩ := whole.exceeds exceeds
    exact ⟨token, by rw [List.cons_append, run_operand_before spelled, failed]⟩

variable {before after : List Token} {first mark opening closing : Token} {left right : Expr}
  {rightChain more : Nat}

/-- A call is read behind what is called, with a level for the call and those of the arguments. -/
theorem call {arguments : List Expr} (position : left.position = first.position)
    (completes : Completes before levels (.expr postfixRow chain left))
    (opens : opening.kind = .leftParen) (inner : Completes tokens more (.arguments arguments))
    (closes : closing.kind = .rightParen) :
    Completes (before ++ opening :: (tokens ++ [closing])) (max levels (chain + 2 + more))
      (.expr postfixRow (chain + 1) (.call first.position left arguments)) := by
  refine completes.extend .call more (by rw [opens]; rfl) (Nat.succ_pos 7) (Nat.le_refl _) rfl
    (fun same => nomatch opens.symm.trans same) ?_
  intro ending rest room _
  rw [List.append_assoc]
  refine .step run_advance ?_
  rw [← position]
  exact .closed closes (inner ending (closing :: rest) room .rightParen (.inl rfl) closes)

/-- A subscript is read behind what it is applied to. -/
theorem index (position : left.position = first.position)
    (completes : Completes before levels (.expr postfixRow chain left))
    (opens : opening.kind = .leftBracket)
    (inner : Completes tokens more (.expr 0 rightChain right))
    (closes : closing.kind = .rightBracket) :
    Completes (before ++ opening :: (tokens ++ [closing])) (max levels (chain + 2 + more))
      (.expr postfixRow (chain + 1) (.index first.position left right)) := by
  refine completes.extend .index more (by rw [opens]; rfl) (Nat.succ_pos 7) (Nat.le_refl _) rfl
    (fun same => nomatch opens.symm.trans same) ?_
  intro ending rest room _
  rw [List.append_assoc]
  refine .step run_advance ?_
  rw [← position]
  refine .closed closes (inner.reads_whole ?_ ?_ room)
  · exact fun same => nomatch closes.symm.trans same
  · exact congrArg Extension.ofKind? closes

/-- Behind a dot one token decides what the operator is. -/
theorem dot {behind : Token} (completes : Completes before levels (.expr postfixRow chain left))
    (dotted : mark.kind = .dot)
    (ran : ∀ ending rest,
      (afterDot left).run ending (behind :: rest) = .ok (value, rest)) :
    Completes (before ++ [mark, behind]) (max levels (chain + 2))
      (.expr postfixRow (chain + 1) value) := by
  refine completes.extend .dot 0 (by rw [dotted]; rfl) (Nat.succ_pos 7)
    (Nat.le_refl _) rfl (fun same => nomatch dotted.symm.trans same) ?_
  intro ending rest room _
  refine .step run_advance ?_
  have whole : Reads (afterDot left >>= pure) ending 0 room (behind :: rest) value rest :=
    .step (ran ending rest) .pure
  rwa [bind_pure] at whole

/-- An operator is read behind its left operand, whose row it must not bind more tightly than. -/
theorem binary {operator : BinaryOp} (position : left.position = first.position)
    (leftOperand : Completes before levels (.expr (operatorRow operator) chain left))
    (spelled : mark.kind = operator.kind)
    (rightOperand : Completes after more (.expr (operatorRow operator + 1) rightChain right)) :
    Completes (before ++ mark :: after) (max levels (chain + 2 + more))
      (.expr (operatorRow operator) (chain + 1) (.binary first.position operator left right)) := by
  refine leftOperand.extend (.binary operator) more (by rw [spelled, extension_of_operator])
    (operatorRow_bounds operator).1 (Nat.le_refl _) rfl
    (by rw [spelled]; cases operator <;> decide) ?_
  intro ending rest room follows
  refine .step run_advance ?_
  rw [← position]
  have binds : operator.power.right ≤ rowPower (operatorRow operator + 1) := by
    rw [rightPower_eq]
    unfold rowPower
    have positive := (operatorRow_bounds operator).1
    split <;> split <;> omega
  exact (rightOperand.reads follows.tighten binds follows.stops_right room).map

/-- An assignment is read behind its target, and its value is read in the row of assignments again.
-/
theorem assign {operator : Option BinaryOp} (position : left.position = first.position)
    (target : Completes before levels (.expr postfixRow chain left)) (place : left.isPlace = true)
    (spelled : some mark.kind = assignKind operator)
    (value : Completes after more (.expr 0 rightChain right)) :
    Completes (before ++ mark :: after) (max levels (chain + 2 + more))
      (.expr 0 (chain + 1) (.assign first.position operator left right)) := by
  have begun := extension_of_assign spelled
  refine target.extend (.assign operator) more begun (Nat.succ_pos 7) (Nat.zero_le _) rfl ?_ ?_
  · intro same
    rw [same] at begun
    cases begun
  · intro ending rest room follows
    refine .step run_advance ?_
    simp only [place, if_true]
    rw [← position]
    exact (value.reads follows (Nat.le_succ 1) follows.stops_loosest room).map

/-- No expression begins with a token that closes a list. -/
theorem goesOn {close : Kind} (derived : Derives tokens (.expr row chain value) levels)
    (closes : close = .rightParen ∨ close = .rightBrace) :
    GoesOn [close] (next ending (tokens ++ rest)) := by
  obtain ⟨first, later, rfl, starts⟩ := derived.starts
  refine ⟨kind_ne_of_startsExpr starts rfl, ?_⟩
  rw [List.mem_singleton]
  rcases closes with rfl | rfl
  · exact kind_ne_of_startsExpr starts rfl
  · exact kind_ne_of_startsExpr starts rfl

/-- An expression in front of a list makes the list longer. -/
theorem shorter (derived : Derives tokens (.expr row chain value) levels) :
    rest.length < (tokens ++ rest).length := by
  obtain ⟨first, later, rfl, -⟩ := derived.starts
  simp only [List.cons_append, List.length_cons, List.length_append]
  omega

/-- A single argument is read up to what closes the list. -/
theorem lastArgument (derived : Derives tokens (.expr 0 chain value) levels)
    (item : Completes tokens levels (.expr 0 chain value)) :
    Completes tokens levels (.arguments [value]) := by
  intro ending rest room close closes stands
  refine .commaList_last (goesOn derived closes) ?_ (item.reads_whole ?_ ?_ room) (shorter derived)
    stands
  all_goals rcases closes with rfl | rfl <;> simp [stands, Extension.ofKind?, BinaryOp.ofKind?]

/-- An argument is read up to its comma, and the others behind it. -/
theorem argument {comma : Token} {values : List Expr}
    (derived : Derives before (.expr 0 chain value) levels)
    (item : Completes before levels (.expr 0 chain value)) (separates : comma.kind = .comma)
    (later : Completes after more (.arguments values)) :
    Completes (before ++ comma :: after) (max levels more) (.arguments (value :: values)) := by
  intro ending rest room close closes stands
  rw [List.append_assoc, List.cons_append]
  refine .commaList_cons (goesOn derived closes) (item.reads_whole ?_ ?_ room) separates ?_
    (later ending rest room close closes stands)
  · exact fun same => nomatch separates.symm.trans same
  · exact congrArg Extension.ofKind? separates
  · have longer : (comma :: (after ++ rest)).length < (before ++ comma :: (after ++ rest)).length :=
      shorter derived
    rw [List.length_cons] at longer
    omega

/-- A single field is read up to what closes the list. -/
theorem lastInit {dot name equals : Token} (dotted : dot.kind = .dot)
    (named : name.kind = .identifier) (assigned : equals.kind = .assign)
    (item : Completes tokens levels (.expr 0 chain value)) :
    Completes (dot :: name :: equals :: tokens) levels
      (.inits [(⟨name.text, name.position⟩, value)]) := by
  intro ending rest room closes
  have reads : Reads (expr room 0) ending levels room (tokens ++ rest) value rest := by
    refine item.reads_whole ?_ ?_ room
    · exact fun same => nomatch closes.symm.trans same
    · exact congrArg Extension.ofKind? closes
  refine .commaList_last ?_ (by decide) (.fieldInit dotted named assigned reads) ?_ closes
  · simp [GoesOn, dotted]
  · simp only [List.length_cons, List.cons_append, List.length_append]
    omega

/-- A field is read up to its comma, and the others behind it. -/
theorem init {dot name equals comma : Token} {values : List (Ident × Expr)}
    (dotted : dot.kind = .dot) (named : name.kind = .identifier)
    (assigned : equals.kind = .assign) (item : Completes before levels (.expr 0 chain value))
    (separates : comma.kind = .comma) (later : Completes after more (.inits values)) :
    Completes (dot :: name :: equals :: (before ++ comma :: after)) (max levels more)
      (.inits ((⟨name.text, name.position⟩, value) :: values)) := by
  intro ending rest room closes
  have reads : Reads (expr room 0) ending levels room (before ++ comma :: (after ++ rest)) value
      (comma :: (after ++ rest)) := by
    refine item.reads_whole ?_ ?_ room
    · exact fun same => nomatch separates.symm.trans same
    · exact congrArg Extension.ofKind? separates
  simp only [List.cons_append, List.append_assoc]
  refine .commaList_cons ?_ (.fieldInit dotted named assigned reads) separates ?_
    (later ending rest room closes)
  · simp [GoesOn, dotted]
  · simp only [List.length_cons, List.length_append]
    omega

end Completes

/-- Whatever the grammar derives a phrase from is read as that phrase. -/
theorem completes {phrase : Phrase} (derived : Derives tokens phrase levels) :
    Completes tokens levels phrase := by
  induction derived with
  | number kind | string kind | trueWord kind | falseWord kind | null kind | undefined kind =>
    refine .single (by rw [kind]; rfl) ?_
    intro ending rest room _
    unfold operand
    rw [run_bind_ok run_advance]
    simp only [kind, run_pure]
  | ident kind =>
    refine .single (by rw [kind]; rfl) ?_
    intro ending rest room notBrace
    unfold operand
    rw [run_bind_ok run_advance]
    simp only [kind]
    rw [run_bind_ok (run_opensStructLit_false notBrace)]
    simp only [Bool.false_eq_true, if_false, run_pure]
  | group opens _ closes inner => exact .group opens inner closes
  | structLit named opens derived closes inner => exact .structLit named opens derived inner closes
  | arrayLit brackets counts ends typed opens _ closes inner =>
    exact .arrayLit brackets counts ends typed opens inner closes
  | before spelled _ inner => exact .before spelled inner
  | call left opens _ closes leftCompletes inner =>
    exact .call left.position_eq leftCompletes opens inner closes
  | index left opens _ closes leftCompletes inner =>
    exact .index left.position_eq leftCompletes opens inner closes
  | member left dotted named leftCompletes =>
    refine .dot leftCompletes dotted ?_
    intro ending rest
    unfold afterDot
    rw [run_bind_ok run_advance, ← left.position_eq]
    simp only [named, run_pure]
  | deref left dotted starred leftCompletes =>
    refine .dot leftCompletes dotted ?_
    intro ending rest
    unfold afterDot
    rw [run_bind_ok run_advance, ← left.position_eq]
    simp only [starred, run_pure]
  | unwrap left dotted marked leftCompletes =>
    refine .dot leftCompletes dotted ?_
    intro ending rest
    unfold afterDot
    rw [run_bind_ok run_advance, ← left.position_eq]
    simp only [marked, run_pure]
  | binary left spelled _ leftCompletes rightCompletes =>
    exact .binary left.position_eq leftCompletes spelled rightCompletes
  | assign left place spelled _ leftCompletes rightCompletes =>
    exact .assign left.position_eq leftCompletes place spelled rightCompletes
  | loosen _ tighter =>
    refine ⟨tighter.1, ?_⟩
    intro ending rest room least follows binds
    refine tighter.2 ending rest room least follows.tighten (Nat.le_trans binds ?_)
    unfold rowPower
    have assign : assignPower.left = 2 := rfl
    split <;> split <;> omega
  | noArgument =>
    intro ending rest room close closes stands
    exact .commaList_nil stands
  | lastArgument derived item => exact .lastArgument derived item
  | argument derived separates _ item later => exact .argument derived item separates later
  | noInit =>
    intro ending rest room closes
    exact .commaList_nil closes
  | lastInit dotted named assigned _ item => exact .lastInit dotted named assigned item
  | init dotted named assigned _ separates _ item later =>
    exact .init dotted named assigned item separates later

/-- Tokens that spell an expression are read as that expression exactly if there is room for its
levels, before any token that begins no operator and is no brace. -/
theorem reads_expr (derived : DerivesExpr tokens value levels) (room : Nat)
    (notBrace : (next ending rest).kind ≠ .leftBrace)
    (none : Extension.ofKind? (next ending rest).kind = none) :
    Reads (expr room 0) ending levels room (tokens ++ rest) value rest := by
  obtain ⟨chain, derived⟩ := derived
  exact (completes derived).reads_whole notBrace none room

end SystemsLang.Parser
