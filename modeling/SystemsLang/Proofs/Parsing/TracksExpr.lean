import SystemsLang.Proofs.Parsing.SettledExpr
import SystemsLang.Proofs.Parsing.Tracks

/-!
# Walks along types and expressions

With some levels around it, the walk along a type or an expression tracks the parser that has room
for the others. Each call inside of another enters a level first, so no more calls than that are
inside of one another, and one.

An operator that extends an operand enters a level that is not given back before the expression
ends. So the loop over the extensions tracks its parser from any number of levels on, and ends with
the number that was there before the expression (`tracks_extensions`).
-/

namespace SystemsLang.Walk

open Token (Kind endingOf)
open Syntax
open SystemsLang.Parser (next)

variable {depth room calls least outer : Nat}

/-- A name takes its token. -/
theorem tracks_ident : Tracks depth depth 1 (read Parser.ident) Parser.ident :=
  (takes_expect (by decide)).map.read

/-- By induction on the calls. Each enters a level before it looks at a token. -/
theorem tracks_typeExpr (limit : depth + room = maxDepth) (enough : room < calls) :
    Tracks depth depth 1 (typeExpr calls) (Parser.typeExpr room) := by
  induction calls generalizing depth room with
  | zero => exact absurd enough (Nat.not_lt_zero room)
  | succ calls inductionHypothesis =>
  unfold Walk.typeExpr
  refine .inLevel limit rfl fun lower same => ?_
  subst same
  have inside : depth + 1 + lower = maxDepth := by omega
  have inner := (inductionHypothesis inside (Nat.lt_of_succ_lt_succ enough)).any
  have const : Tracks (depth + 1) (depth + 1) 0 (read (.take .constWord)) (.take .constWord) :=
    tracks_take (by decide)
  refine .advance (fun token ends => ⟨.expectedType, by simp only [ends], by simp only [ends]⟩)
    fun token => ?_
  cases token.kind with
  | primitiveType | identifier => exact tracks_pure _
  | star => exact const.bind fun _ => inner.map
  | leftBracket =>
    refine (tracks_take (by decide)).bind fun _ => .ite ?_ ?_
    · exact const.bind fun _ => inner.map
    · exact (takes_of_settling Parser.settling_arrayLength).read.bind fun _ =>
        (tracks_skip (by decide)).any.bind fun _ => inner.map
  | question | bang => exact inner.map
  | _ => exact takes_failAt.read

section Operands

variable {value : Walk Expr} {sub : Nat → Walk Expr} {type : Walk TypeExpr}
  {parser : Parser Expr} {subParser : Nat → Parser Expr} {typeParser : Parser TypeExpr}

/-- A field of a struct literal takes its dot at least. -/
theorem tracks_fieldInit (values : Tracks depth depth 1 value parser) :
    Tracks depth depth 1 (fieldInit value) (Parser.fieldInit parser) :=
  (tracks_skip (by decide)).bind fun _ => tracks_ident.any.bind fun _ =>
    (tracks_skip (by decide)).any.bind fun _ => values.any.map

/-- A struct literal takes its brace at least. -/
theorem tracks_structLit (values : Tracks depth depth 1 value parser) (name : Ident) :
    Tracks depth depth 1 (structLit value name) (Parser.structLit parser name) := by
  refine (tracks_skip (by decide)).bind fun _ => ?_
  refine ((tracks_fieldInit values).commaList _).bind fun _ => ?_
  exact (tracks_skip (by decide)).any.map

/-- An array literal is tracked from behind its bracket, which has been taken already. -/
theorem tracks_arrayLit (values : Tracks depth depth 1 value parser)
    (types : Tracks depth depth 1 type typeParser) (position : Position) :
    Tracks depth depth 0 (arrayLit value type position)
      (Parser.arrayLit parser typeParser position) := by
  refine (takes_of_settling Parser.settling_openLength).read.bind fun _ => ?_
  refine (tracks_skip (by decide)).any.bind fun _ => types.any.bind fun _ => ?_
  refine (tracks_skip (by decide)).any.bind fun _ => (values.commaList _).bind fun _ => ?_
  exact (tracks_skip (by decide)).any.map

/-- An operand takes its first token at least. -/
theorem tracks_operand (subs : ∀ least, Tracks depth depth 1 (sub least) (subParser least))
    (types : Tracks depth depth 1 type typeParser) :
    Tracks depth depth 1 (operand sub type) (Parser.operand subParser typeParser) := by
  refine .advance (fun token ends => ⟨.unexpectedInExpr, by simp only [ends]; rfl,
    by simp only [ends]; rfl⟩) fun token => ?_
  cases token.kind with
  | identifier =>
    refine (takes_of_settling Parser.settling_opensStructLit).read.bind fun _ => .ite ?_ ?_
    · exact (tracks_structLit (subs 0) _).any
    · exact tracks_pure _
  | number | string | trueWord | falseWord | nullWord | undefinedWord => exact tracks_pure _
  | leftParen => exact (subs 0).any.bind fun _ => (tracks_skip (by decide)).any.map
  | leftBracket => exact tracks_arrayLit (subs 0) types _
  | minus | bang | amp | tryWord => exact (subs _).any.map
  | _ => exact takes_failAt.read

/-- The token that begins an extension has been looked at before it is taken. -/
theorem agrees_extend {tokens : List Token} {before : Standing} {form : Extension}
    (subs : ∀ least, Tracks depth depth 1 (sub least) (subParser least))
    (ready : before.Ready tokens depth)
    (begins : Extension.ofKind? (next (endingOf tokens) (tokens.drop before.place)).kind =
      some form) (left : Expr) :
    Agrees tokens 1 before.place depth ((extend sub form left).run tokens before)
      ((Parser.extend subParser form left).run (endingOf tokens) (tokens.drop before.place)) := by
  refine .advance ready (Extension.usable_of_ofKind? begins).1 ?_
  cases form with
  | binary operator => exact (subs _).any.map
  | assign operator => exact .ite (subs _).any.map takes_failAt.read
  | dot => exact (takes_of_settling (Parser.settling_afterDot left)).read
  | call => exact ((subs 0).commaList _).bind fun _ => (tracks_skip (by decide)).any.map
  | index => exact (subs 0).any.bind fun _ => (tracks_skip (by decide)).any.map

end Operands

/-- The loop over the extensions goes round at most once for each token ahead, and once more. In the
end it gives back all levels but the outer ones.

Proof: by induction on the rounds. Each enters a level, which takes it from the room of the parser,
and extends the operand by at least one token. -/
theorem agrees_extendWithin {tokens : List Token} {sub : Nat → Walk Expr} {rounds : Nat}
    (subs : ∀ {depth room}, depth + room = maxDepth → room < calls → ∀ least,
      Tracks depth depth 1 (sub least) (Parser.expr room least))
    (within : outer ≤ maxDepth) (limit : depth + room = maxDepth) (enough : room ≤ calls)
    {before : Standing} (ready : before.Ready tokens depth)
    (few : (tokens.drop before.place).length < rounds) (left : Expr) :
    Agrees tokens 0 before.place outer
      ((extendWithin sub least outer rounds left).run tokens before)
      ((Parser.extensions room least left).run (endingOf tokens) (tokens.drop before.place)) := by
  induction rounds generalizing depth room before left with
  | zero => exact absurd few (Nat.not_lt_zero _)
  | succ rounds inductionHypothesis =>
    generalize found : (Extension.ofKind? (next (endingOf tokens)
      (tokens.drop before.place)).kind).filter (fun form => least ≤ form.leftPower) = answer
    have looked : (Parser.extensionAbove least).run (endingOf tokens) (tokens.drop before.place) =
        .ok (answer, tokens.drop before.place) := by
      unfold Parser.extensionAbove
      rw [Parser.run_bind_ok Parser.run_peek, Parser.run_pure, found]
    unfold Walk.extendWithin
    rw [run_bind, run_read_ahead ready.within looked]
    cases answer with
    | none =>
      have stops : (Parser.extensions room least left).run (endingOf tokens)
          (tokens.drop before.place) = .ok (left, tokens.drop before.place) := by
        cases room with
        | zero => exact Parser.run_bind_ok looked
        | succ room => exact Parser.run_bind_ok looked
      rw [stops]
      exact tracks_leave within tokens before ready
    | some form =>
      have begins := (Option.filter_eq_some_iff.mp found).1
      cases room with
      | zero =>
        have full : depth = maxDepth := limit
        subst full
        have fails : (Parser.extensions 0 least left).run (endingOf tokens)
            (tokens.drop before.place) = (Parser.fail .nestingTooDeep).run (endingOf tokens)
              (tokens.drop before.place) := Parser.run_bind_ok looked
        rw [fails]
        exact tracks_enter_full tokens before ready
      | succ room =>
        have goes : (Parser.extensions (room + 1) least left).run (endingOf tokens)
            (tokens.drop before.place) =
              (Parser.extend (Parser.expr room) form left >>= Parser.extensions room least).run
                (endingOf tokens) (tokens.drop before.place) := Parser.run_bind_ok looked
        rw [goes]
        have inside : depth + 1 + room = maxDepth := by omega
        refine .enter ready (by omega) fun {standing} same readyInside => ?_
        have extended := agrees_extend (subs inside enough) readyInside (same ▸ begins) left
        rw [same] at extended
        rw [run_bind, Parser.run_bind]
        generalize (extend sub form left).run tokens standing = outcome,
          (Parser.extend (Parser.expr room) form left).run (endingOf tokens)
            (tokens.drop before.place) = result at extended ⊢
        cases extended with
        | failed shallow => exact .failed shallow
        | @returned value after passes readyAfter =>
          have shorter := passes.length_le
          have later := inductionHypothesis inside (Nat.le_of_lt enough) readyAfter (by omega) value
          exact (later.since passes).any

/-- Operators behind an operand each take a level, and at the end all of them are given back. -/
theorem tracks_extensions {sub : Nat → Walk Expr}
    (subs : ∀ {depth room}, depth + room = maxDepth → room < calls → ∀ least,
      Tracks depth depth 1 (sub least) (Parser.expr room least))
    (within : outer ≤ maxDepth) (limit : depth + room = maxDepth) (enough : room ≤ calls)
    (left : Expr) :
    Tracks depth outer 0 (extensions sub least outer left)
      (Parser.extensions room least left) := by
  intro tokens before ready
  refine agrees_extendWithin subs within limit enough ready ?_ left
  rw [List.length_drop]
  omega

/-- By induction on the calls. -/
theorem tracks_expr (limit : depth + room = maxDepth) (enough : room < calls) (least : Nat) :
    Tracks depth depth 1 (expr calls least) (Parser.expr room least) := by
  induction calls generalizing depth room least with
  | zero => exact absurd enough (Nat.not_lt_zero room)
  | succ calls inductionHypothesis =>
    unfold Walk.expr
    cases room with
    | zero =>
      have full : depth = maxDepth := limit
      subst full
      exact tracks_enter_full
    | succ room =>
      have inside : depth + 1 + room = maxDepth := by omega
      have fewer : room < calls := Nat.lt_of_succ_lt_succ enough
      have subs (least : Nat) := inductionHypothesis inside fewer least
      refine .enter (by omega) ?_
      refine (tracks_operand subs (tracks_typeExpr inside fewer)).bind fun first => ?_
      exact tracks_extensions inductionHypothesis (by omega) inside (Nat.le_of_lt fewer) first

end SystemsLang.Walk
