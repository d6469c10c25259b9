import SystemsLang.Parser.Expr
import SystemsLang.Proofs.Parsing.Settled

/-!
# Types and expressions settle

Types and expressions are parsed with a look at two tokens at most: an opening brace behind a name,
and the token behind that, which together tell a struct literal from a name.
-/

namespace SystemsLang

namespace Syntax

open Token (Kind)

/-- A token that begins an extension can belong to a program. -/
theorem Extension.usable_of_ofKind? {kind : Kind} {form : Extension}
    (begins : Extension.ofKind? kind = some form) : kind.Usable := by
  have isSome : (Extension.ofKind? kind).isSome = true := Option.isSome_of_eq_some begins
  revert isSome
  cases kind <;> decide

/-- A token that stands for a prefix operator can belong to a program. -/
theorem UnaryOp.usable_of_ofKind? {kind : Kind} {operator : UnaryOp}
    (stands : UnaryOp.ofKind? kind = some operator) : kind.Usable := by
  have isSome : (UnaryOp.ofKind? kind).isSome = true := Option.isSome_of_eq_some stands
  revert isSome
  cases kind <;> decide

end Syntax

namespace Parser

open Token (Kind)
open Syntax

variable {ending : Token} {tokens : List Token}

/-- A token of a kind that can belong to a program is usable. -/
theorem usable_of_kind {token : Token} {kind : Kind} (same : token.kind = kind)
    (usable : kind.Usable) : token.kind.Usable :=
  same ▸ usable

/-- A name settles. -/
theorem settling_ident : Settling ident :=
  (settling_expect (by decide)).bind fun _ => settling_pure _

/-- The length of an array settles, whether it fits or not. -/
theorem settling_arrayLength : Settling arrayLength := by
  intro ending tokens isEnding
  by_cases seen : (next ending tokens).kind = .number
  · obtain ⟨rest, stands⟩ := eq_cons_of_next isEnding seen (by decide)
    cases read : Text.readWord? (next ending tokens).text.toList with
    | some length =>
      rw [stands]
      refine .behindOne (usable_of_kind seen (by decide)) (fun ending' others _ => ?_)
        (settling_pure length ending rest isEnding)
      unfold arrayLength
      rw [run_bind_ok (run_expect seen), read]
    | none =>
      -- The token is taken before its text is read, but the error is still at that token.
      refine .fails (.invalidArrayLength (next ending tokens).text) rfl
        fun ending' others agrees => ?_
      have notEnding : (next ending tokens).kind ≠ .ending := by
        rw [seen]
        decide
      rw [stands] at agrees ⊢
      obtain ⟨later, rfl, -⟩ := agrees.exists_cons notEnding
      unfold arrayLength
      rw [run_bind_ok (run_expect seen), read]
      rfl
  · refine .fails (.expected .number) rfl fun ending' others agrees => ?_
    exact run_bind_error (run_expect_other (by rwa [agrees.next (by omega)]))

/-- A type expression settles. The induction is on the room. -/
theorem settling_typeExpr (room : Nat) : Settling (typeExpr room) := by
  induction room with
  | zero => exact settling_fail rfl
  | succ room inner =>
  have const : Settling (take .constWord) := settling_take (by decide)
  refine .advance fun token => ?_
  split
  · rename_i same
    exact .goesOn (usable_of_kind same (by decide)) (settling_pure _)
  · rename_i same
    exact .goesOn (usable_of_kind same (by decide)) (settling_pure _)
  · rename_i same
    exact .goesOn (usable_of_kind same (by decide))
      (const.bind fun _ => inner.bind fun _ => settling_pure _)
  · rename_i same
    refine .goesOn (usable_of_kind same (by decide))
      ((settling_take (by decide)).bind fun _ => .ite ?_ ?_)
    · exact const.bind fun _ => inner.bind fun _ => settling_pure _
    · exact settling_arrayLength.bind fun _ => (settling_skip (by decide)).bind fun _ =>
        inner.bind fun _ => settling_pure _
  · rename_i same
    exact .goesOn (usable_of_kind same (by decide)) (inner.bind fun _ => settling_pure _)
  · rename_i same
    exact .goesOn (usable_of_kind same (by decide)) (inner.bind fun _ => settling_pure _)
  · exact .fails rfl

section Operands

variable {value : Parser Expr} {sub : Nat → Parser Expr} {type : Parser TypeExpr}

/-- Two tokens tell whether a struct literal begins, and none is taken. -/
theorem run_opensStructLit :
    opensStructLit.run ending tokens =
      .ok ((next ending tokens).kind == .leftBrace &&
        ((next ending tokens.tail).kind == .dot || (next ending tokens.tail).kind == .rightBrace),
        tokens) := by
  have second : tokens[1]?.getD ending = next ending tokens.tail := by
    rw [next, List.head?_eq_getElem?, List.getElem?_tail]
  unfold opensStructLit
  rw [run_bind_ok run_peek, run_bind_ok (run_peekAt 1), second, run_pure]

/-- The second of the two makes a difference only behind an opening brace. -/
theorem settling_opensStructLit : Settling opensStructLit := by
  intro ending tokens isEnding
  by_cases opens : (next ending tokens).kind = .leftBrace
  · have notEnding : (next ending tokens).kind ≠ .ending := by
      rw [opens]
      decide
    let inner := next ending tokens.tail
    refine .stops (inner.kind == .dot || inner.kind == .rightBrace) fun ending' others agrees => ?_
    rw [run_opensStructLit, agrees.next (by omega), agrees.next_tail isEnding notEnding, opens,
      beq_self_eq_true, Bool.true_and]
  · refine .stops false fun ending' others agrees => ?_
    rw [run_opensStructLit, agrees.next (by omega), beq_false_of_ne opens, Bool.false_and]

/-- A struct literal settles if its values do. -/
theorem settling_structLit (values : Settling value) (name : Ident) :
    Settling (structLit value name) := by
  have field : Settling (fieldInit value) :=
    (settling_skip (by decide)).bind fun _ => settling_ident.bind fun _ =>
      (settling_skip (by decide)).bind fun _ => values.bind fun _ => settling_pure _
  refine (settling_skip (by decide)).bind fun _ => ?_
  refine (field.commaList _).bind fun _ => ?_
  exact (settling_skip (by decide)).bind fun _ => settling_pure _

/-- A length that may be left open settles. -/
theorem settling_openLength : Settling openLength := by
  refine .peek fun ending tokens isEnding => ?_
  split
  · rename_i blank
    exact .skip isEnding (usable_of_kind blank.1 (by decide)) (settling_pure none)
  · exact settling_arrayLength.bind (fun length => settling_pure (some length)) _ _ isEnding

/-- An array literal settles if its type and its elements do. -/
theorem settling_arrayLit (values : Settling value) (types : Settling type)
    (position : Position) : Settling (arrayLit value type position) := by
  refine settling_openLength.bind fun _ => (settling_skip (by decide)).bind fun _ => ?_
  refine types.bind fun _ => (settling_skip (by decide)).bind fun _ => ?_
  refine (values.commaList _).bind fun _ => ?_
  exact (settling_skip (by decide)).bind fun _ => settling_pure _

/-- An operand settles if the parts inside of it do. -/
theorem settling_operand (subs : ∀ least, Settling (sub least)) (types : Settling type) :
    Settling (operand sub type) := by
  refine .advance fun token => ?_
  split
  · rename_i same
    refine .goesOn (usable_of_kind same (by decide)) (settling_opensStructLit.bind fun _ => ?_)
    exact .ite (settling_structLit (subs 0) _) (settling_pure _)
  iterate 6
    rename_i same
    exact .goesOn (usable_of_kind same (by decide)) (settling_pure _)
  · rename_i same
    refine .goesOn (usable_of_kind same (by decide)) ((subs 0).bind fun _ => ?_)
    exact (settling_skip (by decide)).bind fun _ => settling_pure _
  · rename_i same
    exact .goesOn (usable_of_kind same (by decide)) (settling_arrayLit (subs 0) types _)
  · split
    · rename_i operator stands
      exact .goesOn (UnaryOp.usable_of_ofKind? stands) ((subs _).bind fun _ => settling_pure _)
    · exact .fails rfl

/-- What stands behind a dot settles. -/
theorem settling_afterDot (left : Expr) : Settling (afterDot left) := by
  refine .advance fun token => ?_
  split
  · rename_i same
    exact .goesOn (usable_of_kind same (by decide)) (settling_pure _)
  · rename_i same
    exact .goesOn (usable_of_kind same (by decide)) (settling_pure _)
  · rename_i same
    exact .goesOn (usable_of_kind same (by decide)) (settling_pure _)
  · exact .fails rfl

/-- The token that begins an extension has been looked at before it is taken. -/
theorem settles_extend (isEnding : ending.kind = .ending)
    (subs : ∀ least, Settling (sub least)) {form : Extension}
    (begins : Extension.ofKind? (next ending tokens).kind = some form) (left : Expr) :
    Settles (extend sub form left) ending tokens := by
  have usable := Extension.usable_of_ofKind? begins
  refine .advance isEnding ?_
  cases form with
  | binary operator => exact .goesOn usable ((subs _).bind fun _ => settling_pure _)
  | assign operator =>
    dsimp only
    split
    · exact .goesOn usable ((subs _).bind fun _ => settling_pure _)
    · exact .fails rfl
  | dot => exact .goesOn usable (settling_afterDot left)
  | call =>
    refine .goesOn usable (((subs 0).commaList _).bind fun _ => ?_)
    exact (settling_skip (by decide)).bind fun _ => settling_pure _
  | index =>
    refine .goesOn usable ((subs 0).bind fun _ => ?_)
    exact (settling_skip (by decide)).bind fun _ => settling_pure _

end Operands

/-- What is done about the extension that the next token begins has to settle there. -/
theorem settling_extensionAbove {α : Type} {least : Nat}
    {goesOn : Option Extension → Parser α} (absent : Settling (goesOn none))
    (present : ∀ form ending tokens, ending.kind = .ending →
      Extension.ofKind? (next ending tokens).kind = some form →
        Settles (goesOn (some form)) ending tokens) :
    Settling (extensionAbove least >>= goesOn) := by
  unfold extensionAbove
  rw [bind_assoc]
  refine .peek fun ending tokens isEnding => ?_
  rw [pure_bind]
  cases found : (Extension.ofKind? (next ending tokens).kind).filter
      fun form => least ≤ form.leftPower with
  | none => exact absent ending tokens isEnding
  | some form =>
    exact present form ending tokens isEnding (Option.filter_eq_some_iff.mp found).1

/-- Extending an operand settles if the expressions behind the extensions do. -/
theorem settling_extensions {room least : Nat}
    (subs : ∀ room' < room, ∀ least, Settling (expr room' least)) (left : Expr) :
    Settling (extensions room least left) := by
  induction room generalizing left with
  | zero =>
    refine settling_extensionAbove (settling_pure left) fun form ending tokens isEnding _ => ?_
    exact settling_fail rfl ending tokens isEnding
  | succ room inductionHypothesis =>
    refine settling_extensionAbove (settling_pure left) fun form ending tokens isEnding begins => ?_
    have longer := settles_extend isEnding (subs room (Nat.lt_succ_self room)) begins left
    refine longer.bind fun extended rest => ?_
    exact inductionHypothesis (fun room' less => subs room' (Nat.lt_succ_of_lt less)) extended
      ending rest isEnding

/-- An expression settles. The induction is on the room, of which the parts have less. -/
theorem settling_expr (room least : Nat) : Settling (expr room least) := by
  induction room using Nat.strongRecOn generalizing least with
  | _ room inductionHypothesis =>
  cases room with
  | zero => exact settling_fail rfl
  | succ room =>
    have subs := inductionHypothesis room (Nat.lt_succ_self room)
    refine (settling_operand subs (settling_typeExpr room)).bind fun first => ?_
    exact settling_extensions
      (fun room' less => inductionHypothesis room' (Nat.lt_succ_of_lt less)) first

end Parser

end SystemsLang
