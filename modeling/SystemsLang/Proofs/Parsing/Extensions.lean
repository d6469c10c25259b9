import SystemsLang.Parser.Expr
import SystemsLang.Proofs.Grammar.Expr
import SystemsLang.Proofs.Parsing.Run

/-!
# Binding powers and the table of precedence

The parser of expressions compares binding powers where the grammar has a table with rows. A row
stands for the power that its operators hold their left operand with, which grows from row to row,
and a binary operator looks for its right operand one power higher. So an operator may extend an
expression as far as a row allows exactly if its own row is no looser.

The module ends with what the loop of extensions does at the next token: it stops, or runs one
extension, or finds that there is no room for it.
-/

namespace SystemsLang.Parser

open Token (Kind Failure)
open Syntax (ParseError BinaryOp UnaryOp Extension Expr assignPower)
open Grammar

variable {ending token : Token} {tokens rest : List Token} {least room : Nat} {left : Expr}

/-- The row of the table that an extension belongs to. -/
def extensionRow : Extension → Nat
  | .assign _ => 0
  | .binary operator => operatorRow operator
  | .dot | .call | .index => postfixRow

/-- The power that the operators of a row hold their left operand with. -/
def rowPower (row : Nat) : Nat :=
  if row = 0 then assignPower.left else 2 * row + 1

/-- Powers grow with the rows. -/
theorem rowPower_le_iff {looser tighter : Nat} :
    rowPower looser ≤ rowPower tighter ↔ looser ≤ tighter := by
  unfold rowPower
  have assign : assignPower.left = 2 := rfl
  split <;> split <;> omega

/-- An extension has the power of its row. -/
theorem leftPower_eq (form : Extension) : form.leftPower = rowPower (extensionRow form) := by
  cases form with
  | binary operator => cases operator <;> rfl
  | assign operator => rfl
  | dot | call | index => rfl

/-- A binary operator holds its right operand more tightly than its left one. -/
theorem rightPower_eq (operator : BinaryOp) :
    operator.power.right = rowPower (operatorRow operator) + 1 := by
  cases operator <;> rfl

/-- Prefix operators hold their operand with the power of their row. -/
theorem prefixPower_eq : UnaryOp.power = rowPower prefixRow := rfl

/-- The rows of binary operators lie between assignment and the prefix operators. -/
theorem operatorRow_bounds (operator : BinaryOp) :
    0 < operatorRow operator ∧ operatorRow operator < prefixRow := by
  cases operator <;> decide

/-- The token that spells a binary operator begins that operator and no other extension. -/
theorem extension_of_operator (operator : BinaryOp) :
    Extension.ofKind? operator.kind = some (.binary operator) := by
  cases operator <;> rfl

/-- The token that spells an assignment begins that assignment and no other extension. -/
theorem extension_of_assign {operator : Option BinaryOp} {kind : Kind}
    (spelled : some kind = assignKind operator) :
    Extension.ofKind? kind = some (.assign operator) := by
  cases operator with
  | none =>
    cases spelled
    rfl
  | some operator =>
    cases operator <;> cases spelled <;> rfl

/-- The kinds of token that spell an extension, or its first token. -/
def Spelled (kind : Kind) : Extension → Prop
  | .assign operator => some kind = assignKind operator
  | .binary operator => kind = operator.kind
  | .dot => kind = .dot
  | .call => kind = .leftParen
  | .index => kind = .leftBracket

/-- A token that begins an extension is one that spells it. -/
theorem spelled_of_ofKind? {form : Extension} {kind : Kind}
    (begun : Extension.ofKind? kind = some form) : Spelled kind form := by
  cases kind <;> cases begun <;> rfl

/-- A token that begins an extension records no lexical failure. -/
theorem of?_eq_none_of_extension {form : Extension}
    (begins : Extension.ofKind? token.kind = some form) : Failure.of? token = none := by
  unfold Failure.of?
  split
  · rename_i failing
    rw [failing] at begins
    cases begins
  · rename_i failing
    rw [failing] at begins
    cases begins
  · rfl

/-- No extension that a token begins binds tightly enough to belong to an expression. -/
def Stops (least : Nat) (token : Token) : Prop :=
  ∀ form, Extension.ofKind? token.kind = some form → form.leftPower < least

/-- An operator that a token begins takes an expression of a row as its left operand: it is of no
tighter row, and the row is not that of assignments, which are nobody's left operand. -/
def Looser (row : Nat) (token : Token) : Prop :=
  ∀ form, Extension.ofKind? token.kind = some form → 0 < row ∧ extensionRow form ≤ row

/-- Every operator takes an operand on its left. -/
theorem looser_postfix : Looser postfixRow token := by
  intro form _
  refine ⟨Nat.succ_pos 7, ?_⟩
  cases form with
  | binary operator => exact Nat.le_of_lt (Nat.lt_succ_of_lt (operatorRow_bounds operator).2)
  | assign operator => exact Nat.zero_le _
  | dot | call | index => exact Nat.le_refl _

/-- What the loop sees at the next token. -/
theorem run_extensionAbove :
    (extensionAbove least).run ending tokens =
      .ok ((Extension.ofKind? (next ending tokens).kind).filter (least ≤ ·.leftPower), tokens) := by
  unfold extensionAbove
  rw [run_bind_ok run_peek, run_pure]

/-- If the next token begins nothing that binds tightly enough, the expression ends before it. -/
theorem run_extensions_stop (stops : Stops least (next ending tokens)) :
    (extensions room least left).run ending tokens = .ok (left, tokens) := by
  have none : (Extension.ofKind? (next ending tokens).kind).filter (least ≤ ·.leftPower) =
      none := by
    cases begun : Extension.ofKind? (next ending tokens).kind with
    | none => rfl
    | some form =>
      have looser := stops form begun
      simp only [Option.filter_some, decide_eq_true_eq]
      exact if_neg (by omega)
  cases room <;>
  · unfold extensions
    rw [run_bind_ok run_extensionAbove, none]
    rfl

/-- If it does bind tightly enough and there is room, it extends the expression by one operator. -/
theorem run_extensions_succ {form : Extension}
    (begun : Extension.ofKind? (next ending tokens).kind = some form)
    (binds : least ≤ form.leftPower) :
    (extensions (room + 1) least left).run ending tokens =
      (extend (expr room) form left >>= extensions room least).run ending tokens := by
  have found : (Extension.ofKind? (next ending tokens).kind).filter (least ≤ ·.leftPower) =
      some form := by
    rw [begun, Option.filter_some]
    exact if_pos (by simpa using binds)
  unfold extensions
  rw [run_bind_ok run_extensionAbove, found]

/-- Without room the operator is where nesting is too deep. -/
theorem run_extensions_zero {form : Extension}
    (begun : Extension.ofKind? (next ending tokens).kind = some form)
    (binds : least ≤ form.leftPower) :
    (extensions 0 least left).run ending tokens =
      (fail .nestingTooDeep : Parser Expr).run ending tokens := by
  have found : (Extension.ofKind? (next ending tokens).kind).filter (least ≤ ·.leftPower) =
      some form := by
    rw [begun, Option.filter_some]
    exact if_pos (by simpa using binds)
  unfold extensions
  rw [run_bind_ok run_extensionAbove, found]

end SystemsLang.Parser
