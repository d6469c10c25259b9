import Mathlib.Tactic.Ring
import SystemsLang.Proofs.Parsing.Recognition

/-!
# How high accepted trees are

The height of a tree is the most expressions, blocks, `if` statements and type expressions that lie
on one way from its root to a leaf. The parser spends a level of nesting on each of them, but gives
the levels of a finished part back before it extends that part by operators. An operand may
therefore be as high as its levels allow, and every operator behind it makes the tree higher still.

So the height of what is derived on some levels is not bounded by the levels. It is bounded by the
levels together with the operators that stand behind operands with parts of their own, and in any
case by the sum of all numbers up to the levels (`within_of_derives`). A tower of array literals,
each unwrapped as often as its levels allow, is as high as that (`height_tower`).
-/

namespace SystemsLang.Syntax

/-- The number of type expressions that stand inside one another. -/
def TypeExpr.height : TypeExpr → Nat
  | primitive .. | named .. => 1
  | pointer _ _ inner | array _ _ inner | slice _ _ inner | optional _ inner
  | errorUnion _ inner => inner.height + 1

namespace Expr

mutual

/-- The most expressions and types on a way from an expression to a leaf. -/
def height : Expr → Nat
  | number .. | string .. | bool .. | null _ | undefined _ | ident .. => 1
  | binary _ _ left right => max left.height right.height + 1
  | unary _ _ operand => operand.height + 1
  | call _ callee arguments => max callee.height (heightAll arguments) + 1
  | member _ object _ | deref _ object | unwrap _ object => object.height + 1
  | index _ object subscript => max object.height subscript.height + 1
  | assign _ _ target value => max target.height value.height + 1
  | structLit _ _ fields => heightFields fields + 1
  | arrayLit _ _ elementType elements => max elementType.height (heightAll elements) + 1

/-- The height of the highest of several expressions. -/
def heightAll : List Expr → Nat
  | [] => 0
  | first :: rest => max first.height (heightAll rest)

/-- The height of the highest of several named expressions. -/
def heightFields : List (Ident × Expr) → Nat
  | [] => 0
  | (_, value) :: rest => max value.height (heightFields rest)

end

mutual

/-- The most operators on a way from an expression to a leaf that stand behind an operand with parts
of its own, and behind the way. What is put behind a name or a literal does not count. -/
def overhang : Expr → Nat
  | number .. | string .. | bool .. | null _ | undefined _ | ident .. => 0
  | binary _ _ left right => max (if left.height = 1 then 0 else left.overhang + 1) right.overhang
  | unary _ _ operand => operand.overhang
  | call _ callee arguments =>
    max (if callee.height = 1 then 0 else callee.overhang + 1) (overhangAll arguments)
  | member _ object _ | deref _ object | unwrap _ object =>
    if object.height = 1 then 0 else object.overhang + 1
  | index _ object subscript =>
    max (if object.height = 1 then 0 else object.overhang + 1) subscript.overhang
  | assign _ _ target value =>
    max (if target.height = 1 then 0 else target.overhang + 1) value.overhang
  | structLit _ _ fields => overhangFields fields
  | arrayLit _ _ _ elements => overhangAll elements

/-- The most such operators in one of several expressions. -/
def overhangAll : List Expr → Nat
  | [] => 0
  | first :: rest => max first.overhang (overhangAll rest)

/-- The most such operators in one of several named expressions. -/
def overhangFields : List (Ident × Expr) → Nat
  | [] => 0
  | (_, value) :: rest => max value.overhang (overhangFields rest)

end

/-- Where an expression stands has no part in its height. -/
@[simp] theorem height_moveTo (position : Position) (value : Expr) :
    (value.moveTo position).height = value.height := by
  cases value <;> simp [moveTo, height]

/-- How far an expression hangs over does not depend on its position. -/
@[simp] theorem overhang_moveTo (position : Position) (value : Expr) :
    (value.moveTo position).overhang = value.overhang := by
  cases value <;> simp [moveTo, overhang]

end Expr

/-- The height of the type or the initializer of a variable. -/
def VarDecl.height (declared : VarDecl) : Nat :=
  max ((declared.type.map TypeExpr.height).getD 0) ((declared.init.map Expr.height).getD 0)

/-- The operators behind operands in the initializer of a variable. -/
def VarDecl.overhang (declared : VarDecl) : Nat :=
  (declared.init.map Expr.overhang).getD 0

namespace Stmt

mutual

/-- The most expressions, blocks, `if` statements and types on a way from a statement to a leaf.
Every block counts, and so does every `if`. -/
def height : Stmt → Nat
  | block _ body | comptime _ body => heightAll body + 1
  | returns _ value => (value.map Expr.height).getD 0
  | branch _ condition body otherwise =>
    max condition.height (max (heightAll body + 1) (heightOption otherwise)) + 1
  | whileLoop _ condition body => max condition.height (heightAll body + 1)
  | forLoop _ init condition step body =>
    max (heightOption init) (max ((condition.map Expr.height).getD 0)
      (max ((step.map Expr.height).getD 0) (heightAll body + 1)))
  | breakLoop _ | continueLoop _ => 0
  | expr _ value => value.height
  | declare _ declared => declared.height

/-- The height of the highest of several statements. -/
def heightAll : List Stmt → Nat
  | [] => 0
  | first :: rest => max first.height (heightAll rest)

/-- The height of a statement that may be missing. -/
def heightOption : Option Stmt → Nat
  | none => 0
  | some statement => statement.height

end

mutual

/-- The most operators behind operands on a way from a statement to a leaf. -/
def overhang : Stmt → Nat
  | block _ body | comptime _ body => overhangAll body
  | returns _ value => (value.map Expr.overhang).getD 0
  | branch _ condition body otherwise =>
    max condition.overhang (max (overhangAll body) (overhangOption otherwise))
  | whileLoop _ condition body => max condition.overhang (overhangAll body)
  | forLoop _ init condition step body =>
    max (overhangOption init) (max ((condition.map Expr.overhang).getD 0)
      (max ((step.map Expr.overhang).getD 0) (overhangAll body)))
  | breakLoop _ | continueLoop _ => 0
  | expr _ value => value.overhang
  | declare _ declared => declared.overhang

/-- The most such operators in one of several statements. -/
def overhangAll : List Stmt → Nat
  | [] => 0
  | first :: rest => max first.overhang (overhangAll rest)

/-- The most such operators in a statement that may be missing. -/
def overhangOption : Option Stmt → Nat
  | none => 0
  | some statement => statement.overhang

end

end Stmt

/-- The height of the highest part of a declaration. The body of a function is a block. -/
def Decl.height : Decl → Nat
  | fn declared =>
    max ((declared.params.map fun param => param.type.height).foldr max 0)
      (max declared.returnType.height (Stmt.heightAll declared.body + 1))
  | var declared => declared.height
  | struct declared => (declared.fields.map fun field => field.type.height).foldr max 0

/-- The operators behind operands in a declaration. -/
def Decl.overhang : Decl → Nat
  | fn declared => Stmt.overhangAll declared.body
  | var declared => declared.overhang
  | struct _ => 0

/-- The most expressions, blocks, `if` statements and types on a way from the root of a program to
a leaf. -/
def Program.height (program : Program) : Nat :=
  (program.map Decl.height).foldr max 0

/-- The most operators on a way from the root of a program to a leaf that stand behind an operand
with parts of its own, and behind the way. -/
def Program.overhang (program : Program) : Nat :=
  (program.map Decl.overhang).foldr max 0

end SystemsLang.Syntax

namespace SystemsLang.Grammar

open Token (Kind)
open Syntax

/-- The greatest height that a number of levels allows: every level that is added on top of others
may stand on all they allow, with as many operators behind as there are levels below it. -/
def mostHeight : Nat → Nat
  | 0 => 0
  | levels + 1 => mostHeight levels + (levels + 1)

/-- The greatest height is the sum of all numbers up to the levels. -/
theorem mostHeight_eq (levels : Nat) : mostHeight levels = levels * (levels + 1) / 2 := by
  have double : mostHeight levels * 2 = levels * (levels + 1) := by
    induction levels with
    | zero => rfl
    | succ levels inductionHypothesis =>
      rw [mostHeight, Nat.add_mul, inductionHypothesis]
      ring
  rw [← double, Nat.mul_div_cancel _ (by decide)]

/-- More levels do not allow less. -/
theorem mostHeight_mono {levels more : Nat} (le : levels ≤ more) :
    mostHeight levels ≤ mostHeight more := by
  induction le with
  | refl => exact Nat.le_refl _
  | step _ inductionHypothesis => exact Nat.le_trans inductionHypothesis (Nat.le_add_right _ _)

/-- A level by itself makes a tree one higher at most. -/
theorem mostHeight_lt (levels : Nat) : mostHeight levels + 1 ≤ mostHeight (levels + 1) := by
  rw [mostHeight]
  omega

variable {tokens : List Token} {levels : Nat}

/-- Levels are not more than the height that they allow. -/
theorem le_mostHeight (levels : Nat) : levels ≤ mostHeight levels := by
  cases levels with
  | zero => exact Nat.le_refl 0
  | succ levels => exact Nat.le_add_left _ _

/-- The bounds on the height of what is derived on some levels and has some operators behind
operands. -/
structure Within (levels overhang height : Nat) : Prop where
  most : height ≤ mostHeight levels
  linear : height ≤ levels + overhang

namespace Within

variable {more overhang other height second : Nat}

/-- Of what has no height nothing is asked. -/
theorem zero : Within levels overhang 0 :=
  ⟨Nat.zero_le _, Nat.zero_le _⟩

/-- What is no higher than its levels is within the bounds. -/
theorem of_le (le : height ≤ levels) : Within levels overhang height :=
  ⟨Nat.le_trans le (le_mostHeight levels), Nat.le_add_right_of_le le⟩

/-- Two parts are within the bounds of both. -/
theorem both (head : Within levels overhang height) (tail : Within more other second) :
    Within (max levels more) (max overhang other) (max height second) where
  most := Nat.max_le.mpr ⟨Nat.le_trans head.most (mostHeight_mono (Nat.le_max_left _ _)),
    Nat.le_trans tail.most (mostHeight_mono (Nat.le_max_right _ _))⟩
  linear := by
    have first := head.linear
    have last := tail.linear
    omega

/-- A part is within the bounds together with nothing. -/
theorem alone (part : Within levels overhang height) :
    Within levels (max overhang 0) (max height 0) := by
  rwa [Nat.max_zero, Nat.max_zero]

/-- One level more allows one more. -/
theorem succ (inner : Within levels overhang height) :
    Within (levels + 1) overhang (height + 1) where
  most := Nat.le_trans (Nat.succ_le_succ inner.most) (mostHeight_lt levels)
  linear := by
    have bound := inner.linear
    omega

end Within

/-- A type is no higher than its levels. -/
theorem DerivesType.height_le {type : TypeExpr} (derived : DerivesType tokens type levels) :
    type.height ≤ levels := by
  induction derived with
  | primitive | named => exact Nat.le_refl 1
  | pointer _ _ _ inductionHypothesis | array _ _ _ _ inductionHypothesis
  | slice _ _ _ _ inductionHypothesis | optional _ _ inductionHypothesis
  | errorUnion _ _ inductionHypothesis => exact Nat.succ_le_succ inductionHypothesis

/-- A type is within the bounds, and has no operators. -/
theorem DerivesType.within {type : TypeExpr} (derived : DerivesType tokens type levels) :
    Within levels 0 type.height :=
  .of_le derived.height_le

/-- The height of an expression with a chain of operators, of which the first operand was finished
on one level less, and each operator added one to the height. -/
structure WithinChain (chain levels overhang height : Nat) : Prop where
  chained : ∃ below, levels = below + 1 ∧ chain ≤ below ∧ height ≤ mostHeight below + chain + 1
  linear : height ≤ levels + overhang

/-- The chain is never longer than the levels below the first, so the whole is within the bounds. -/
theorem WithinChain.within {chain overhang height : Nat}
    (inner : WithinChain chain levels overhang height) : Within levels overhang height where
  most := by
    obtain ⟨below, rfl, shorter, bound⟩ := inner.chained
    rw [mostHeight]
    omega
  linear := inner.linear

/-- An operand is one higher than what it encloses. -/
theorem WithinChain.operand {overhang height : Nat} (inner : Within levels overhang height) :
    WithinChain 0 (levels + 1) overhang (height + 1) :=
  ⟨⟨levels, rfl, Nat.zero_le _, Nat.succ_le_succ inner.most⟩, inner.succ.linear⟩

/-- One operator more keeps the bounds, since it takes up a level above the whole chain. What stands
behind the operator has to fit into the levels that are left; what stands before it need not, and
the operator counts if that has parts of its own. -/
theorem WithinChain.extend {chain more overhang height other second : Nat}
    (left : WithinChain chain levels overhang height) (right : Within more other second) :
    WithinChain (chain + 1) (max levels (chain + 2 + more))
      (max (if height = 1 then 0 else overhang + 1) other) (max height second + 1) where
  chained := by
    obtain ⟨below, rfl, shorter, bound⟩ := left.chained
    refine ⟨max below (chain + 1 + more), by omega, by omega, ?_⟩
    have before : mostHeight below ≤ mostHeight (max below (chain + 1 + more)) :=
      mostHeight_mono (Nat.le_max_left _ _)
    have behind : mostHeight more ≤ mostHeight (max below (chain + 1 + more)) :=
      mostHeight_mono (by omega)
    have bound' := right.most
    omega
  linear := by
    have before := left.linear
    have behind := right.linear
    split <;> omega

/-- An operator with nothing behind it keeps the bounds as well. -/
theorem WithinChain.postfix {chain overhang height : Nat}
    (left : WithinChain chain levels overhang height) :
    WithinChain (chain + 1) (max levels (chain + 2)) (if height = 1 then 0 else overhang + 1)
      (height + 1) := by
  have extended := left.extend (Within.zero : Within 0 0 0)
  rwa [Nat.max_zero, Nat.max_zero] at extended

/-- What the levels of a derivation say of the height of a phrase. -/
def HeightBound : Phrase → Nat → Prop
  | .expr _ chain value, levels => WithinChain chain levels value.overhang value.height
  | .arguments values, levels => Within levels (Expr.overhangAll values) (Expr.heightAll values)
  | .inits values, levels => Within levels (Expr.overhangFields values) (Expr.heightFields values)

/-- Every phrase of expressions is within the bounds. -/
theorem Derives.heightBound {phrase : Phrase} (derived : Derives tokens phrase levels) :
    HeightBound phrase levels := by
  induction derived with
  | number | string | trueWord | falseWord | null | undefined | ident => exact .operand .zero
  | group _ _ _ inner =>
    -- A group takes up a level and does not show in the tree.
    have bound := inner.within
    change WithinChain 0 _ (Expr.overhang _) (Expr.height _)
    rw [Expr.height_moveTo, Expr.overhang_moveTo]
    exact ⟨⟨_, rfl, Nat.zero_le _, Nat.le_succ_of_le bound.most⟩,
      Nat.le_trans bound.linear (Nat.add_le_add_right (Nat.le_succ _) _)⟩
  | structLit _ _ _ _ inner => exact .operand inner
  | arrayLit _ _ _ typed _ _ _ inner =>
    have both := typed.within.both inner
    rw [Nat.zero_max] at both
    exact .operand both
  | before _ _ inner => exact .operand inner.within
  | call _ _ _ _ left inner => exact left.extend inner
  | index _ _ _ _ left inner => exact left.extend inner.within
  | member _ _ _ left | deref _ _ _ left | unwrap _ _ _ left => exact left.postfix
  | binary _ _ _ left right => exact left.extend right.within
  | assign _ _ _ _ left right => exact left.extend right.within
  | loosen _ tighter => exact tighter
  | noArgument | noInit => exact .zero
  | lastArgument _ item | lastInit _ _ _ _ item => exact item.within.alone
  | argument _ _ _ item later => exact item.within.both later
  | init _ _ _ _ _ _ item later => exact item.within.both later

/-- An expression is within the bounds. -/
theorem DerivesExpr.within {value : Expr} (derived : DerivesExpr tokens value levels) :
    Within levels value.overhang value.height := by
  obtain ⟨chain, whole⟩ := derived
  exact whole.heightBound.within

/-- An expression that may be left out is within the bounds. -/
theorem within_possibly {value : Option Expr} (derived : Possibly DerivesExpr tokens value levels) :
    Within levels ((value.map Expr.overhang).getD 0) ((value.map Expr.height).getD 0) := by
  cases derived with
  | absent => exact .zero
  | present item => exact item.within

/-- A variable is within the bounds. -/
theorem DerivesVar.within {isPub : Bool} {position : Position} {declared : VarDecl}
    (derived : DerivesVar isPub position tokens declared levels) :
    Within levels declared.overhang declared.height := by
  cases derived with
  | @intro _ _ _ _ _ _ type init typeLevels initLevels _ _ typed assigned _ =>
    have typeBound : Within typeLevels 0 ((type.map TypeExpr.height).getD 0) := by
      cases typed with
      | absent => exact .zero
      | present _ item => exact item.within
    have initBound : Within initLevels ((init.map Expr.overhang).getD 0)
        ((init.map Expr.height).getD 0) := by
      cases assigned with
      | absent => exact .zero
      | present _ item => exact item.within
    have both := typeBound.both initBound
    rwa [Nat.zero_max] at both

/-- The first part in the header of a `for` is within the bounds. -/
theorem ForStart.within {short : Bool} {init : Option Stmt}
    (derived : ForStart short tokens init levels) :
    Within levels (Stmt.overhangOption init) (Stmt.heightOption init) := by
  cases derived with
  | empty | omitted => exact .zero
  | declare var => exact var.within
  | expr item => exact item.within

/-- What the levels of a derivation say of the height of a phrase of statements. -/
def StmtHeightBound : StmtPhrase → Nat → Prop
  | .stmt value, levels | .branch value, levels => Within levels value.overhang value.height
  | .block _ body, levels => Within levels (Stmt.overhangAll body) (Stmt.heightAll body + 1)
  | .body statements, levels =>
    Within levels (Stmt.overhangAll statements) (Stmt.heightAll statements)

/-- Every phrase of statements is within the bounds. -/
theorem DerivesStmt.heightBound {short : Bool} {phrase : StmtPhrase}
    (derived : DerivesStmt short tokens phrase levels) : StmtHeightBound phrase levels := by
  induction derived with
  | braces _ _ _ inner => exact inner.succ
  | empty => exact .zero
  | cons _ _ head tail => exact head.both tail
  | branchOnly _ _ tested _ _ taken =>
    exact (tested.within.both taken.alone).succ
  | branchElse _ _ tested _ _ _ _ taken other | branchChain _ _ tested _ _ _ _ taken other =>
    exact (tested.within.both (taken.both other)).succ
  | branch _ inner | block _ inner | comptime _ _ inner => exact inner
  | returns _ given _ => exact within_possibly given
  | whileLoop _ _ tested _ _ inner => exact tested.within.both inner
  | forLoop _ _ starts tested _ stepped _ _ inner =>
    exact starts.within.both ((within_possibly tested).both ((within_possibly stepped).both inner))
  | breakLoop | continueLoop => exact .zero
  | declare var => exact var.within
  | expr item => exact item.within

/-- Items with commas between them are as high as their levels at most if every item is. -/
theorem CommaList.height_le {α : Type} {Item : List Token → α → Nat → Prop} {values : List α}
    (derived : CommaList Item tokens values levels) (height : α → Nat)
    (item : ∀ tokens value levels, Item tokens value levels → height value ≤ levels) :
    (values.map height).foldr max 0 ≤ levels := by
  induction derived with
  | nil => exact Nat.le_refl 0
  | last single => exact Nat.max_le.mpr ⟨item _ _ _ single, Nat.zero_le _⟩
  | cons first _ _ inductionHypothesis =>
    exact Nat.max_le.mpr ⟨Nat.le_trans (item _ _ _ first) (Nat.le_max_left _ _),
      Nat.le_trans inductionHypothesis (Nat.le_max_right _ _)⟩

/-- A declaration is within the bounds. -/
theorem DerivesDecl.within {short : Bool} {declared : Decl}
    (derived : DerivesDecl short tokens declared levels) :
    Within levels declared.overhang declared.height := by
  cases derived with
  | fn _ _ _ _ _ listed _ typed inner _ =>
    have paramBound := listed.height_le (fun param : Param => param.type.height)
        fun _ _ _ param => by
      cases param with
      | intro _ _ _ typed _ => exact typed.height_le
    have parts :=
      (Within.of_le paramBound : Within _ 0 _).both (typed.within.both inner.heightBound)
    rw [Nat.zero_max, Nat.zero_max] at parts
    exact parts
  | var _ inner _ => exact inner.within
  | struct _ _ _ _ _ _ listed _ _ _ =>
    have fieldBound := listed.height_le (fun field : Field => field.type.height)
        fun _ _ _ field => by
      cases field with
      | intro _ _ typed => exact typed.height_le
    exact .of_le fieldBound

/-- A program is within the bounds of the levels that it is derived on. -/
theorem within_of_derives {short : Bool} {program : Program}
    (derived : DerivesProgram short tokens program levels) :
    Within levels program.overhang program.height := by
  induction derived with
  | nil => exact .zero
  | cons head _ inductionHypothesis => exact head.within.both inductionHypothesis

/-- A token that spells a mark, at the start of the text. -/
def markAt (kind : Kind) : Token := ⟨kind, kind.describe, Position.start⟩

/-- The number one, at the start of the text. -/
def oneAt : Token := ⟨.number, "1", Position.start⟩

/-- An expression that is unwrapped several times. -/
def unwrapped (value : Expr) : Nat → Expr
  | 0 => value
  | count + 1 => .unwrap Position.start (unwrapped value count)

/-- The tokens behind an expression that is unwrapped several times. -/
def unwrapMarks : Nat → List Token
  | 0 => []
  | count + 1 => unwrapMarks count ++ [markAt .dot, markAt .question]

/-- Array literals inside one another around a number. The literal at each level is unwrapped as
often as there are levels below it. -/
def tower : Nat → Expr
  | 0 => .number Position.start "1"
  | count + 1 =>
    unwrapped (.arrayLit Position.start none (.primitive Position.start "u8") [tower count])
      (count + 1)

/-- The tokens that spell a tower. -/
def towerTokens : Nat → List Token
  | 0 => [oneAt]
  | count + 1 =>
    markAt .leftBracket :: ⟨.identifier, "_", Position.start⟩ :: markAt .rightBracket ::
      ([⟨.primitiveType, "u8", Position.start⟩] ++ markAt .leftBrace ::
        (towerTokens count ++ [markAt .rightBrace])) ++ unwrapMarks (count + 1)

/-- Every unwrapping makes the tree one higher. -/
theorem height_unwrapped (value : Expr) (count : Nat) :
    (unwrapped value count).height = value.height + count := by
  induction count with
  | zero => rfl
  | succ count inductionHypothesis =>
    rw [unwrapped, Expr.height, inductionHypothesis, Nat.add_assoc]

/-- An operand can be unwrapped once for every level below its own without taking up another. -/
theorem derives_unwrapped {first : Token} {rest : List Token} {value : Expr} {count : Nat}
    (placed : first.position = Position.start)
    (derived : Derives (first :: rest) (.expr postfixRow 0 value) (levels + 1))
    (le : count ≤ levels) :
    Derives (first :: rest ++ unwrapMarks count) (.expr postfixRow count (unwrapped value count))
      (levels + 1) := by
  induction count with
  | zero =>
    rw [unwrapMarks, List.append_nil]
    exact derived
  | succ count inductionHypothesis =>
    have extended := Derives.unwrap (inductionHypothesis (Nat.le_of_succ_le le))
      (rfl : (markAt .dot).kind = .dot) (rfl : (markAt .question).kind = .question)
    rw [placed, Nat.max_eq_left (by omega)] at extended
    rw [unwrapMarks, ← List.append_assoc]
    exact extended

/-- A tower is as high as the levels allow that it is derived on. -/
theorem height_tower (count : Nat) :
    (∃ chain, Derives (towerTokens count) (.expr postfixRow chain (tower count)) (count + 1)) ∧
      (tower count).height = mostHeight (count + 1) := by
  induction count with
  | zero => exact ⟨⟨0, .number rfl⟩, rfl⟩
  | succ count inductionHypothesis =>
    obtain ⟨⟨chain, inner⟩, height⟩ := inductionHypothesis
    have literal : Derives (markAt .leftBracket :: ⟨.identifier, "_", Position.start⟩ ::
        markAt .rightBracket :: ([⟨.primitiveType, "u8", Position.start⟩] ++ markAt .leftBrace ::
          (towerTokens count ++ [markAt .rightBrace])))
        (.expr postfixRow 0 (.arrayLit Position.start none (.primitive Position.start "u8")
          [tower count])) (count + 1 + 1) := by
      have derived := Derives.arrayLit (rfl : (markAt .leftBracket).kind = .leftBracket)
        (.open (rfl : (Token.mk .identifier "_" Position.start).kind = .identifier) rfl)
        (rfl : (markAt .rightBracket).kind = .rightBracket)
        (.primitive (rfl : (Token.mk .primitiveType "u8" Position.start).kind = .primitiveType))
        (rfl : (markAt .leftBrace).kind = .leftBrace)
        (.lastArgument (inner.loosenTo (Nat.zero_le _)))
        (rfl : (markAt .rightBrace).kind = .rightBrace)
      rwa [Nat.max_eq_right (Nat.le_add_left 1 count)] at derived
    refine ⟨⟨_, derives_unwrapped rfl literal (Nat.le_refl _)⟩, ?_⟩
    have positive : 1 ≤ (tower count).height := by
      rw [height]
      exact Nat.le_trans (Nat.le_add_left 1 count) (le_mostHeight _)
    have next : mostHeight (count + 1 + 1) = mostHeight (count + 1) + (count + 1 + 1) := rfl
    rw [tower, height_unwrapped, Expr.height, Expr.heightAll, Expr.heightAll, TypeExpr.height,
      Nat.max_zero, Nat.max_eq_right positive, height, next]
    omega

/-- The tokens of a constant with the given value. -/
def constTokens (value : List Token) : List Token :=
  markAt .constWord :: ⟨.identifier, "x", Position.start⟩ ::
    ([] ++ (markAt .assign :: value ++ [markAt .semicolon]))

/-- The program that consists of such a constant. -/
def constProgram (value : Expr) : Program :=
  [.var ⟨false, true, ⟨"x", Position.start⟩, none, some value, Position.start⟩]

/-- Such a program is as high as the value. -/
theorem height_constProgram (value : Expr) : (constProgram value).height = value.height := by
  simp [constProgram, Program.height, Decl.height, VarDecl.height]

/-- Such a program is accepted if the value has room. -/
theorem ofTokens_constTokens {value : Expr} (derived : DerivesExpr tokens value levels)
    (fits : levels ≤ maxDepth) :
    Program.ofTokens (constTokens tokens) = .ok (constProgram value) := by
  have var : DerivesVar false Position.start (constTokens tokens)
      ⟨false, true, ⟨"x", Position.start⟩, none, some value, Position.start⟩ (max 0 levels) :=
    .intro rfl rfl .absent (.present rfl derived) rfl
  have whole : DerivesProgram false (constTokens tokens ++ []) (constProgram value)
      (max (max 0 levels) 0) :=
    .cons (.var .absent var (rfl : [] ++ constTokens tokens = markAt .constWord :: _)) .nil
  have reads : Parser.Reads (Parser.program maxDepth) (Token.endingOf (constTokens tokens))
      (max (max 0 levels) 0) maxDepth (constTokens tokens ++ [] ++ []) (constProgram value) [] :=
    Parser.reads_program whole rfl
  rw [List.append_nil, List.append_nil] at reads
  rw [Program.ofTokens, Parser.parse, reads.fits (by omega)]
  rfl

/-- An accepted program is higher than the limit on nesting by no more than the operators that stand
behind operands with parts of their own. In particular the limit bounds the height where there are
none. In any case the sum of all numbers up to the limit does. -/
theorem height_of_ofTokens {program : Program} (parsed : Program.ofTokens tokens = .ok program) :
    program.height ≤ maxDepth + program.overhang ∧
      (program.overhang = 0 → program.height ≤ maxDepth) ∧
      program.height ≤ maxDepth * (maxDepth + 1) / 2 := by
  obtain ⟨taken, -, levels, -, -, fits, derived⟩ := derives_of_ofTokens parsed
  have bounds := within_of_derives derived
  have linear : program.height ≤ maxDepth + program.overhang :=
    Nat.le_trans bounds.linear (Nat.add_le_add_right fits _)
  refine ⟨linear, fun none => by rwa [none, Nat.add_zero] at linear, ?_⟩
  rw [← mostHeight_eq]
  exact Nat.le_trans bounds.most (mostHeight_mono fits)

/-- The tower with as many literals as there is room for is accepted, and is as high as the sum of
all numbers up to the limit. -/
theorem height_of_ofTokens_tower :
    Program.ofTokens (constTokens (towerTokens 127)) = .ok (constProgram (tower 127)) ∧
      (constProgram (tower 127)).height ≤ maxDepth + (constProgram (tower 127)).overhang ∧
      (constProgram (tower 127)).height = maxDepth * (maxDepth + 1) / 2 := by
  obtain ⟨⟨chain, derived⟩, height⟩ := height_tower 127
  have parsed :=
    ofTokens_constTokens ⟨chain, derived.loosenTo (Nat.zero_le _)⟩ (Nat.le_refl maxDepth)
  refine ⟨parsed, (height_of_ofTokens parsed).1, ?_⟩
  rw [height_constProgram, height, mostHeight_eq]
  rfl

/-- A number with several signs in front. -/
def negated : Nat → Expr
  | 0 => .number Position.start "1"
  | count + 1 => .unary Position.start .negate (negated count)

/-- Signs take up a level each and make the tree one higher each. -/
theorem derives_negated (count : Nat) :
    Derives (List.replicate count (markAt .minus) ++ [oneAt])
        (.expr prefixRow 0 (negated count)) (count + 1) ∧
      (negated count).height = count + 1 := by
  induction count with
  | zero => exact ⟨.loosen (.number rfl), rfl⟩
  | succ count inductionHypothesis =>
    obtain ⟨derived, height⟩ := inductionHypothesis
    exact ⟨.before rfl derived, by rw [negated, Expr.height, height]⟩

/-- A constant whose value is a number with as many signs as there is room for, and one more number
added to it. -/
def signedSum : List Token :=
  constTokens (List.replicate 127 (markAt .minus) ++ [oneAt] ++ markAt .plus :: [oneAt])

/-- The limit on nesting does not bound the height: an operator behind an operand that takes up all
levels makes the tree higher than there are levels. -/
theorem height_exceeds_maxDepth :
    ¬ ∀ tokens program, Program.ofTokens tokens = .ok program → program.height ≤ maxDepth := by
  intro bounded
  obtain ⟨operand, height⟩ := derives_negated 127
  have left : Derives (markAt .minus :: (List.replicate 126 (markAt .minus) ++ [oneAt]))
      (.expr (operatorRow .add) 0 (negated 127)) 128 :=
    operand.loosenTo (by decide)
  have right : Derives [oneAt] (.expr (operatorRow .add + 1) 0 (.number Position.start "1")) 1 :=
    (Derives.number rfl).loosenTo (by decide)
  have sum : Derives (List.replicate 127 (markAt .minus) ++ [oneAt] ++ markAt .plus :: [oneAt])
      (.expr (operatorRow .add) (0 + 1)
        (.binary Position.start .add (negated 127) (.number Position.start "1"))) 128 :=
    .binary left rfl right
  have parsed := ofTokens_constTokens ⟨_, sum.loosenTo (Nat.zero_le _)⟩ (Nat.le_refl maxDepth)
  have impossible := bounded signedSum _ parsed
  rw [height_constProgram, Expr.height, height] at impossible
  exact absurd impossible (by decide)

end SystemsLang.Grammar
