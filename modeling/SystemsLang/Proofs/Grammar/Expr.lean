import SystemsLang.Layout.Piece
import SystemsLang.Proofs.Grammar.TypeExpr

/-!
# The grammar of expressions

The table of precedence has nine rows. From the loosest to the tightest they are assignment, the six
rows of binary operators, the prefix operators, and the operators written behind an operand, with
which the operands themselves stand. An expression of one row is an expression of every looser one.
Binary operators have their own row on the left and the next tighter one on the right, so they
associate to the left; assignment has its own row on the right.

A phrase of the grammar is an expression of a given row or one of the two kinds of list inside
expressions. With an expression goes its chain, which is how many operators stand behind its first
operand outside of brackets; like the number of levels it only measures the derivation. An operand
takes up one level more than what it encloses, and every operator in the chain takes up a level for
itself and all that stands behind it in the chain.
-/

namespace SystemsLang.Grammar

open Token (Kind)
open Syntax

/-- The row of a binary operator in the table of precedence. -/
def operatorRow : BinaryOp → Nat
  | .or => 1
  | .and => 2
  | .equal | .notEqual => 3
  | .less | .greater | .lessEqual | .greaterEqual => 4
  | .add | .sub => 5
  | .mul | .div | .rem => 6

/-- The row of the prefix operators. -/
def prefixRow : Nat := 7

/-- The row of operands and of the operators written behind them. -/
def postfixRow : Nat := 8

/-- The token that spells a prefix operator. -/
def prefixKind : UnaryOp → Kind
  | .negate => .minus
  | .not => .bang
  | .addressOf => .amp
  | .attempt => .tryWord

/-- The token that spells an assignment, which computes with an arithmetic operator or with none. -/
def assignKind : Option BinaryOp → Option Kind
  | none => some .assign
  | some .add => some .plusAssign
  | some .sub => some .minusAssign
  | some .mul => some .starAssign
  | some .div => some .slashAssign
  | some .rem => some .percentAssign
  | _ => none

/-- The token before the closing bracket of an array literal's length: a number, or an underscore
that leaves the length open. -/
inductive OpenLength : Token → Option UInt64 → Prop
  | open {token : Token} (kind : token.kind = .identifier) (text : token.text = "_") :
    OpenLength token none
  | given {token : Token} {length : UInt64} (counts : Length token length) :
    OpenLength token (some length)

/-- What the tokens of an expression can be put together to. -/
inductive Phrase
  | expr (row chain : Nat) (value : Expr)
  | arguments (values : List Expr)
  | inits (values : List (Ident × Expr))

/-- The token lists that spell a phrase. The position of an expression is that of its first token,
which for an expression in parentheses is the parenthesis. -/
inductive Derives : List Token → Phrase → Nat → Prop
  | number {token : Token} (kind : token.kind = .number) :
    Derives [token] (.expr postfixRow 0 (.number token.position token.text)) 1
  | string {token : Token} (kind : token.kind = .string) :
    Derives [token] (.expr postfixRow 0 (.string token.position token.text)) 1
  | trueWord {token : Token} (kind : token.kind = .trueWord) :
    Derives [token] (.expr postfixRow 0 (.bool token.position true)) 1
  | falseWord {token : Token} (kind : token.kind = .falseWord) :
    Derives [token] (.expr postfixRow 0 (.bool token.position false)) 1
  | null {token : Token} (kind : token.kind = .nullWord) :
    Derives [token] (.expr postfixRow 0 (.null token.position)) 1
  | undefined {token : Token} (kind : token.kind = .undefinedWord) :
    Derives [token] (.expr postfixRow 0 (.undefined token.position)) 1
  | ident {token : Token} (kind : token.kind = .identifier) :
    Derives [token] (.expr postfixRow 0 (.ident token.position token.text)) 1
  | group {opening closing : Token} {tokens : List Token} {chain levels : Nat} {value : Expr}
      (opens : opening.kind = .leftParen) (inner : Derives tokens (.expr 0 chain value) levels)
      (closes : closing.kind = .rightParen) :
    Derives (opening :: (tokens ++ [closing]))
      (.expr postfixRow 0 (value.moveTo opening.position)) (levels + 1)
  | structLit {name opening closing : Token} {tokens : List Token}
      {values : List (Ident × Expr)} {levels : Nat} (named : name.kind = .identifier)
      (opens : opening.kind = .leftBrace) (inner : Derives tokens (.inits values) levels)
      (closes : closing.kind = .rightBrace) :
    Derives (name :: opening :: (tokens ++ [closing]))
      (.expr postfixRow 0 (.structLit name.position ⟨name.text, name.position⟩ values))
      (levels + 1)
  | arrayLit {first length behind opening closing : Token} {typeTokens tokens : List Token}
      {count : Option UInt64} {type : TypeExpr} {values : List Expr} {typeLevels levels : Nat}
      (brackets : first.kind = .leftBracket) (counts : OpenLength length count)
      (ends : behind.kind = .rightBracket) (typed : DerivesType typeTokens type typeLevels)
      (opens : opening.kind = .leftBrace) (inner : Derives tokens (.arguments values) levels)
      (closes : closing.kind = .rightBrace) :
    Derives (first :: length :: behind :: (typeTokens ++ opening :: (tokens ++ [closing])))
      (.expr postfixRow 0 (.arrayLit first.position count type values))
      (max typeLevels levels + 1)
  | before {mark : Token} {tokens : List Token} {operator : UnaryOp} {operand : Expr}
      {chain levels : Nat} (spelled : mark.kind = prefixKind operator)
      (inner : Derives tokens (.expr prefixRow chain operand) levels) :
    Derives (mark :: tokens) (.expr prefixRow 0 (.unary mark.position operator operand))
      (levels + 1)
  | call {first opening closing : Token} {before tokens : List Token} {callee : Expr}
      {arguments : List Expr} {chain levels more : Nat}
      (left : Derives (first :: before) (.expr postfixRow chain callee) levels)
      (opens : opening.kind = .leftParen) (inner : Derives tokens (.arguments arguments) more)
      (closes : closing.kind = .rightParen) :
    Derives (first :: before ++ opening :: (tokens ++ [closing]))
      (.expr postfixRow (chain + 1) (.call first.position callee arguments))
      (max levels (chain + 2 + more))
  | index {first opening closing : Token} {before tokens : List Token} {object subscript : Expr}
      {chain innerChain levels more : Nat}
      (left : Derives (first :: before) (.expr postfixRow chain object) levels)
      (opens : opening.kind = .leftBracket)
      (inner : Derives tokens (.expr 0 innerChain subscript) more)
      (closes : closing.kind = .rightBracket) :
    Derives (first :: before ++ opening :: (tokens ++ [closing]))
      (.expr postfixRow (chain + 1) (.index first.position object subscript))
      (max levels (chain + 2 + more))
  | member {first dot name : Token} {before : List Token} {object : Expr} {chain levels : Nat}
      (left : Derives (first :: before) (.expr postfixRow chain object) levels)
      (dotted : dot.kind = .dot) (named : name.kind = .identifier) :
    Derives (first :: before ++ [dot, name])
      (.expr postfixRow (chain + 1) (.member first.position object ⟨name.text, name.position⟩))
      (max levels (chain + 2))
  | deref {first dot star : Token} {before : List Token} {object : Expr} {chain levels : Nat}
      (left : Derives (first :: before) (.expr postfixRow chain object) levels)
      (dotted : dot.kind = .dot) (starred : star.kind = .star) :
    Derives (first :: before ++ [dot, star])
      (.expr postfixRow (chain + 1) (.deref first.position object)) (max levels (chain + 2))
  | unwrap {first dot mark : Token} {before : List Token} {object : Expr} {chain levels : Nat}
      (left : Derives (first :: before) (.expr postfixRow chain object) levels)
      (dotted : dot.kind = .dot) (marked : mark.kind = .question) :
    Derives (first :: before ++ [dot, mark])
      (.expr postfixRow (chain + 1) (.unwrap first.position object)) (max levels (chain + 2))
  | binary {first mark : Token} {before after : List Token} {operator : BinaryOp}
      {left right : Expr} {chain rightChain levels more : Nat}
      (leftOperand : Derives (first :: before) (.expr (operatorRow operator) chain left) levels)
      (spelled : mark.kind = operator.kind)
      (rightOperand : Derives after (.expr (operatorRow operator + 1) rightChain right) more) :
    Derives (first :: before ++ mark :: after)
      (.expr (operatorRow operator) (chain + 1) (.binary first.position operator left right))
      (max levels (chain + 2 + more))
  | assign {first mark : Token} {before after : List Token} {operator : Option BinaryOp}
      {target value : Expr} {chain valueChain levels more : Nat}
      (left : Derives (first :: before) (.expr postfixRow chain target) levels)
      (place : target.isPlace = true) (spelled : some mark.kind = assignKind operator)
      (right : Derives after (.expr 0 valueChain value) more) :
    Derives (first :: before ++ mark :: after)
      (.expr 0 (chain + 1) (.assign first.position operator target value))
      (max levels (chain + 2 + more))
  | loosen {tokens : List Token} {row chain levels : Nat} {value : Expr}
      (tighter : Derives tokens (.expr (row + 1) chain value) levels) :
    Derives tokens (.expr row chain value) levels
  | noArgument : Derives [] (.arguments []) 0
  | lastArgument {tokens : List Token} {value : Expr} {chain levels : Nat}
      (item : Derives tokens (.expr 0 chain value) levels) :
    Derives tokens (.arguments [value]) levels
  | argument {comma : Token} {before after : List Token} {value : Expr} {values : List Expr}
      {chain levels more : Nat} (item : Derives before (.expr 0 chain value) levels)
      (separates : comma.kind = .comma) (later : Derives after (.arguments values) more) :
    Derives (before ++ comma :: after) (.arguments (value :: values)) (max levels more)
  | noInit : Derives [] (.inits []) 0
  | lastInit {dot name equals : Token} {tokens : List Token} {value : Expr} {chain levels : Nat}
      (dotted : dot.kind = .dot) (named : name.kind = .identifier)
      (assigned : equals.kind = .assign) (item : Derives tokens (.expr 0 chain value) levels) :
    Derives (dot :: name :: equals :: tokens)
      (.inits [(⟨name.text, name.position⟩, value)]) levels
  | init {dot name equals comma : Token} {before after : List Token} {value : Expr}
      {values : List (Ident × Expr)} {chain levels more : Nat} (dotted : dot.kind = .dot)
      (named : name.kind = .identifier) (assigned : equals.kind = .assign)
      (item : Derives before (.expr 0 chain value) levels) (separates : comma.kind = .comma)
      (later : Derives after (.inits values) more) :
    Derives (dot :: name :: equals :: (before ++ comma :: after))
      (.inits ((⟨name.text, name.position⟩, value) :: values)) (max levels more)

/-- The token lists that spell an expression. -/
def DerivesExpr (tokens : List Token) (value : Expr) (levels : Nat) : Prop :=
  ∃ chain, Derives tokens (.expr 0 chain value) levels

/-- The kinds of token that an expression begins with. -/
def startsExpr : Kind → Bool
  | .number | .string | .trueWord | .falseWord | .nullWord | .undefinedWord | .identifier
  | .leftParen | .leftBracket | .minus | .bang | .amp | .tryWord => true
  | _ => false

namespace Derives

variable {tokens : List Token} {row chain levels : Nat} {value : Expr}

/-- What a derivation says of the first token of an expression: its kind can begin an expression,
and its position is that of the tree. -/
def Begins : List Token → Phrase → Prop
  | tokens, .expr _ _ value =>
    ∃ first rest, tokens = first :: rest ∧ startsExpr first.kind = true ∧
      value.position = first.position
  | _, _ => True

/-- Every expression has a first token, and the position of the tree is the position of that
token. An operator behind an operand does not change the first token; parentheses put their own in
front and move the tree to it. -/
theorem begins {phrase : Phrase} (derived : Derives tokens phrase levels) :
    Begins tokens phrase := by
  induction derived with
  | number kind | string kind | trueWord kind | falseWord kind | null kind | undefined kind
  | ident kind => exact ⟨_, _, rfl, by rw [kind]; rfl, rfl⟩
  | group opens => exact ⟨_, _, rfl, by rw [opens]; rfl, by rename Expr => e; cases e <;> rfl⟩
  | structLit named => exact ⟨_, _, rfl, by rw [named]; rfl, rfl⟩
  | arrayLit brackets => exact ⟨_, _, rfl, by rw [brackets]; rfl, rfl⟩
  | before spelled =>
    refine ⟨_, _, rfl, ?_, rfl⟩
    rename UnaryOp => operator
    rw [spelled]
    cases operator <;> rfl
  | call _ _ _ _ leftBegins | index _ _ _ _ leftBegins | member _ _ _ leftBegins
  | deref _ _ _ leftBegins | unwrap _ _ _ leftBegins | binary _ _ _ leftBegins
  | assign _ _ _ _ leftBegins =>
    obtain ⟨first, rest, same, starts, -⟩ := leftBegins
    obtain ⟨rfl, rfl⟩ := List.cons.inj same
    exact ⟨_, _, rfl, starts, rfl⟩
  | loosen _ tighterBegins => exact tighterBegins
  | noArgument | lastArgument | argument | noInit | lastInit | init => trivial

/-- The first token of an expression can begin an expression. -/
theorem starts (derived : Derives tokens (.expr row chain value) levels) :
    ∃ first rest, tokens = first :: rest ∧ startsExpr first.kind = true := by
  obtain ⟨first, rest, same, starts, -⟩ := derived.begins
  exact ⟨first, rest, same, starts⟩

/-- The tree of an expression has the position of the first token. -/
theorem position_eq {first : Token} {rest : List Token}
    (derived : Derives (first :: rest) (.expr row chain value) levels) :
    value.position = first.position := by
  obtain ⟨_, _, same, -, position⟩ := derived.begins
  rwa [← (List.cons.inj same).1] at position

/-- An expression of one row is one of every looser row. -/
theorem loosenTo {looser : Nat} (derived : Derives tokens (.expr row chain value) levels)
    (le : looser ≤ row) : Derives tokens (.expr looser chain value) levels := by
  induction le with
  | refl => exact derived
  | step _ inductionHypothesis => exact inductionHypothesis derived.loosen

/-- What can be assigned to is spelled without an operator looser than those behind an operand, so
it stands in the tightest row already. -/
theorem place_postfix (derived : Derives tokens (.expr row chain value) levels)
    (place : value.isPlace = true) : Derives tokens (.expr postfixRow chain value) levels := by
  generalize same : Phrase.expr row chain value = phrase at derived
  induction derived generalizing row with
  | before | binary | assign =>
    cases same
    cases place
  | loosen _ inductionHypothesis =>
    cases same
    exact inductionHypothesis rfl
  | noArgument | lastArgument | argument | noInit | lastInit | init => cases same
  | _ =>
    cases same
    constructor <;> assumption

end Derives

end SystemsLang.Grammar
