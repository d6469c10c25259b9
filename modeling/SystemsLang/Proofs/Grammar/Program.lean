import SystemsLang.Proofs.Grammar.Expr
import SystemsLang.Syntax.Program

/-!
# The grammar of statements and programs

A block with its statements, an `if` with all that is chained to it, and a statement are the phrases
of this layer. Blocks and every `if` take up a level of nesting. Declarations are put together from
the layers below and need no recursion of their own.

The header of a `for` has three parts. A variable brings its semicolon, and an expression and the
empty first part have one behind them. The relations take a flag that also lets the first part be
left out together with its semicolon; with the flag lowered a header always has two semicolons.
-/

namespace SystemsLang.Grammar

open Token (Kind)
open Syntax

/-- An item that may be left out. -/
inductive Possibly {α : Type} (Item : List Token → α → Nat → Prop) :
    List Token → Option α → Nat → Prop
  | absent : Possibly Item [] none 0
  | present {tokens : List Token} {value : α} {levels : Nat} (item : Item tokens value levels) :
    Possibly Item tokens (some value) levels

/-- The token lists that spell a variable, from the word that begins it to the semicolon. Whether it
is visible elsewhere, and its position, are decided by what stands before. -/
inductive DerivesVar (isPub : Bool) (position : Position) : List Token → VarDecl → Nat → Prop
  | intro {word name closing : Token} {typeTokens initTokens : List Token} {isConst : Bool}
      {type : Option TypeExpr} {init : Option Expr} {levels more : Nat}
      (begins : word.kind = if isConst then .constWord else .varWord)
      (named : name.kind = .identifier)
      (typed : OptionalAfter .colon DerivesType typeTokens type levels)
      (assigned : OptionalAfter .assign DerivesExpr initTokens init more)
      (ends : closing.kind = .semicolon) :
    DerivesVar isPub position (word :: name :: (typeTokens ++ (initTokens ++ [closing])))
      ⟨isPub, isConst, ⟨name.text, name.position⟩, type, init, position⟩ (max levels more)

/-- The token lists that spell the first part in the header of a `for`, semicolon included. -/
inductive ForStart (short : Bool) : List Token → Option Stmt → Nat → Prop
  | empty {closing : Token} (ends : closing.kind = .semicolon) : ForStart short [closing] none 0
  | omitted (allowed : short = true) : ForStart short [] none 0
  | declare {first : Token} {rest : List Token} {declared : VarDecl} {levels : Nat}
      (var : DerivesVar false first.position (first :: rest) declared levels) :
    ForStart short (first :: rest) (some (.declare first.position declared)) levels
  | expr {first closing : Token} {rest : List Token} {value : Expr} {levels : Nat}
      (item : DerivesExpr (first :: rest) value levels) (ends : closing.kind = .semicolon) :
    ForStart short (first :: rest ++ [closing]) (some (.expr first.position value)) levels

/-- What the tokens of statements can be put together to. -/
inductive StmtPhrase
  | stmt (value : Stmt)
  | branch (value : Stmt)
  | block (position : Position) (body : Block)
  | body (statements : List Stmt)

/-- The token lists that spell a phrase of statements. The position of a statement is that of its
first token. -/
inductive DerivesStmt (short : Bool) : List Token → StmtPhrase → Nat → Prop
  | braces {opening closing : Token} {tokens : List Token} {body : Block} {levels : Nat}
      (opens : opening.kind = .leftBrace) (inner : DerivesStmt short tokens (.body body) levels)
      (closes : closing.kind = .rightBrace) :
    DerivesStmt short (opening :: (tokens ++ [closing])) (.block opening.position body)
      (levels + 1)
  | empty : DerivesStmt short [] (.body []) 0
  | cons {before after : List Token} {first : Stmt} {later : List Stmt} {levels more : Nat}
      (head : DerivesStmt short before (.stmt first) levels)
      (tail : DerivesStmt short after (.body later) more) :
    DerivesStmt short (before ++ after) (.body (first :: later)) (max levels more)
  | branchOnly {word opening closing : Token} {test block : List Token} {condition : Expr}
      {position : Position} {body : Block} {levels more : Nat} (begins : word.kind = .ifWord)
      (opens : opening.kind = .leftParen) (tested : DerivesExpr test condition levels)
      (closes : closing.kind = .rightParen)
      (taken : DerivesStmt short block (.block position body) more) :
    DerivesStmt short (word :: opening :: (test ++ closing :: block))
      (.branch (.branch word.position condition body none)) (max levels more + 1)
  | branchElse {word opening closing otherwise : Token} {test block other : List Token}
      {condition : Expr} {position otherPosition : Position} {body otherBody : Block}
      {levels more most : Nat} (begins : word.kind = .ifWord) (opens : opening.kind = .leftParen)
      (tested : DerivesExpr test condition levels) (closes : closing.kind = .rightParen)
      (taken : DerivesStmt short block (.block position body) more)
      (divides : otherwise.kind = .elseWord)
      (last : DerivesStmt short other (.block otherPosition otherBody) most) :
    DerivesStmt short (word :: opening :: (test ++ closing :: (block ++ otherwise :: other)))
      (.branch (.branch word.position condition body (some (.block otherPosition otherBody))))
      (max levels (max more most) + 1)
  | branchChain {word opening closing otherwise : Token} {test block other : List Token}
      {condition : Expr} {position : Position} {body : Block} {chained : Stmt}
      {levels more most : Nat} (begins : word.kind = .ifWord) (opens : opening.kind = .leftParen)
      (tested : DerivesExpr test condition levels) (closes : closing.kind = .rightParen)
      (taken : DerivesStmt short block (.block position body) more)
      (divides : otherwise.kind = .elseWord)
      (next : DerivesStmt short other (.branch chained) most) :
    DerivesStmt short (word :: opening :: (test ++ closing :: (block ++ otherwise :: other)))
      (.branch (.branch word.position condition body (some chained)))
      (max levels (max more most) + 1)
  | branch {tokens : List Token} {value : Stmt} {levels : Nat}
      (inner : DerivesStmt short tokens (.branch value) levels) :
    DerivesStmt short tokens (.stmt value) levels
  | block {tokens : List Token} {position : Position} {body : Block} {levels : Nat}
      (inner : DerivesStmt short tokens (.block position body) levels) :
    DerivesStmt short tokens (.stmt (.block position body)) levels
  | returns {word closing : Token} {tokens : List Token} {value : Option Expr} {levels : Nat}
      (begins : word.kind = .returnWord) (given : Possibly DerivesExpr tokens value levels)
      (ends : closing.kind = .semicolon) :
    DerivesStmt short (word :: (tokens ++ [closing])) (.stmt (.returns word.position value)) levels
  | whileLoop {word opening closing : Token} {test block : List Token} {condition : Expr}
      {position : Position} {body : Block} {levels more : Nat} (begins : word.kind = .whileWord)
      (opens : opening.kind = .leftParen) (tested : DerivesExpr test condition levels)
      (closes : closing.kind = .rightParen)
      (inner : DerivesStmt short block (.block position body) more) :
    DerivesStmt short (word :: opening :: (test ++ closing :: block))
      (.stmt (.whileLoop word.position condition body)) (max levels more)
  | forLoop {word opening divider closing : Token} {start test step block : List Token}
      {init : Option Stmt} {condition update : Option Expr} {position : Position} {body : Block}
      {startLevels testLevels stepLevels levels : Nat} (begins : word.kind = .forWord)
      (opens : opening.kind = .leftParen) (starts : ForStart short start init startLevels)
      (tested : Possibly DerivesExpr test condition testLevels)
      (divides : divider.kind = .semicolon)
      (stepped : Possibly DerivesExpr step update stepLevels)
      (closes : closing.kind = .rightParen)
      (inner : DerivesStmt short block (.block position body) levels) :
    DerivesStmt short
      (word :: opening :: (start ++ (test ++ divider :: (step ++ closing :: block))))
      (.stmt (.forLoop word.position init condition update body))
      (max startLevels (max testLevels (max stepLevels levels)))
  | breakLoop {word closing : Token} (begins : word.kind = .breakWord)
      (ends : closing.kind = .semicolon) :
    DerivesStmt short [word, closing] (.stmt (.breakLoop word.position)) 0
  | continueLoop {word closing : Token} (begins : word.kind = .continueWord)
      (ends : closing.kind = .semicolon) :
    DerivesStmt short [word, closing] (.stmt (.continueLoop word.position)) 0
  | comptime {word : Token} {block : List Token} {position : Position} {body : Block}
      {levels : Nat} (begins : word.kind = .comptimeWord)
      (inner : DerivesStmt short block (.block position body) levels) :
    DerivesStmt short (word :: block) (.stmt (.comptime word.position body)) levels
  | declare {first : Token} {rest : List Token} {declared : VarDecl} {levels : Nat}
      (var : DerivesVar false first.position (first :: rest) declared levels) :
    DerivesStmt short (first :: rest) (.stmt (.declare first.position declared)) levels
  | expr {first closing : Token} {rest : List Token} {value : Expr} {levels : Nat}
      (item : DerivesExpr (first :: rest) value levels) (ends : closing.kind = .semicolon) :
    DerivesStmt short (first :: rest ++ [closing]) (.stmt (.expr first.position value)) levels

/-- The kinds of token that a statement begins with. -/
def startsStmt : Kind → Bool
  | .leftBrace | .returnWord | .ifWord | .whileWord | .forWord | .breakWord | .continueWord
  | .comptimeWord | .constWord | .varWord => true
  | kind => startsExpr kind

/-- A variable begins with one of two words. -/
theorem DerivesVar.starts {isPub : Bool} {position : Position} {tokens : List Token}
    {declared : VarDecl} {levels : Nat}
    (derived : DerivesVar isPub position tokens declared levels) :
    ∃ first rest, tokens = first :: rest ∧ (first.kind = .constWord ∨ first.kind = .varWord) := by
  cases derived with
  | @intro _ _ _ _ _ isConst _ _ _ _ begins =>
    refine ⟨_, _, rfl, ?_⟩
    rw [begins]
    cases isConst
    · exact .inr rfl
    · exact .inl rfl

namespace DerivesStmt

variable {short : Bool} {tokens : List Token} {levels : Nat}

/-- What a derivation says of the first token of a phrase: its kind, and that the phrase has its
position. -/
def Begins : List Token → StmtPhrase → Prop
  | tokens, .stmt value =>
    ∃ first rest, tokens = first :: rest ∧ startsStmt first.kind = true ∧
      value.position = first.position
  | tokens, .branch value =>
    ∃ first rest, tokens = first :: rest ∧ first.kind = .ifWord ∧ value.position = first.position
  | tokens, .block position _ =>
    ∃ first rest, tokens = first :: rest ∧ first.kind = .leftBrace ∧ position = first.position
  | _, .body _ => True

/-- Every phrase but the inside of a block has a first token. -/
theorem begins {phrase : StmtPhrase} (derived : DerivesStmt short tokens phrase levels) :
    Begins tokens phrase := by
  induction derived with
  | braces opens => exact ⟨_, _, rfl, opens, rfl⟩
  | empty | cons => trivial
  | branchOnly begins | branchElse begins | branchChain begins => exact ⟨_, _, rfl, begins, rfl⟩
  | branch _ inner =>
    obtain ⟨first, rest, rfl, begins, position⟩ := inner
    exact ⟨first, rest, rfl, by rw [begins]; rfl, position⟩
  | block _ inner =>
    obtain ⟨first, rest, rfl, begins, position⟩ := inner
    exact ⟨first, rest, rfl, by rw [begins]; rfl, position⟩
  | returns begins | whileLoop begins | forLoop begins | breakLoop begins | continueLoop begins
  | comptime begins => exact ⟨_, _, rfl, by rw [begins]; rfl, rfl⟩
  | declare var =>
    obtain ⟨_, _, same, starts⟩ := var.starts
    obtain ⟨rfl, rfl⟩ := List.cons.inj same
    refine ⟨_, _, rfl, ?_, rfl⟩
    rcases starts with kind | kind
    · rw [kind]
      rfl
    · rw [kind]
      rfl
  | @expr first _ _ _ _ item =>
    obtain ⟨_, _, same, starts⟩ := item.choose_spec.starts
    obtain ⟨rfl, rfl⟩ := List.cons.inj same
    refine ⟨first, _, rfl, ?_, rfl⟩
    generalize first.kind = kind at starts
    cases kind <;> first | rfl | cases starts

end DerivesStmt

/-- The token lists that spell a parameter. -/
inductive DerivesParam : List Token → Param → Nat → Prop
  | intro {first name colon : Token} {rest comptime typeTokens : List Token} {isComptime : Bool}
      {type : TypeExpr} {levels : Nat} (mark : Mark .comptimeWord comptime isComptime)
      (named : name.kind = .identifier) (divides : colon.kind = .colon)
      (typed : DerivesType typeTokens type levels)
      (whole : comptime ++ name :: colon :: typeTokens = first :: rest) :
    DerivesParam (first :: rest) ⟨isComptime, ⟨name.text, name.position⟩, type, first.position⟩
      levels

/-- The token lists that spell a field of a struct. -/
inductive DerivesField : List Token → Field → Nat → Prop
  | intro {name colon : Token} {typeTokens : List Token} {type : TypeExpr} {levels : Nat}
      (named : name.kind = .identifier) (divides : colon.kind = .colon)
      (typed : DerivesType typeTokens type levels) :
    DerivesField (name :: colon :: typeTokens) ⟨⟨name.text, name.position⟩, type, name.position⟩
      levels

/-- The word before `fn`, if there is one. -/
inductive DerivesModifier : List Token → Option FnModifier → Prop
  | none : DerivesModifier [] none
  | inlined {word : Token} (kind : word.kind = .inlineWord) :
    DerivesModifier [word] (some .inlined)
  | comptime {word : Token} (kind : word.kind = .comptimeWord) :
    DerivesModifier [word] (some .comptime)

/-- The token lists that spell a top-level declaration. -/
inductive DerivesDecl (short : Bool) : List Token → Decl → Nat → Prop
  | fn {first word name opening closing : Token}
      {rest pub modifierTokens paramTokens typeTokens block : List Token} {isPub : Bool}
      {modifier : Option FnModifier} {params : List Param} {returnType : TypeExpr}
      {position : Position} {body : Block} {levels typeLevels bodyLevels : Nat}
      (mark : Mark .pubWord pub isPub) (modified : DerivesModifier modifierTokens modifier)
      (begins : word.kind = .fnWord) (named : name.kind = .identifier)
      (opens : opening.kind = .leftParen)
      (listed : CommaList DerivesParam paramTokens params levels)
      (closes : closing.kind = .rightParen)
      (typed : DerivesType typeTokens returnType typeLevels)
      (inner : DerivesStmt short block (.block position body) bodyLevels)
      (whole : pub ++ (modifierTokens ++ word :: name :: opening ::
        (paramTokens ++ closing :: (typeTokens ++ block))) = first :: rest) :
    DerivesDecl short (first :: rest)
      (.fn ⟨isPub, modifier, ⟨name.text, name.position⟩, params, returnType, body,
        first.position⟩)
      (max levels (max typeLevels bodyLevels))
  | var {first : Token} {rest pub tokens : List Token} {isPub : Bool} {declared : VarDecl}
      {levels : Nat} (mark : Mark .pubWord pub isPub)
      (inner : DerivesVar isPub first.position tokens declared levels)
      (whole : pub ++ tokens = first :: rest) :
    DerivesDecl short (first :: rest) (.var declared) levels
  | struct {first word name equals struct opening closing semicolon : Token}
      {rest pub tokens : List Token} {isPub : Bool} {fields : List Field} {levels : Nat}
      (mark : Mark .pubWord pub isPub) (begins : word.kind = .constWord)
      (named : name.kind = .identifier) (assigned : equals.kind = .assign)
      (structured : struct.kind = .structWord) (opens : opening.kind = .leftBrace)
      (listed : CommaList DerivesField tokens fields levels) (closes : closing.kind = .rightBrace)
      (ends : semicolon.kind = .semicolon)
      (whole : pub ++ word :: name :: equals :: struct :: opening ::
        (tokens ++ [closing, semicolon]) = first :: rest) :
    DerivesDecl short (first :: rest)
      (.struct ⟨isPub, ⟨name.text, name.position⟩, fields, first.position⟩) levels

/-- The token lists that spell a program. -/
inductive DerivesProgram (short : Bool) : List Token → Program → Nat → Prop
  | nil : DerivesProgram short [] [] 0
  | cons {before after : List Token} {first : Decl} {later : Program} {levels more : Nat}
      (head : DerivesDecl short before first levels)
      (tail : DerivesProgram short after later more) :
    DerivesProgram short (before ++ after) (first :: later) (max levels more)

end SystemsLang.Grammar
