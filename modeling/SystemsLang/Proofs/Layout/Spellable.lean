import SystemsLang.Proofs.Grammar.Program
import SystemsLang.Proofs.Scanning.Words

/-!
# Trees that source can spell

The type of trees is wider than the grammar: a name may hold any text, an assignment any target, and
any statement may stand behind `else` or in the header of a `for`. A tree is spellable if it makes
no use of that. Names are identifiers and numbers are numbers to the scanner, primitive types are
among those there are, an assignment has a place on its left and computes with an arithmetic
operator or with none, and so on for statements.

Every tree that the grammar derives from proper tokens is spellable, so what the parser gives is.
-/

namespace SystemsLang.Syntax

open Token (IsIdentifier IsNumber primitiveTypeNames)
open Grammar (assignKind)

/-- The names in a type are of the right sort. -/
def TypeExpr.Spellable : TypeExpr → Prop
  | primitive _ name => name ∈ primitiveTypeNames
  | named _ name => IsIdentifier name
  | pointer _ _ inner | array _ _ inner | slice _ _ inner | optional _ inner
  | errorUnion _ inner => inner.Spellable

namespace Expr

mutual

/-- The names and numbers in an expression are of the right sort, and its assignments have a place
on their left and an operator that can be joined with the equals sign. -/
def Spellable : Expr → Prop
  | number _ text => IsNumber text
  | string .. | bool .. | null _ | undefined _ => True
  | ident _ name => IsIdentifier name
  | binary _ _ left right => left.Spellable ∧ right.Spellable
  | unary _ _ operand => operand.Spellable
  | call _ callee arguments => callee.Spellable ∧ AllSpellable arguments
  | member _ object field => object.Spellable ∧ IsIdentifier field.name
  | index _ object subscript => object.Spellable ∧ subscript.Spellable
  | deref _ object | unwrap _ object => object.Spellable
  | assign _ operator target value =>
    target.isPlace = true ∧ (assignKind operator).isSome = true ∧ target.Spellable ∧
      value.Spellable
  | structLit _ name fields => IsIdentifier name.name ∧ FieldsSpellable fields
  | arrayLit _ _ elementType elements => elementType.Spellable ∧ AllSpellable elements

/-- All of several expressions are spellable. -/
def AllSpellable : List Expr → Prop
  | [] => True
  | first :: rest => first.Spellable ∧ AllSpellable rest

/-- All of several named expressions are spellable, their names included. -/
def FieldsSpellable : List (Ident × Expr) → Prop
  | [] => True
  | (name, value) :: rest => IsIdentifier name.name ∧ value.Spellable ∧ FieldsSpellable rest

end

end Expr

/-- The parts of a variable are spellable. -/
structure VarDecl.Spellable (declared : VarDecl) : Prop where
  name : IsIdentifier declared.name.name
  type : ∀ type ∈ declared.type, type.Spellable
  init : ∀ init ∈ declared.init, init.Spellable

/-- What may stand first in the header of a `for`: a variable that is not visible elsewhere, or an
expression. -/
def Stmt.SpellableStart : Stmt → Prop
  | .declare _ declared => declared.isPub = false ∧ declared.Spellable
  | .expr _ value => value.Spellable
  | _ => False

namespace Stmt

mutual

/-- The parts of a statement are spellable, only a block or an `if` stands behind `else`, and no
variable is visible elsewhere. -/
def Spellable : Stmt → Prop
  | block _ body => AllSpellable body
  | returns _ value => ∀ given ∈ value, given.Spellable
  | branch _ condition body otherwise =>
    condition.Spellable ∧ AllSpellable body ∧ SpellableElse otherwise
  | whileLoop _ condition body => condition.Spellable ∧ AllSpellable body
  | forLoop _ init condition step body =>
    (∀ start ∈ init, SpellableStart start) ∧ (∀ test ∈ condition, test.Spellable) ∧
      (∀ update ∈ step, update.Spellable) ∧ AllSpellable body
  | breakLoop _ | continueLoop _ => True
  | expr _ value => value.Spellable
  | comptime _ body => AllSpellable body
  | declare _ declared => declared.isPub = false ∧ declared.Spellable

/-- All statements of a block are spellable. -/
def AllSpellable : List Stmt → Prop
  | [] => True
  | first :: rest => first.Spellable ∧ AllSpellable rest

/-- What stands behind `else`, if anything does, is a spellable block or `if`. -/
def SpellableElse : Option Stmt → Prop
  | none => True
  | some (.block _ body) => AllSpellable body
  | some (.branch _ condition body otherwise) =>
    condition.Spellable ∧ AllSpellable body ∧ SpellableElse otherwise
  | some _ => False

end

end Stmt

/-- The name and the type of a parameter are spellable. -/
def Param.Spellable (param : Param) : Prop :=
  IsIdentifier param.name.name ∧ param.type.Spellable

/-- The name and the type of a field are spellable. -/
def Field.Spellable (field : Field) : Prop :=
  IsIdentifier field.name.name ∧ field.type.Spellable

/-- The parts of a declaration are spellable. -/
def Decl.Spellable : Decl → Prop
  | fn declared =>
    IsIdentifier declared.name.name ∧ (∀ param ∈ declared.params, param.Spellable) ∧
      declared.returnType.Spellable ∧ Stmt.AllSpellable declared.body
  | var declared => declared.Spellable
  | struct declared =>
    IsIdentifier declared.name.name ∧ ∀ field ∈ declared.fields, field.Spellable

/-- All declarations of a program are spellable. -/
def Program.Spellable (program : Program) : Prop :=
  ∀ declared ∈ program, declared.Spellable

/-- The position of an expression has no part in whether it can be spelled. -/
theorem Expr.spellable_moveTo {position : Position} {value : Expr} :
    (value.moveTo position).Spellable ↔ value.Spellable := by
  cases value <;> rfl

end SystemsLang.Syntax

namespace SystemsLang.Grammar

open Token (Kind Proper)
open Syntax

variable {tokens : List Token} {levels : Nat}

/-- What proper tokens spell as a type is a spellable type. -/
theorem DerivesType.spellable {type : TypeExpr} (derived : DerivesType tokens type levels)
    (proper : ∀ token ∈ tokens, Proper token) : type.Spellable := by
  induction derived with
  | primitive kind => exact (proper _ List.mem_cons_self).2.2 kind
  | named kind => exact (proper _ List.mem_cons_self).1 kind
  | pointer _ _ _ inductionHypothesis =>
    exact inductionHypothesis fun token member => proper token (by simp [member])
  | array _ _ _ _ inductionHypothesis =>
    exact inductionHypothesis fun token member => proper token (by simp [member])
  | slice _ _ _ _ inductionHypothesis =>
    exact inductionHypothesis fun token member => proper token (by simp [member])
  | optional _ _ inductionHypothesis | errorUnion _ _ inductionHypothesis =>
    exact inductionHypothesis fun token member => proper token (by simp [member])

/-- What it means for a phrase of expressions to be spellable. -/
def Phrase.Spellable : Phrase → Prop
  | .expr _ _ value => value.Spellable
  | .arguments values => Expr.AllSpellable values
  | .inits values => Expr.FieldsSpellable values

/-- What proper tokens spell as a phrase of expressions is spellable. -/
theorem Derives.spellable {phrase : Phrase} (derived : Derives tokens phrase levels)
    (proper : ∀ token ∈ tokens, Proper token) : phrase.Spellable := by
  induction derived with
  | number kind => exact (proper _ List.mem_cons_self).2.1 kind
  | string | trueWord | falseWord | null | undefined | noArgument | noInit => trivial
  | ident kind => exact (proper _ List.mem_cons_self).1 kind
  | group _ _ _ inner =>
    exact Expr.spellable_moveTo.mpr (inner fun token member => proper token (by simp [member]))
  | structLit named _ _ _ inner =>
    exact ⟨(proper _ List.mem_cons_self).1 named,
      inner fun token member => proper token (by simp [member])⟩
  | arrayLit _ _ _ typed _ _ _ inner =>
    exact ⟨typed.spellable fun token member => proper token (by simp [member]),
      inner fun token member => proper token (by simp [member])⟩
  | before _ _ inner => exact inner fun token member => proper token (by simp [member])
  | call _ _ _ _ left inner =>
    exact ⟨left fun token member => proper token (List.mem_append_left _ member),
      inner fun token member => proper token (by simp [member])⟩
  | index _ _ _ _ left inner =>
    exact ⟨left fun token member => proper token (List.mem_append_left _ member),
      inner fun token member => proper token (by simp [member])⟩
  | member _ _ named left =>
    exact ⟨left fun token member => proper token (List.mem_append_left _ member),
      (proper _ (by simp)).1 named⟩
  | deref _ _ _ left | unwrap _ _ _ left =>
    exact left fun token member => proper token (List.mem_append_left _ member)
  | binary _ _ _ left right =>
    exact ⟨left fun token member => proper token (List.mem_append_left _ member),
      right fun token member => proper token (by simp [member])⟩
  | assign _ place spelled _ left right =>
    refine ⟨place, by rw [← spelled]; rfl, ?_, ?_⟩
    · exact left fun token member => proper token (List.mem_append_left _ member)
    · exact right fun token member => proper token (by simp [member])
  | loosen _ tighter => exact tighter proper
  | lastArgument _ item => exact ⟨item proper, trivial⟩
  | argument _ _ _ item later =>
    exact ⟨item fun token member => proper token (List.mem_append_left _ member),
      later fun token member => proper token (by simp [member])⟩
  | lastInit _ named _ _ item =>
    exact ⟨(proper _ (by simp)).1 named,
      item fun token member => proper token (by simp [member]), trivial⟩
  | init _ named _ _ _ _ item later =>
    exact ⟨(proper _ (by simp)).1 named,
      item fun token member => proper token (by simp [member]),
      later fun token member => proper token (by simp [member])⟩

/-- What proper tokens spell as an expression is spellable. -/
theorem DerivesExpr.spellable {value : Expr} (derived : DerivesExpr tokens value levels)
    (proper : ∀ token ∈ tokens, Proper token) : value.Spellable := by
  obtain ⟨_, whole⟩ := derived
  exact whole.spellable proper

/-- What stands behind a mark, if it does, is spelled by tokens of the whole. -/
theorem OptionalAfter.forall_of_forall {α : Type} {kind : Kind}
    {Item : List Token → α → Nat → Prop} {Holds : α → Prop} {value : Option α}
    (derived : OptionalAfter kind Item tokens value levels)
    (proper : ∀ token ∈ tokens, Proper token)
    (item : ∀ tokens value levels, Item tokens value levels → (∀ token ∈ tokens, Proper token) →
      Holds value) : ∀ given ∈ value, Holds given := by
  cases derived with
  | absent => exact fun _ impossible => nomatch impossible
  | present _ spelled =>
    rintro given ⟨⟩
    exact item _ _ _ spelled fun token member => proper token (List.mem_cons_of_mem _ member)

/-- What proper tokens spell as an expression that may be left out is spellable. -/
theorem spellable_possibly {value : Option Expr}
    (derived : Possibly DerivesExpr tokens value levels)
    (proper : ∀ token ∈ tokens, Proper token) : ∀ given ∈ value, given.Spellable := by
  cases derived with
  | absent => exact fun _ impossible => nomatch impossible
  | present item =>
    rintro given ⟨⟩
    exact item.spellable proper

/-- What proper tokens spell as a variable is spellable, and visible where the declaration says. -/
theorem DerivesVar.spellable {isPub : Bool} {position : Position} {declared : VarDecl}
    (derived : DerivesVar isPub position tokens declared levels)
    (proper : ∀ token ∈ tokens, Proper token) :
    declared.isPub = isPub ∧ declared.Spellable := by
  cases derived with
  | intro begins named typed assigned ends =>
    refine ⟨rfl, (proper _ (by simp)).1 named, ?_, ?_⟩
    · exact typed.forall_of_forall (fun token member => proper token (by simp [member]))
        fun _ _ _ => DerivesType.spellable
    · exact assigned.forall_of_forall (fun token member => proper token (by simp [member]))
        fun _ _ _ => DerivesExpr.spellable

/-- What proper tokens spell in the header of a `for` is spellable. -/
theorem ForStart.spellable {short : Bool} {init : Option Stmt}
    (derived : ForStart short tokens init levels) (proper : ∀ token ∈ tokens, Proper token) :
    ∀ start ∈ init, start.SpellableStart := by
  cases derived with
  | empty | omitted => exact fun _ impossible => nomatch impossible
  | declare var =>
    rintro start ⟨⟩
    exact var.spellable proper
  | expr item =>
    rintro start ⟨⟩
    exact item.spellable fun token member =>
      proper token (List.mem_append_left _ member)

/-- What it means for a phrase of statements to be spellable. -/
def StmtPhrase.Spellable : StmtPhrase → Prop
  | .stmt value => value.Spellable
  | .branch value => Stmt.SpellableElse (some value)
  | .block _ inner => Stmt.AllSpellable inner
  | .body statements => Stmt.AllSpellable statements

/-- A block or an `if` that may stand behind `else` may stand anywhere. -/
theorem spellable_of_spellableElse {value : Stmt} (spellable : Stmt.SpellableElse (some value)) :
    value.Spellable := by
  cases value with
  | block | branch => exact spellable
  | returns | whileLoop | forLoop | breakLoop | continueLoop | expr | comptime | declare =>
    exact spellable.elim

/-- What proper tokens spell as a phrase of statements is spellable. -/
theorem DerivesStmt.spellable {short : Bool} {phrase : StmtPhrase}
    (derived : DerivesStmt short tokens phrase levels)
    (proper : ∀ token ∈ tokens, Proper token) : phrase.Spellable := by
  induction derived with
  | braces _ _ _ inner => exact inner fun token member => proper token (by simp [member])
  | empty | breakLoop | continueLoop => trivial
  | cons _ _ head tail =>
    exact ⟨head fun token member => proper token (List.mem_append_left _ member),
      tail fun token member => proper token (List.mem_append_right _ member)⟩
  | branchOnly _ _ tested _ _ taken =>
    exact ⟨tested.spellable fun token member => proper token (by simp [member]),
      taken fun token member => proper token (by simp [member]), trivial⟩
  | branchElse _ _ tested _ _ _ _ taken last =>
    exact ⟨tested.spellable fun token member => proper token (by simp [member]),
      taken fun token member => proper token (by simp [member]),
      last fun token member => proper token (by simp [member])⟩
  | branchChain _ _ tested _ _ _ _ taken chained =>
    exact ⟨tested.spellable fun token member => proper token (by simp [member]),
      taken fun token member => proper token (by simp [member]),
      chained fun token member => proper token (by simp [member])⟩
  | branch _ inner => exact spellable_of_spellableElse (inner proper)
  | block _ inner => exact inner proper
  | returns _ given _ =>
    exact spellable_possibly given fun token member => proper token (by simp [member])
  | whileLoop _ _ tested _ _ inner =>
    exact ⟨tested.spellable fun token member => proper token (by simp [member]),
      inner fun token member => proper token (by simp [member])⟩
  | forLoop _ _ starts tested _ stepped _ _ inner =>
    exact ⟨starts.spellable fun token member => proper token (by simp [member]),
      spellable_possibly tested fun token member => proper token (by simp [member]),
      spellable_possibly stepped fun token member => proper token (by simp [member]),
      inner fun token member => proper token (by simp [member])⟩
  | comptime _ _ inner => exact inner fun token member => proper token (by simp [member])
  | declare var => exact var.spellable proper
  | expr item =>
    exact item.spellable fun token member =>
      proper token (List.mem_append_left _ member)

/-- Items with commas between them are all spelled by tokens of the list. -/
theorem CommaList.forall_of_forall {α : Type} {Item : List Token → α → Nat → Prop}
    {Holds : α → Prop} {values : List α} (derived : CommaList Item tokens values levels)
    (proper : ∀ token ∈ tokens, Proper token)
    (item : ∀ tokens value levels, Item tokens value levels → (∀ token ∈ tokens, Proper token) →
      Holds value) : ∀ value ∈ values, Holds value := by
  induction derived with
  | nil => exact fun _ impossible => nomatch impossible
  | last single =>
    intro value member
    rw [List.mem_singleton.mp member]
    exact item _ _ _ single proper
  | cons first _ _ inductionHypothesis =>
    intro value member
    rcases List.mem_cons.mp member with rfl | member
    · exact item _ _ _ first fun token member => proper token (List.mem_append_left _ member)
    · exact inductionHypothesis (fun token member => proper token (by simp [member])) value member

/-- What proper tokens spell as a parameter is spellable. -/
theorem DerivesParam.spellable {param : Param} (derived : DerivesParam tokens param levels)
    (proper : ∀ token ∈ tokens, Proper token) : param.Spellable := by
  cases derived with
  | intro _ named _ typed whole =>
    rw [← whole] at proper
    exact ⟨(proper _ (by simp)).1 named,
      typed.spellable fun token member => proper token (by simp [member])⟩

/-- What proper tokens spell as a field is spellable. -/
theorem DerivesField.spellable {field : Field} (derived : DerivesField tokens field levels)
    (proper : ∀ token ∈ tokens, Proper token) : field.Spellable := by
  cases derived with
  | intro named _ typed =>
    exact ⟨(proper _ (by simp)).1 named,
      typed.spellable fun token member => proper token (by simp [member])⟩

/-- What proper tokens spell as a declaration is spellable. -/
theorem DerivesDecl.spellable {short : Bool} {declared : Decl}
    (derived : DerivesDecl short tokens declared levels)
    (proper : ∀ token ∈ tokens, Proper token) : declared.Spellable := by
  cases derived with
  | fn _ _ _ named _ listed _ typed inner whole =>
    rw [← whole] at proper
    refine ⟨(proper _ (by simp)).1 named, ?_, ?_, ?_⟩
    · exact listed.forall_of_forall (fun token member => proper token (by simp [member]))
        fun _ _ _ => DerivesParam.spellable
    · exact typed.spellable fun token member => proper token (by simp [member])
    · exact inner.spellable fun token member => proper token (by simp [member])
  | var _ inner whole =>
    rw [← whole] at proper
    exact (inner.spellable fun token member => proper token (by simp [member])).2
  | struct _ _ named _ _ _ listed _ _ whole =>
    rw [← whole] at proper
    refine ⟨(proper _ (by simp)).1 named, ?_⟩
    exact listed.forall_of_forall (fun token member => proper token (by simp [member]))
      fun _ _ _ => DerivesField.spellable

/-- What proper tokens spell as a program is spellable. -/
theorem DerivesProgram.spellable {short : Bool} {program : Program}
    (derived : DerivesProgram short tokens program levels)
    (proper : ∀ token ∈ tokens, Proper token) : program.Spellable := by
  induction derived with
  | nil => exact fun _ impossible => nomatch impossible
  | cons head _ inductionHypothesis =>
    intro declared member
    rcases List.mem_cons.mp member with rfl | member
    · exact head.spellable fun token member => proper token (List.mem_append_left _ member)
    · exact inductionHypothesis
        (fun token member => proper token (List.mem_append_right _ member)) declared member

end SystemsLang.Grammar
