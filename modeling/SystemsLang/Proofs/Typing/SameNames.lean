import SystemsLang.Proofs.Layout.RoundTrip
import SystemsLang.Proofs.Outline.Statements
import SystemsLang.Proofs.Typing.Names

/-!
# Well typed by names

The language says that types are the same if they have the same name; the checker compares how they
are formed. Judging a program that has been parsed only comes to types that can be written and whose
structs are declared (`Ty.Over`). Among those, types with the same name are the same unless a struct
is called `unknown`, so a derivation by names is one by forms, and the other way round: rule by rule
it can be carried from one notion to another that agrees with it on such types (`HasType.carry`,
`StmtOk.carry`, `WellTyped.carry`).

The checker therefore accepts no program that is not well typed by names, and without a struct
called `unknown` it accepts all that are (`check_eq_nil_iff_wellTyped`). With such a struct it can
reject a well-typed program (`unknown_struct_rejected`).
-/

namespace SystemsLang.Typing

open Syntax
open Token (IsIdentifier primitiveTypeNames)

variable {structs : String → Option Fields}

namespace Ty

variable {type inner first second : Ty} {name : String}

/-- The type can be written, and its structs are among the given ones. -/
structure Over (structs : String → Option Fields) (type : Ty) : Prop where
  spellable : type.Spellable
  declared : ∀ name, Within components (struct name) type → (structs name).isSome = true

/-- What a type over structs is made of is over them. -/
theorem Over.component (typeOver : type.Over structs) (member : inner ∈ type.components) :
    inner.Over structs :=
  ⟨typeOver.spellable.component member,
    fun name within => typeOver.declared name (.inner member within)⟩

/-- A type other than a struct is over structs if it can be written and what it is made of is. -/
theorem Over.of_components (named : type.Named) (noStruct : ∀ name, type ≠ struct name)
    (below : ∀ component ∈ type.components, component.Over structs) : type.Over structs := by
  refine ⟨.of_components named fun component member => (below component member).spellable, ?_⟩
  intro name within
  cases within with
  | self => exact absurd rfl (noStruct name)
  | inner member within => exact (below _ member).declared name within

/-- A type that is made of one other is over structs if that one is. -/
theorem Over.of_inner (named : type.Named) (made : type.components = [inner])
    (typeOver : inner.Over structs) : type.Over structs := by
  refine .of_components named ?_ ?_
  · rintro name rfl
    cases made
  · rw [made]
    exact List.forall_mem_singleton.mpr typeOver

/-- The unknown type is over any structs. -/
theorem over_unknown : unknown.Over structs :=
  .of_components trivial (fun _ => nofun) (List.forall_mem_nil _)

/-- So is the type of `null`. -/
theorem over_null : null.Over structs :=
  .of_components trivial (fun _ => nofun) (List.forall_mem_nil _)

/-- So is a primitive type. -/
theorem over_primitive (listed : name ∈ primitiveTypeNames) (notVoid : name ≠ "void") :
    (primitive name).Over structs :=
  .of_components ⟨listed, notVoid⟩ (fun _ => nofun) (List.forall_mem_nil _)

/-- So is the type of conditions. -/
theorem over_bool : bool.Over structs :=
  over_primitive (by decide) (by decide)

/-- So is a struct that is one of them. -/
theorem over_struct (identifier : IsIdentifier name) (declared : (structs name).isSome = true) :
    (struct name).Over structs := by
  refine ⟨.of_leaf identifier rfl, fun other within => ?_⟩
  cases within with
  | self => exact declared
  | inner member => cases member

/-- A function is over structs if its parameters and its result are. -/
theorem over_function {params : List Ty} {result : Ty}
    (typeOver : ∀ param ∈ params, param.Over structs) (last : result.Over structs) :
    (function params result).Over structs := by
  refine .of_components trivial (fun _ => nofun) fun component member => ?_
  rcases List.mem_append.mp member with isParam | isResult
  · exact typeOver component isParam
  · exact List.mem_singleton.mp isResult ▸ last

/-- The structs in what a known type expression denotes are there. -/
theorem isSome_of_within_denoted {type : TypeExpr} (known : Known structs type)
    (within : Within components (struct name) (denoted type)) : (structs name).isSome = true := by
  induction type with
  | primitive position name =>
    unfold denoted ofPrimitive at within
    split at within <;>
    · cases within with
      | inner member => cases member
  | named position name =>
    cases within with
    | self => exact known
    | inner member => cases member
  | pointer _ _ _ inductionHypothesis | array _ _ _ inductionHypothesis
  | slice _ _ _ inductionHypothesis | optional _ _ inductionHypothesis
  | errorUnion _ _ inductionHypothesis =>
    cases within with
    | inner member within =>
      obtain rfl := List.mem_singleton.mp member
      exact inductionHypothesis known within

/-- What a known type expression denotes that can be spelled is over the structs. -/
theorem over_denoted {type : TypeExpr} (spellable : type.Spellable) (known : Known structs type) :
    (denoted type).Over structs :=
  ⟨spellable_denoted type spellable, fun _ => isSome_of_within_denoted known⟩

/-- If none of the structs is called `unknown`, types over them with the same name are the same. -/
theorem Over.eq_of_sameName (absent : structs "unknown" = none) (firstOver : first.Over structs)
    (secondOver : second.Over structs) (same : first.SameName second) : first = second := by
  have unnamed {type : Ty} (typeOver : type.Over structs) :
      ¬ Within components (struct "unknown") type := by
    intro within
    have declared := typeOver.declared "unknown" within
    rw [absent] at declared
    cases declared
  exact (text_eq_iff_eq firstOver.spellable secondOver.spellable (unnamed firstOver)
    (unnamed secondOver)).mp same

end Ty

/-- The types that an environment mentions are over some structs, which are those of the
environment. -/
structure Env.Over (structs : String → Option Fields) (env : Env) : Prop where
  same : env.structs = structs
  fields : ∀ name fields, structs name = some fields → ∀ field ∈ fields, field.2.Over structs
  bindings : env.Binds (Ty.Over structs)
  result : ∀ result ∈ env.result, result.Over structs

/-- Types over the structs that are the same by the first notion are so by the second. -/
def Carries (structs : String → Option Fields) (Same Other : Ty → Ty → Prop) : Prop :=
  ∀ first second : Ty, first.Over structs → second.Over structs → Same first second →
    Other first second

variable {Same Other : Ty → Ty → Prop} {env : Env}

/-- A new scope mentions no types. -/
theorem Env.Over.inner (typeOver : env.Over structs) : env.inner.Over structs :=
  ⟨typeOver.same, typeOver.fields, typeOver.bindings.inner, typeOver.result⟩

/-- A name may be bound to a type over the structs. -/
theorem Env.Over.bind (typeOver : env.Over structs) {name : String} {binding : Binding}
    (here : binding.type.Over structs) : (env.bind name binding).Over structs := by
  refine ⟨?_, typeOver.fields, typeOver.bindings.bind here, ?_⟩
  · rw [Env.structs_bind]
    exact typeOver.same
  · rw [Env.result_bind]
    exact typeOver.result

/-- A coercion between types over the structs is carried over. -/
theorem Coerces.carry (carries : Carries structs Same Other) {actual expected : Ty}
    (fits : Coerces Same actual expected) (typeOver : actual.Over structs)
    (expectedOver : expected.Over structs) : Coerces Other actual expected := by
  induction fits with
  | same same => exact .same (carries _ _ typeOver expectedOver same)
  | fromUnknown => exact .fromUnknown _
  | toUnknown => exact .toUnknown _
  | integer number => exact .integer number
  | float number => exact .float number
  | null => exact .null _
  | optional fits inductionHypothesis =>
    exact .optional (inductionHypothesis typeOver (expectedOver.component List.mem_cons_self))
  | errorUnion fits inductionHypothesis =>
    exact .errorUnion (inductionHypothesis typeOver (expectedOver.component List.mem_cons_self))
  | pointer same =>
    exact .pointer (carries _ _ (typeOver.component List.mem_cons_self)
      (expectedOver.component List.mem_cons_self) same)
  | slice same =>
    exact .slice (carries _ _ (typeOver.component List.mem_cons_self)
      (expectedOver.component List.mem_cons_self) same)

/-- A binary operation on types over the structs is carried over, and gives such a type. -/
theorem BinaryType.carry (carries : Carries structs Same Other) {operator : BinaryOp}
    {left right type : Ty} (rule : BinaryType Same operator left right type)
    (leftOver : left.Over structs) (rightOver : right.Over structs) :
    BinaryType Other operator left right type ∧ type.Over structs := by
  cases rule with
  | arithmetic isClass leftNumeric rightNumeric =>
    exact ⟨.arithmetic isClass leftNumeric rightNumeric, leftOver⟩
  | comparison isClass compatible =>
    refine ⟨.comparison isClass ?_, Ty.over_bool⟩
    rcases compatible with forth | back
    · exact .inl (forth.carry carries leftOver rightOver)
    · exact .inr (back.carry carries rightOver leftOver)
  | logical isClass leftBoolean rightBoolean =>
    exact ⟨.logical isClass leftBoolean rightBoolean, Ty.over_bool⟩

/-- A prefix operation on a type over the structs gives such a type. -/
theorem UnaryType.resultOver {operand : Expr} {operator : UnaryOp} {operandType type : Ty}
    (rule : UnaryType env operand operator operandType type) (typeOver : operandType.Over structs) :
    type.Over structs := by
  cases rule with
  | negate => exact typeOver
  | not => exact Ty.over_bool
  | addressOfName | addressOf => exact .of_inner trivial rfl typeOver
  | attempt => exact typeOver.component List.mem_cons_self
  | attemptUnknown => exact Ty.over_unknown

/-- A call with types over the structs is carried over, and gives such a type. -/
theorem CallType.carry (carries : Carries structs Same Other) {types : List Ty}
    {calleeType type : Ty} (rule : CallType Same types calleeType type)
    (given : ∀ type ∈ types, type.Over structs) (typeOver : calleeType.Over structs) :
    CallType Other types calleeType type ∧ type.Over structs := by
  cases rule with
  | function count fit =>
    have param {type : Ty} (member : type ∈ _) : type.Over structs :=
      typeOver.component (List.mem_append_left _ member)
    refine ⟨.function count fun pair member => ?_,
      typeOver.component (List.mem_append_right _ List.mem_cons_self)⟩
    obtain ⟨isGiven, isParam⟩ := List.of_mem_zip member
    exact (fit pair member).carry carries (given _ isGiven) (param isParam)
  | unknown => exact ⟨.unknown, Ty.over_unknown⟩

/-- A member has a type over the structs. -/
theorem MemberType.resultOver (place : env.Over structs) {field : String} {objectType type : Ty}
    (rule : MemberType env field objectType type) : type.Over structs := by
  cases rule with
  | field looked declared present =>
    rw [place.same] at declared
    exact place.fields _ _ declared _ (mem_of_lookup present)
  | length => exact Ty.over_primitive (by decide) (by decide)
  | unknown => exact Ty.over_unknown

/-- What is found in an array or a slice has a type over the structs. -/
theorem ElementType.resultOver {objectType type : Ty} (rule : ElementType objectType type)
    (typeOver : objectType.Over structs) : type.Over structs := by
  cases rule with
  | array | slice => exact typeOver.component List.mem_cons_self
  | pointer => exact (typeOver.component List.mem_cons_self).component List.mem_cons_self
  | unknown => exact Ty.over_unknown

/-- What a pointer points to has a type over the structs. -/
theorem PointeeType.resultOver {objectType type : Ty} (rule : PointeeType objectType type)
    (typeOver : objectType.Over structs) : type.Over structs := by
  cases rule with
  | pointer => exact typeOver.component List.mem_cons_self
  | unknown => exact Ty.over_unknown

/-- What is in an optional has a type over the structs. -/
theorem UnwrappedType.resultOver {objectType type : Ty} (rule : UnwrappedType objectType type)
    (typeOver : objectType.Over structs) : type.Over structs := by
  cases rule with
  | optional => exact typeOver.component List.mem_cons_self
  | unknown => exact Ty.over_unknown

/-- The values of several named expressions can be spelled if these can. -/
theorem allSpellable_values {values : List (Ident × Expr)}
    (spellable : Expr.FieldsSpellable values) : Expr.AllSpellable (values.map Prod.snd) := by
  induction values with
  | nil => trivial
  | cons first rest inductionHypothesis =>
    exact ⟨spellable.2.1, inductionHypothesis spellable.2.2⟩

mutual

/-- The type of an expression that can be spelled is over the structs, and is carried over.

Proof: by recursion on the derivation. Each rule says which types it takes, and these are over the
structs because they come from the environment, from a type that is written in the expression or
from the parts of the expression. -/
theorem HasType.carry (carries : Carries structs Same Other) (place : env.Over structs)
    {expression : Expr} {type : Ty} : HasType Same env expression type → expression.Spellable →
      HasType Other env expression type ∧ type.Over structs
  | .integer whole, _ => ⟨.integer whole, Ty.over_primitive (by decide) (by decide)⟩
  | .fraction point, _ => ⟨.fraction point, Ty.over_primitive (by decide) (by decide)⟩
  | .string, _ =>
    ⟨.string, .of_inner trivial rfl (Ty.over_primitive (by decide) (by decide))⟩
  | .bool, _ => ⟨.bool, Ty.over_bool⟩
  | .null, _ => ⟨.null, Ty.over_null⟩
  | .undefined, _ => ⟨.undefined, Ty.over_unknown⟩
  | .ident bound, _ => ⟨.ident bound, place.bindings.lookup bound⟩
  | .binary leftTyped rightTyped rule, spellable => by
    obtain ⟨left, leftOver⟩ := HasType.carry carries place leftTyped spellable.1
    obtain ⟨right, rightOver⟩ := HasType.carry carries place rightTyped spellable.2
    obtain ⟨operation, typeOver⟩ := rule.carry carries leftOver rightOver
    exact ⟨.binary left right operation, typeOver⟩
  | .unary typed rule, spellable => by
    obtain ⟨operand, typeOver⟩ := HasType.carry carries place typed spellable
    exact ⟨.unary operand rule, rule.resultOver typeOver⟩
  | .call typed given rule, spellable => by
    obtain ⟨callee, typeOver⟩ := HasType.carry carries place typed spellable.1
    obtain ⟨arguments, givenOver⟩ := HasTypes.carry carries place given spellable.2
    obtain ⟨call, resultOver⟩ := rule.carry carries givenOver typeOver
    exact ⟨.call callee arguments call, resultOver⟩
  | .member typed rule, spellable => by
    obtain ⟨object, -⟩ := HasType.carry carries place typed spellable.1
    exact ⟨.member object rule, rule.resultOver place⟩
  | .index typed subscripted integral rule, spellable => by
    obtain ⟨object, typeOver⟩ := HasType.carry carries place typed spellable.1
    obtain ⟨subscript, -⟩ := HasType.carry carries place subscripted spellable.2
    exact ⟨.index object subscript integral rule, rule.resultOver typeOver⟩
  | .deref typed rule, spellable => by
    obtain ⟨object, typeOver⟩ := HasType.carry carries place typed spellable
    exact ⟨.deref object rule, rule.resultOver typeOver⟩
  | .unwrap typed rule, spellable => by
    obtain ⟨object, typeOver⟩ := HasType.carry carries place typed spellable
    exact ⟨.unwrap object rule, rule.resultOver typeOver⟩
  | .discard discards typed, spellable => by
    obtain ⟨value, -⟩ := HasType.carry carries place typed spellable.2.2.2
    exact ⟨.discard discards value, Ty.over_unknown⟩
  | .assign keeps writable targetTyped typed fits, spellable => by
    obtain ⟨target, targetOver⟩ := HasType.carry carries place targetTyped spellable.2.2.1
    obtain ⟨value, valueOver⟩ := HasType.carry carries place typed spellable.2.2.2
    exact ⟨.assign keeps writable target value
      ⟨fits.1, fits.2.carry carries valueOver targetOver⟩, targetOver⟩
  | .structLit declared given fit complete, spellable => by
    obtain ⟨values, typesOver⟩ :=
      HasTypes.carry carries place given (allSpellable_values spellable.2)
    have there := declared
    rw [place.same] at there
    refine ⟨.structLit declared values (fun pair member => ?_) complete,
      Ty.over_struct spellable.1 (Option.isSome_of_eq_some there)⟩
    obtain ⟨expected, found, coerces⟩ := fit pair member
    have fieldOver := place.fields _ _ there _ (mem_of_lookup found)
    exact ⟨expected, found,
      coerces.carry carries (typesOver _ (List.of_mem_zip member).2) fieldOver⟩
  | .arrayLit known given fit counted, spellable => by
    obtain ⟨elements, typesOver⟩ := HasTypes.carry carries place given spellable.2
    have elementOver := Ty.over_denoted spellable.1 (place.same ▸ known)
    exact ⟨.arrayLit known elements
      (fun type member => (fit type member).carry carries (typesOver type member) elementOver)
      counted, .of_inner trivial rfl elementOver⟩

/-- So are the types of several. -/
theorem HasTypes.carry (carries : Carries structs Same Other) (place : env.Over structs)
    {expressions : List Expr} {types : List Ty} :
    HasTypes Same env expressions types → Expr.AllSpellable expressions →
      HasTypes Other env expressions types ∧ ∀ type ∈ types, type.Over structs
  | .nil, _ => ⟨.nil, List.forall_mem_nil _⟩
  | .cons head tail, spellable => by
    obtain ⟨first, typeOver⟩ := HasType.carry carries place head spellable.1
    obtain ⟨rest, restOver⟩ := HasTypes.carry carries place tail spellable.2
    exact ⟨.cons first rest, List.forall_mem_cons.mpr ⟨typeOver, restOver⟩⟩

end

/-- The type of a variable is over the structs, and is carried over. -/
theorem VarType.carry (carries : Carries structs Same Other) (place : env.Over structs)
    {declared : VarDecl} (spellable : declared.Spellable) {type : Ty}
    (typed : VarType Same env declared type) :
    VarType Other env declared type ∧ type.Over structs := by
  cases typed with
  | stated annotated absent known =>
    have typeOver := Ty.over_denoted (spellable.type _ annotated) (place.same ▸ known)
    exact ⟨.stated annotated absent known, typeOver⟩
  | checked annotated given known typed fits =>
    have typeOver := Ty.over_denoted (spellable.type _ annotated) (place.same ▸ known)
    obtain ⟨value, valueOver⟩ := typed.carry carries place (spellable.init _ given)
    exact ⟨.checked annotated given known value (fits.carry carries valueOver typeOver), typeOver⟩
  | inferred bare given typed =>
    obtain ⟨value, typeOver⟩ := typed.carry carries place (spellable.init _ given)
    exact ⟨.inferred bare given value, typeOver⟩

/-- What may be a condition by one notion may be one by the other. -/
theorem Condition.carry (carries : Carries structs Same Other) (place : env.Over structs)
    {value : Expr} (tested : Condition Same env value) (spellable : value.Spellable) :
    Condition Other env value := by
  obtain ⟨type, typed, boolean⟩ := tested
  exact ⟨type, (typed.carry carries place spellable).1, boolean⟩

/-- The statement behind `else` can be spelled like any other. -/
theorem allSpellable_else {otherwise : Option Stmt} (spellable : Stmt.SpellableElse otherwise) :
    Stmt.AllSpellable otherwise.toList := by
  cases otherwise with
  | none => trivial
  | some value => exact ⟨Grammar.spellable_of_spellableElse spellable, trivial⟩

/-- So can the first part of the header of a `for`. -/
theorem allSpellable_init {init : Option Stmt}
    (spellable : ∀ start ∈ init, start.SpellableStart) : Stmt.AllSpellable init.toList := by
  cases init with
  | none => trivial
  | some start => exact ⟨Stmt.spellable_of_spellableStart (spellable start rfl), trivial⟩

mutual

/-- A statement that can be spelled is in order by the other notion as well. The environment that it
leaves mentions types over the structs. -/
theorem StmtOk.carry (carries : Carries structs Same Other) {inLoop : Bool} {env after : Env}
    {statement : Stmt} : StmtOk Same inLoop env statement after → env.Over structs →
      statement.Spellable → StmtOk Other inLoop env statement after ∧ after.Over structs
  | .block inner, place, spellable =>
    ⟨.block (StmtsOk.carry carries inner place.inner spellable).1, place⟩
  | .comptime inner, place, spellable =>
    ⟨.comptime (StmtsOk.carry carries inner place.inner spellable).1, place⟩
  | .returnNothing inside needless, place, _ => ⟨.returnNothing inside needless, place⟩
  | .returnValue inside valued typed fits, place, spellable => by
    obtain ⟨value, typeOver⟩ := typed.carry carries place (spellable _ rfl)
    exact ⟨.returnValue inside valued value
      (fits.carry carries typeOver (place.result _ inside)), place⟩
  | .branch tested taken last, place, spellable => by
    have condition := tested.carry carries place spellable.1
    obtain ⟨body, -⟩ := StmtsOk.carry carries taken place.inner spellable.2.1
    obtain ⟨other, behind⟩ := StmtsOk.carry carries last place (allSpellable_else spellable.2.2)
    exact ⟨.branch condition body other, behind⟩
  | .whileLoop tested inner, place, spellable =>
    ⟨.whileLoop (tested.carry carries place spellable.1)
      (StmtsOk.carry carries inner place.inner spellable.2).1, place⟩
  | .forLoop starts tested stepped inner, place, spellable => by
    obtain ⟨start, header⟩ :=
      StmtsOk.carry carries starts place.inner (allSpellable_init spellable.1)
    obtain ⟨body, -⟩ := StmtsOk.carry carries inner header.inner spellable.2.2.2
    refine ⟨.forLoop start (fun test isTest => ?_) (fun update isUpdate => ?_) body, place⟩
    · exact (tested test isTest).carry carries header (spellable.2.1 test isTest)
    · obtain ⟨type, typed⟩ := stepped update isUpdate
      exact ⟨type, (typed.carry carries header (spellable.2.2.1 update isUpdate)).1⟩
  | .breakLoop, place, _ => ⟨.breakLoop, place⟩
  | .continueLoop, place, _ => ⟨.continueLoop, place⟩
  | .expr typed, place, spellable => ⟨.expr (typed.carry carries place spellable).1, place⟩
  | .declare typed fresh, place, spellable => by
    obtain ⟨declared, typeOver⟩ := typed.carry carries place spellable.2
    exact ⟨.declare declared fresh, place.bind typeOver⟩

/-- So are several. -/
theorem StmtsOk.carry (carries : Carries structs Same Other) {inLoop : Bool} {env after : Env}
    {statements : List Stmt} : StmtsOk Same inLoop env statements after → env.Over structs →
      Stmt.AllSpellable statements →
        StmtsOk Other inLoop env statements after ∧ after.Over structs
  | .nil, place, _ => ⟨.nil, place⟩
  | .cons head tail, place, spellable => by
    obtain ⟨first, between⟩ := StmtOk.carry carries head place spellable.1
    obtain ⟨rest, behind⟩ := StmtsOk.carry carries tail between spellable.2
    exact ⟨.cons first rest, behind⟩

end

/-- In a function whose signature is known the parameters and the result have types over the
structs. -/
theorem FnOk.bodyOver {globals : Frame} {declared : FnDecl}
    (ok : FnOk Same structs globals declared) (spellable : (Decl.fn declared).Spellable)
    (outer : Env.Over structs ⟨structs, globals, [], none⟩) :
    Env.Over structs
      ⟨structs, globals, [paramFrame declared.params], some (denoted declared.returnType)⟩ := by
  refine ⟨rfl, outer.fields, fun frame member name binding bound => ?_, ?_⟩
  · rcases List.mem_cons.mp member with rfl | inFrames
    · exact outer.bindings _ List.mem_cons_self name binding bound
    · obtain rfl := List.mem_singleton.mp inFrames
      obtain ⟨param, found, rfl⟩ := Option.map_eq_some_iff.mp bound
      have isParam := List.mem_of_find?_eq_some found
      exact Ty.over_denoted (spellable.2.1 param isParam).2 (ok.params param isParam)
  · rintro result ⟨⟩
    exact Ty.over_denoted spellable.2.2.1 ok.result

/-- Declarations that can be spelled are in order by the other notion as well. -/
theorem DeclsOk.carry (carries : Carries structs Same Other) {globals : Frame} {program : Program}
    (ok : DeclsOk Same structs globals program)
    (outer : Env.Over structs ⟨structs, globals, [], none⟩) (spellable : program.Spellable) :
    DeclsOk Other structs globals program := by
  induction ok with
  | nil => exact .nil
  | fn head tail inductionHypothesis =>
    obtain ⟨isSpellable, later⟩ := List.forall_mem_cons.mp spellable
    obtain ⟨after, body⟩ := head.body
    have carried := (body.carry carries (head.bodyOver isSpellable outer) isSpellable.2.2.2).1
    exact .fn { head with body := ⟨after, carried⟩ } (inductionHypothesis outer later)
  | var typed tail inductionHypothesis =>
    obtain ⟨isSpellable, later⟩ := List.forall_mem_cons.mp spellable
    obtain ⟨declared, typeOver⟩ := typed.carry carries outer isSpellable
    exact .var declared (inductionHypothesis (outer.bind typeOver) later)
  | struct head tail inductionHypothesis =>
    obtain ⟨-, later⟩ := List.forall_mem_cons.mp spellable
    exact .struct head (inductionHypothesis outer later)

/-- What the global names of a well-typed program are bound to, and what its structs hold, has types
over its structs. -/
theorem WellTyped.globalsOver {program : Program} (wellTyped : WellTyped Same program)
    (spellable : program.Spellable) :
    Env.Over (structsOf program) ⟨structsOf program, globalsOf program, [], none⟩ := by
  refine ⟨rfl, fun name fields found field member => ?_,
    fun frame isGlobal name binding bound => ?_, fun _ => nofun⟩
  · obtain ⟨declared, isDeclared, rfl⟩ := Option.map_eq_some_iff.mp found
    obtain ⟨head, there, isStruct⟩ := List.exists_of_findSome?_eq_some isDeclared
    obtain ⟨rfl, -⟩ := structOf?_eq_some.mp isStruct
    obtain ⟨source, isField, rfl⟩ := List.mem_map.mp member
    have ok := wellTyped.decls.structs declared (mem_structDecls.mpr there)
    exact Ty.over_denoted ((spellable _ there).2 source isField).2 (ok.fields source isField)
  · obtain rfl := List.mem_singleton.mp isGlobal
    obtain ⟨declared, found, rfl⟩ := Option.map_eq_some_iff.mp bound
    have there := List.mem_of_find?_eq_some found
    have known := wellTyped.decls.stated declared there
    have spelled := spellable declared there
    cases declared with
    | fn declared =>
      refine Ty.over_function (fun param member => ?_) (Ty.over_denoted spelled.2.2.1 known.2)
      obtain ⟨source, isParam, rfl⟩ := List.mem_map.mp member
      exact Ty.over_denoted (spelled.2.1 source isParam).2 (known.1 source isParam)
    | var declared =>
      cases written : declared.type with
      | none => simpa [bindingOf, written] using Ty.over_unknown
      | some type =>
        have typeOver : (denoted type).Over (structsOf program) :=
          Ty.over_denoted (spelled.type type written) (known type written)
        simpa [bindingOf, written] using typeOver
    | struct declared =>
      have isThere := structsOf_of_mem wellTyped.distinct (mem_structDecls.mpr there)
      exact Ty.over_struct spelled.1 (Option.isSome_of_eq_some isThere)

/-- A program that can be spelled is well typed by the other notion as well. -/
theorem WellTyped.carry {program : Program} (carries : Carries (structsOf program) Same Other)
    (wellTyped : WellTyped Same program) (spellable : program.Spellable) :
    WellTyped Other program :=
  ⟨wellTyped.distinct, wellTyped.decls.carry carries (wellTyped.globalsOver spellable) spellable⟩

/-- A program is accepted by the checker exactly if it is well typed where types are the same if
they are formed alike. Such a program is well typed where types are the same if they have the same
name. If no struct is called `unknown`, then a program that is well typed by names is accepted, so
nothing is reported of a program exactly if it is well typed. -/
theorem check_eq_nil_iff_wellTyped {source : String} {program : Program}
    (parsed : Program.ofSource source = .ok program) :
    (program.check = .ok [] ↔ WellTyped Eq program) ∧
      (program.check = .ok [] → WellTyped Ty.SameName program) ∧
      ((∀ declared, .struct declared ∈ program → declared.name.name ≠ "unknown") →
        (program.check = .ok [] ↔ WellTyped Ty.SameName program)) := by
  have spellable := Layout.spellable_of_ofSource parsed
  have byNames (quiet : program.check = .ok []) : WellTyped Ty.SameName program :=
    (check_eq_nil_iff_eq.mp quiet).carry (fun _ _ _ _ => congrArg Ty.text) spellable
  refine ⟨check_eq_nil_iff_eq, byNames, fun unnamed => ⟨byNames, fun wellTyped => ?_⟩⟩
  have absent : structsOf program "unknown" = none :=
    structsOf_of_absent fun declared member => unnamed declared (mem_structDecls.mp member)
  have carries : Carries (structsOf program) Ty.SameName Eq :=
    fun _ _ typeOver otherOver => typeOver.eq_of_sameName absent otherOver
  exact check_eq_nil_iff_eq.mpr (wellTyped.carry carries spellable)

/-- A struct, and a function that gives back the pointer to one that it is given. -/
def forwarding (given result : TypeExpr) : Program :=
  [.struct ⟨false, ⟨"P", ⟨1, 7⟩⟩, [⟨⟨"x", ⟨1, 20⟩⟩, .primitive ⟨1, 23⟩ "i32", ⟨1, 20⟩⟩], ⟨1, 1⟩⟩,
    .fn ⟨false, none, ⟨"f", ⟨1, 33⟩⟩, [⟨false, ⟨"p", ⟨1, 35⟩⟩, given, ⟨1, 35⟩⟩], result,
      [.returns ⟨1, 53⟩ (some (.ident ⟨1, 60⟩ "p"))], ⟨1, 30⟩⟩]

/-- The pointer becomes one to what must not be written to. -/
def protecting : Program :=
  forwarding (.pointer ⟨1, 38⟩ false (.named ⟨1, 39⟩ "P"))
    (.pointer ⟨1, 42⟩ true (.named ⟨1, 49⟩ "P"))

/-- The pointer is to what must not be written to, and becomes one to what may. -/
def exposing : Program :=
  forwarding (.pointer ⟨1, 38⟩ true (.named ⟨1, 45⟩ "P"))
    (.pointer ⟨1, 48⟩ false (.named ⟨1, 49⟩ "P"))

/-- The first is well typed and the second is not. -/
theorem check_eq_nil_iff_wellTyped_forwarding :
    (Program.ofSource "const P = struct { x: i32 }; fn f(p: *P) *const P { return p; }" =
        .ok protecting ∧
      protecting.check = .ok [] ∧ WellTyped Ty.SameName protecting) ∧
    Program.ofSource "const P = struct { x: i32 }; fn f(p: *const P) *P { return p; }" =
        .ok exposing ∧
      (∀ declared, .struct declared ∈ exposing → declared.name.name ≠ "unknown") ∧
      exposing.check ≠ .ok [] ∧ ¬ WellTyped Ty.SameName exposing := by
  constructor
  · have parsed : Program.ofSource
        "const P = struct { x: i32 }; fn f(p: *P) *const P { return p; }" = .ok protecting := by
      decide +kernel
    have quiet : protecting.check = .ok [] := by decide +kernel
    exact ⟨parsed, quiet, (check_eq_nil_iff_wellTyped parsed).2.1 quiet⟩
  · have parsed : Program.ofSource
        "const P = struct { x: i32 }; fn f(p: *const P) *P { return p; }" = .ok exposing := by
      decide +kernel
    have unnamed : ∀ declared, .struct declared ∈ exposing → declared.name.name ≠ "unknown" := by
      intro declared member
      rcases List.mem_pair.mp member with isStruct | isFn
      · cases isStruct
        decide
      · cases isFn
    have reported : exposing.check =
        .ok [⟨.typeMismatch (.pointer false (.struct "P")) (.pointer true (.struct "P")),
          ⟨1, 60⟩⟩] := by
      decide +kernel
    have noisy : exposing.check ≠ .ok [] := by simp [reported]
    have decides := (check_eq_nil_iff_wellTyped parsed).2.2 unnamed
    exact ⟨parsed, unnamed, noisy, fun wellTyped => noisy (decides.mpr wellTyped)⟩

/-- The two pointers have the same name, so the program is well typed. -/
theorem wellTyped_misleading : WellTyped Ty.SameName misleading := by
  have declared : (structsOf misleading "unknown").isSome = true := by decide
  have address : HasType Ty.SameName ⟨structsOf misleading, globalsOf misleading, [], none⟩
      (.unary ⟨1, 46⟩ .addressOf (.undefined ⟨1, 47⟩)) (.pointer false .unknown) :=
    .unary .undefined (.addressOf fun _ _ => nofun)
  have fits : Coerces Ty.SameName (.pointer false .unknown) (.pointer false (.struct "unknown")) :=
    .same rfl
  exact ⟨by decide, .struct ⟨fun _ => nofun, .nil⟩ (.var (.checked rfl rfl declared address fits)
    .nil)⟩

/-- With a struct called `unknown` a well-typed program can be rejected. -/
theorem unknown_struct_rejected :
    ¬ ∀ (source : String) (program : Program), Program.ofSource source = .ok program →
      (program.check = .ok [] ↔ WellTyped Ty.SameName program) := by
  intro decides
  have parsed : Program.ofSource "const unknown = struct {}; var p: *unknown = &undefined;" =
      .ok misleading := by
    decide +kernel
  have reported : misleading.check =
      .ok [⟨.typeMismatch (.pointer false (.struct "unknown")) (.pointer false .unknown),
        ⟨1, 46⟩⟩] := by
    decide +kernel
  have quiet := (decides _ _ parsed).mpr wellTyped_misleading
  rw [reported] at quiet
  cases quiet

end SystemsLang.Typing
