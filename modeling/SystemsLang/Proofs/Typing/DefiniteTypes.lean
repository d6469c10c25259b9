import SystemsLang.Proofs.Typing.Components
import SystemsLang.Proofs.Typing.TypedExpr

/-!
# Where unknown types come from

The unknown type goes with everything, so it must not come up for nothing. In a context whose types
are all resolved the checker finds it for three reasons only: an expression says so itself, being an
`undefined` or a discard, or a diagnostic has been raised. This holds of the unknown type at any
depth: what is found is definite (`definite_or_reported`).

An expression that raises no diagnostic has a type by the rules, so it is enough to go through
these. A rule takes its type from an operand, from the environment or from a written type.
-/

namespace SystemsLang

open Syntax

/-- The expressions that have the unknown type because they say so: `undefined`, and an assignment
that only discards a value. -/
inductive Syntax.Expr.Untyped : Expr → Prop
  | undefined (position : Position) : Untyped (.undefined position)
  | discard {position : Position} {operator : Option BinaryOp} {target value : Expr}
      (discards : Typing.Discards operator target) :
    Untyped (.assign position operator target value)

/-- No expression inside the given one has the unknown type because it says so. -/
def Syntax.Expr.Typed (whole : Expr) : Prop :=
  ∀ part, Within Expr.components part whole → ¬ part.Untyped

namespace Syntax.Expr.Typed

variable {whole part : Expr}

/-- The components of such an expression are such expressions. -/
theorem component (typed : whole.Typed) (member : part ∈ whole.components) : part.Typed :=
  fun inner within => typed inner (.inner member within)

/-- Such an expression is itself not one that says so. -/
theorem not_untyped (typed : whole.Typed) : ¬ whole.Untyped :=
  typed whole .self

/-- An expression is such an expression if it does not say so and its components are. -/
theorem of_components (own : ¬ whole.Untyped) (below : ∀ part ∈ whole.components, part.Typed) :
    whole.Typed := by
  intro inner within
  cases within with
  | self => exact own
  | inner member within => exact below _ member inner within

end Syntax.Expr.Typed

namespace Typing

/-- The unknown type stands nowhere in a type, and the structs in it are those of the registry. -/
structure Ty.Resolved (registry : Registry) (type : Ty) : Prop where
  definite : type.Definite
  defined : ∀ name, Within Ty.components (.struct name) type → registry.has name = true

/-- All types that a context knows are resolved: those of the symbols in the open scopes, of the
fields of structs, and of what the enclosing function gives back. -/
structure Context.Resolved (context : Context) : Prop where
  symbols : ∀ scope ∈ context.scopes.opened ++ [context.scopes.global],
    ∀ name symbol, scope.lookup name = some symbol → symbol.type.Resolved context.registry
  fields : ∀ struct fields, context.registry.get? struct = some fields →
    ∀ field ∈ fields, field.2.Resolved context.registry
  result : ∀ enclosing ∈ context.enclosing, enclosing.result.Resolved context.registry

variable {registry : Registry} {context : Context} {type : Ty}

/-- What a resolved type is made of is resolved. -/
theorem Ty.Resolved.component {component : Ty} (resolved : type.Resolved registry)
    (member : component ∈ type.components) : component.Resolved registry :=
  ⟨resolved.definite.component member,
    fun name within => resolved.defined name (.inner member within)⟩

/-- A type is resolved if what it is made of is, and it is neither the unknown type nor a struct
that is not in the registry. -/
theorem Ty.Resolved.of_components (known : type ≠ .unknown)
    (struct : ∀ name, type = .struct name → registry.has name = true)
    (below : ∀ component ∈ type.components, component.Resolved registry) :
    type.Resolved registry := by
  refine ⟨.of_components known fun component member => (below component member).definite, ?_⟩
  intro name within
  cases within with
  | self => exact struct name rfl
  | inner member within => exact (below _ member).defined name within

/-- A type that is made of no other and is no struct is resolved if it is not the unknown one. -/
theorem Ty.Resolved.of_leaf (known : type ≠ .unknown) (notStruct : ∀ name, type ≠ .struct name)
    (made : type.components = []) : type.Resolved registry :=
  .of_components known (fun name same => absurd same (notStruct name)) (by simp [made])

/-- A type that is made of one other is resolved if that one is. -/
theorem Ty.Resolved.of_inner {component : Ty} (known : type ≠ .unknown)
    (notStruct : ∀ name, type ≠ .struct name) (made : type.components = [component])
    (resolved : component.Resolved registry) : type.Resolved registry :=
  .of_components known (fun name same => absurd same (notStruct name)) (by simpa [made])

/-- The structs that values of a resolved type lead to are there. -/
theorem Ty.Resolved.closed : (type : Ty) → type.Resolved registry → Closed registry.get? type
  | .void, _ | .unknown, _ | .null, _ | .primitive _, _ => trivial
  | .struct name, resolved => resolved.defined name .self
  | .function _ result, resolved =>
    Ty.Resolved.closed result (resolved.component (List.mem_append_right _ List.mem_cons_self))
  | .pointer _ inner, resolved | .array _ inner, resolved | .slice _ inner, resolved
  | .optional inner, resolved | .errorUnion inner, resolved =>
    Ty.Resolved.closed inner (resolved.component List.mem_cons_self)

/-- What a name is bound to in the frames of scopes is what one of the scopes holds for it. -/
theorem Context.Resolved.binds (resolved : context.Resolved) :
    context.env.Binds (Ty.Resolved context.registry) := by
  intro frame member name binding bound
  have ofScope {scope : Scope} (there : scope ∈ context.scopes.opened ++ [context.scopes.global])
      (found : frameOf scope name = some binding) : binding.type.Resolved context.registry := by
    obtain ⟨symbol, isSymbol, rfl⟩ := Option.map_eq_some_iff.mp found
    exact resolved.symbols scope there name symbol isSymbol
  rcases List.mem_cons.mp member with rfl | opened
  · exact ofScope (List.mem_append_right _ List.mem_cons_self) bound
  · obtain ⟨scope, there, rfl⟩ := List.mem_map.mp opened
    exact ofScope (List.mem_append_left _ there) bound

/-- In a resolved context the checker decides the rules. -/
theorem Context.Resolved.sound (resolved : context.Resolved) : context.Sound where
  env :=
    { fields := fun struct fields declared field member =>
        Ty.Resolved.closed field.2 (resolved.fields struct fields declared field member)
      bindings := fun frame member name binding bound =>
        Ty.Resolved.closed binding.type (resolved.binds frame member name binding bound) }
  known := fun enclosing isEnclosing => (resolved.result enclosing isEnclosing).definite.ne_unknown

/-- What a written type denotes is definite. -/
theorem definite_denoted (type : TypeExpr) : (denoted type).Definite := by
  induction type with
  | primitive position name =>
    unfold denoted Ty.ofPrimitive
    split
    · exact .of_leaf (by simp) rfl
    · exact .of_leaf (by simp) rfl
  | named position name => exact .of_leaf (by simp [denoted]) rfl
  | pointer _ _ _ inductionHypothesis | array _ _ _ inductionHypothesis
  | slice _ _ _ inductionHypothesis | optional _ _ inductionHypothesis
  | errorUnion _ _ inductionHypothesis =>
    exact .of_inner (by simp [denoted]) rfl inductionHypothesis

/-- A primitive type is definite. -/
theorem definite_primitive (name : String) : (Ty.primitive name).Definite :=
  .of_leaf (by simp) rfl

/-- In a resolved context an expression has a definite type unless part of it says otherwise.

Proof: by induction on the expression, with a case for each rule. Types of names come from the
context, those of members from the fields there; the other rules give back a type that stands in the
type of an operand, so that the unknown type would stand in that one too. -/
theorem definite_of_hasType (resolved : context.Resolved) (expression : Expr)
    {type : Ty} (allTyped : expression.Typed) (typed : HasType Eq context.env expression type) :
    type.Definite := by
  cases typed with
  | integer | fraction | bool => exact definite_primitive _
  | string => exact .of_inner (by simp [Ty.string]) rfl (definite_primitive _)
  | null => exact .of_leaf (by simp) rfl
  | @undefined position => exact absurd (.undefined position) allTyped.not_untyped
  | ident bound => exact (resolved.binds.lookup bound).definite
  | @binary _ _ left _ _ _ _ leftTyped _ rule =>
    cases rule with
    | arithmetic =>
      exact definite_of_hasType resolved left (allTyped.component List.mem_cons_self) leftTyped
    | comparison | logical => exact definite_primitive _
  | @unary _ _ operand _ _ typed rule =>
    have inner := definite_of_hasType resolved operand (allTyped.component List.mem_cons_self) typed
    cases rule with
    | negate => exact inner
    | not => exact definite_primitive _
    | addressOfName | addressOf => exact .of_inner (by simp) rfl inner
    | attempt => exact inner.component List.mem_cons_self
    | attemptUnknown => exact absurd rfl inner.ne_unknown
  | @call _ callee _ _ _ _ typed _ rule =>
    have inner := definite_of_hasType resolved callee (allTyped.component List.mem_cons_self) typed
    cases rule with
    | function => exact inner.component (List.mem_append_right _ List.mem_cons_self)
    | unknown => exact absurd rfl inner.ne_unknown
  | @member _ object _ _ _ typed rule =>
    have inner := definite_of_hasType resolved object (allTyped.component List.mem_cons_self) typed
    cases rule with
    | field looked declared present =>
      exact (resolved.fields _ _ declared _ (mem_of_lookup present)).definite
    | length => exact definite_primitive _
    | unknown => exact absurd rfl inner.ne_unknown
  | @index _ object _ _ _ _ typed _ _ rule =>
    have inner := definite_of_hasType resolved object (allTyped.component List.mem_cons_self) typed
    cases rule with
    | array | slice => exact inner.component List.mem_cons_self
    | pointer => exact (inner.component List.mem_cons_self).component List.mem_cons_self
    | unknown => exact absurd rfl inner.ne_unknown
  | @deref _ object _ _ typed rule =>
    have inner := definite_of_hasType resolved object (allTyped.component List.mem_cons_self) typed
    cases rule with
    | pointer => exact inner.component List.mem_cons_self
    | unknown => exact absurd rfl inner.ne_unknown
  | @unwrap _ object _ _ typed rule =>
    have inner := definite_of_hasType resolved object (allTyped.component List.mem_cons_self) typed
    cases rule with
    | optional => exact inner.component List.mem_cons_self
    | unknown => exact absurd rfl inner.ne_unknown
  | discard discards => exact absurd (.discard discards) allTyped.not_untyped
  | @assign _ _ target _ _ _ _ _ targetTyped =>
    exact definite_of_hasType resolved target (allTyped.component List.mem_cons_self) targetTyped
  | structLit => exact .of_leaf (by simp) rfl
  | arrayLit => exact .of_inner (by simp) rfl (definite_denoted _)

/-- If every type that a context knows is resolved, then an expression in which neither `undefined`
nor a discard stands raises a diagnostic, or it is found to have a type in which the unknown type
stands nowhere. -/
theorem definite_or_reported (resolved : context.Resolved) (expression : Expr)
    (allTyped : expression.Typed) :
    (exprType context expression).reports ≠ [] ∨ (exprType context expression).value.Definite := by
  by_cases quiet : (exprType context expression).reports = []
  · have typed := hasType_of_finds resolved.sound expression ⟨quiet, rfl⟩
    exact .inr (definite_of_hasType resolved expression allTyped typed)
  · exact .inl quiet

/-- A function that looks through a list whose nodes point to one another: it knows the node it
starts at, and another function that gives back a node or an error. -/
def nodeContext : Context where
  registry := ⟨[("Node", [("value", .primitive "i32"),
    ("next", .optional (.pointer false (.struct "Node")))])]⟩
  scopes :=
    { opened := [[("start", ⟨.pointer true (.struct "Node"), .parameter, true, true, .start⟩)]]
      global := [("find",
        ⟨.function [.pointer true (.struct "Node")] (.errorUnion (.struct "Node")), .function, true,
          true, .start⟩)] }
  enclosing := some ⟨"sum", .errorUnion .void⟩

/-- The value in the node behind the one that is found, `(try find(start)).next.?.value`. -/
def valueBehind : Expr :=
  .member .start (.unwrap .start (.member .start (.unary .start .attempt
    (.call .start (.ident .start "find") [.ident .start "start"])) ⟨"next", .start⟩))
    ⟨"value", .start⟩

/-- The value in a node has a definite type, or something has been reported. -/
theorem definite_or_reported_node :
    nodeContext.Resolved ∧ valueBehind.Typed ∧
      ((exprType nodeContext valueBehind).reports ≠ [] ∨
        (exprType nodeContext valueBehind).value.Definite) := by
  let registry := nodeContext.registry
  have node : (Ty.struct "Node").Resolved registry := by
    refine .of_components (by simp) ?_ (by simp [Ty.components])
    rintro name ⟨⟩
    decide
  have pointer (isConst : Bool) : (Ty.pointer isConst (.struct "Node")).Resolved registry :=
    .of_inner (by simp) (by simp) rfl node
  have resolved : nodeContext.Resolved := by
    constructor
    · intro scope member name symbol found
      have there := mem_of_lookup found
      simp only [nodeContext, List.cons_append, List.nil_append, List.mem_cons,
        List.not_mem_nil, or_false] at member
      rcases member with rfl | rfl
      · obtain ⟨-, rfl⟩ := Prod.mk.inj (List.mem_singleton.mp there)
        exact pointer true
      · obtain ⟨-, rfl⟩ := Prod.mk.inj (List.mem_singleton.mp there)
        refine .of_components (by simp) (by simp) ?_
        have result : (Ty.errorUnion (.struct "Node")).Resolved registry :=
          .of_inner (by simp) (by simp) rfl node
        simpa [Ty.components] using ⟨pointer true, result⟩
    · intro struct fields declared field member
      have there := mem_of_lookup declared
      obtain ⟨-, rfl⟩ := Prod.mk.inj (List.mem_singleton.mp there)
      simp only [List.mem_cons, List.not_mem_nil, or_false] at member
      rcases member with rfl | rfl
      · exact .of_leaf (by simp) (by simp) rfl
      · exact .of_inner (by simp) (by simp) rfl (pointer false)
    · rintro enclosing ⟨⟩
      exact .of_inner (by simp) (by simp) rfl (.of_leaf (by simp) (by simp) rfl)
  -- No part of the expression is `undefined` or a discard.
  have name (text : String) : (Expr.ident .start text).Typed :=
    .of_components (by rintro ⟨⟩) (by simp [Expr.components])
  have call : (Expr.call .start (.ident .start "find") [.ident .start "start"]).Typed :=
    .of_components (by rintro ⟨⟩) (by simpa [Expr.components] using ⟨name "find", name "start"⟩)
  have allTyped : valueBehind.Typed := by
    refine .of_components (by rintro ⟨⟩) (List.forall_mem_singleton.mpr ?_)
    refine .of_components (by rintro ⟨⟩) (List.forall_mem_singleton.mpr ?_)
    refine .of_components (by rintro ⟨⟩) (List.forall_mem_singleton.mpr ?_)
    exact .of_components (by rintro ⟨⟩) (List.forall_mem_singleton.mpr call)
  exact ⟨resolved, allTyped, definite_or_reported resolved valueBehind allTyped⟩

/-- Nothing is reported there, and the value is an integer. -/
example : exprType nodeContext valueBehind = ⟨.primitive "i32", []⟩ := by
  rfl

end Typing

end SystemsLang
