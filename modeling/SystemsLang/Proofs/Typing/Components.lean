import SystemsLang.Syntax.Expr
import SystemsLang.Typing.Ty

/-!
# What stands inside types and expressions

Types and expressions are trees: each is made of components, which are types and expressions again.
`Within` says of any such trees that one stands somewhere inside another, at any depth. A type is
definite if the unknown type stands nowhere in it.
-/

namespace SystemsLang

/-- A part stands in a whole: it is the whole, or it stands in one of the whole's components. -/
inductive Within {α : Type} (components : α → List α) (part : α) : α → Prop
  | self : Within components part part
  | inner {component whole : α} (member : component ∈ components whole)
      (within : Within components part component) : Within components part whole

namespace Typing

namespace Ty

variable {type inner : Ty}

/-- The types that a type is directly made of. A function is made of its parameters and its
result. -/
def components : Ty → List Ty
  | void | unknown | null | primitive _ | struct _ => []
  | function params result => params ++ [result]
  | pointer _ inner | array _ inner | slice _ inner | optional inner | errorUnion inner => [inner]

/-- The unknown type stands nowhere in a type. -/
def Definite (type : Ty) : Prop :=
  ¬ Within components unknown type

/-- A definite type is not the unknown one. -/
theorem Definite.ne_unknown (definite : type.Definite) : type ≠ unknown := by
  rintro rfl
  exact definite .self

/-- What a definite type is made of is definite. -/
theorem Definite.component (definite : type.Definite) (member : inner ∈ type.components) :
    inner.Definite :=
  fun within => definite (.inner member within)

/-- A type other than the unknown one is definite if what it is made of is. -/
theorem Definite.of_components (known : type ≠ unknown)
    (below : ∀ component ∈ type.components, component.Definite) : type.Definite := by
  intro within
  cases within with
  | self => exact known rfl
  | inner member within => exact below _ member within

/-- A type that is made of no other is definite if it is not the unknown one. -/
theorem Definite.of_leaf (known : type ≠ unknown) (leaf : type.components = []) :
    type.Definite := by
  refine .of_components known fun component member => ?_
  rw [leaf] at member
  cases member

/-- A type that is made of one other is definite if that one is. -/
theorem Definite.of_inner (known : type ≠ unknown) (made : type.components = [inner])
    (definite : inner.Definite) : type.Definite := by
  refine .of_components known fun other member => ?_
  rw [made] at member
  exact List.mem_singleton.mp member ▸ definite

end Ty

end Typing

namespace Syntax.Expr

/-- The expressions that an expression is directly made of. -/
def components : Expr → List Expr
  | number .. | string .. | bool .. | null _ | undefined _ | ident .. => []
  | binary _ _ left right => [left, right]
  | unary _ _ operand => [operand]
  | call _ callee arguments => callee :: arguments
  | member _ object _ | deref _ object | unwrap _ object => [object]
  | index _ object subscript => [object, subscript]
  | assign _ _ target value => [target, value]
  | structLit _ _ fields => fields.map Prod.snd
  | arrayLit _ _ _ elements => elements

end Syntax.Expr

end SystemsLang
