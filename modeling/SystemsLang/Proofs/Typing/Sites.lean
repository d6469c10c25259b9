import SystemsLang.Syntax.Program
import SystemsLang.Typing.Diagnostic
import SystemsLang.Typing.Expr

/-!
# What stands where in a program

The text alone decides which names are visible at a place of a program, which of them must not be
assigned to, and how many loops are around it. A site is something that stands in a program together
with that: an expression, the declaration of a local name, a `break` or a `continue`. The sites of a
program are found by walking through it once, without types, and without a checker.

Some diagnostics depend on nothing else: names that nothing binds, assignments to what must not be
assigned to, names that are declared again, and what stands outside of a loop. They are listed here
as the sites of a program show them.
-/

namespace SystemsLang.Syntax

/-- A use of a name in an expression: its value is used, or it is assigned to. -/
inductive Use
  | value (position : Position) (name : String)
  | target (position : Position) (name : String)
deriving DecidableEq

namespace Expr

/-- How the left side of an assignment is used as a target, if it is a name. -/
def targetUses : Expr → List Use
  | ident position name => [.target position name]
  | _ => []

mutual

/-- The uses of names in an expression, in order. What is assigned to counts as a target and is
evaluated besides; the name `_` of an assignment that only discards a value is not used. -/
def uses : Expr → List Use
  | number .. | string .. | bool .. | null _ | undefined _ => []
  | ident position name => [.value position name]
  | binary _ _ left right => left.uses ++ right.uses
  | unary _ _ operand => operand.uses
  | call _ callee arguments => callee.uses ++ usesOfAll arguments
  | member _ object _ | deref _ object | unwrap _ object => object.uses
  | index _ object subscript => object.uses ++ subscript.uses
  | assign _ operator target value =>
    if Typing.isDiscard operator target then value.uses
    else target.targetUses ++ target.uses ++ value.uses
  | structLit _ _ fields => usesOfFields fields
  | arrayLit _ _ _ elements => usesOfAll elements

/-- The uses of names in several expressions. -/
def usesOfAll : List Expr → List Use
  | [] => []
  | first :: rest => first.uses ++ usesOfAll rest

/-- The uses of names in the values of several fields. -/
def usesOfFields : List (Ident × Expr) → List Use
  | [] => []
  | (_, value) :: rest => value.uses ++ usesOfFields rest

end

end Expr

/-- The names that are declared in one scope, in order, each with whether it must not be assigned
to. Of several declarations of a name the first counts. -/
abbrev Layer := List (String × Bool)

/-- Whether a name must not be assigned to, if one of the layers declares it. The innermost layer
that does decides; it comes first. -/
def boundIn (layers : List Layer) (name : String) : Option Bool :=
  layers.findSome? fun layer => layer.lookup name

/-- The layers with further names behind those of the innermost. -/
def extend (names : Layer) : List Layer → List Layer
  | [] => []
  | innermost :: outer => (innermost ++ names) :: outer

/-- What may stand at a site of a function, or be the initializer of a global variable. -/
inductive Item
  | value (value : Expr)
  | declared (name : Ident)
  | breaks (position : Position)
  | continues (position : Position)

/-- Something in a program, with the names that are declared before it in the scopes of the function
that are open there, and with the number of loops of the function whose bodies are around it. -/
structure Site where
  layers : List Layer
  loops : Nat
  item : Item

/-- The site of an expression. -/
def valueAt (layers : List Layer) (loops : Nat) (value : Expr) : Site :=
  ⟨layers, loops, .value value⟩

namespace Stmt

/-- The names that a statement declares in the scope in which it stands. The branch behind `else`
stands in the same scope as its `if`, unless it is a block, as it is in a source if it is not an
`if`. -/
def declares : Stmt → Layer
  | declare _ declared => [(declared.name.name, declared.isConst)]
  | branch _ _ _ (some otherwise) => otherwise.declares
  | _ => []

mutual

/-- The sites of a statement. The body of a loop is one loop deeper; a block, and the header of a
`for`, open a scope. -/
def sites (layers : List Layer) (loops : Nat) : Stmt → List Site
  | block _ body | comptime _ body => sitesOfAll ([] :: layers) loops body
  | returns _ value => value.toList.map (valueAt layers loops)
  | branch _ condition body otherwise =>
    valueAt layers loops condition :: sitesOfAll ([] :: layers) loops body ++
      sitesOfOption layers loops otherwise
  | whileLoop _ condition body =>
    valueAt layers loops condition :: sitesOfAll ([] :: layers) (loops + 1) body
  | forLoop _ init condition step body =>
    let header := extend (init.elim [] declares) ([] :: layers)
    sitesOfOption ([] :: layers) loops init ++
      (condition.toList ++ step.toList).map (valueAt header loops) ++
      sitesOfAll ([] :: header) (loops + 1) body
  | breakLoop position => [⟨layers, loops, .breaks position⟩]
  | continueLoop position => [⟨layers, loops, .continues position⟩]
  | expr _ value => [valueAt layers loops value]
  | declare _ declared =>
    declared.init.toList.map (valueAt layers loops) ++ [⟨layers, loops, .declared declared.name⟩]

/-- The sites of several statements, each behind the names that those before it declare. -/
def sitesOfAll (layers : List Layer) (loops : Nat) : List Stmt → List Site
  | [] => []
  | first :: rest =>
    first.sites layers loops ++ sitesOfAll (extend first.declares layers) loops rest

/-- The sites of a statement that may be absent. -/
def sitesOfOption (layers : List Layer) (loops : Nat) : Option Stmt → List Site
  | none => []
  | some inner => inner.sites layers loops

end

end Stmt

/-- The names of several parameters, which must not be assigned to. -/
def paramLayer (params : List Param) : Layer :=
  params.map fun param => (param.name.name, true)

/-- The sites of several parameters, each behind the names of those before it. -/
def paramSites (earlier : Layer) : List Param → List Site
  | [] => []
  | param :: rest =>
    ⟨[earlier], 0, .declared param.name⟩ :: paramSites (earlier ++ [(param.name.name, true)]) rest

namespace Decl

/-- Whether the name of a declaration must not be assigned to. -/
def isConst : Decl → Bool
  | var declared => declared.isConst
  | fn _ | struct _ => true

/-- The sites of a declaration. The parameters of a function and the outermost statements of its
body share a scope. -/
def sites : Decl → List Site
  | fn declared =>
    paramSites [] declared.params ++ Stmt.sitesOfAll [paramLayer declared.params] 0 declared.body
  | var declared => declared.init.toList.map (valueAt [] 0)
  | struct _ => []

end Decl

namespace Program

/-- The sites of a program. -/
def sites (program : Program) : List Site :=
  program.flatMap Decl.sites

/-- The global names of a program, which are visible everywhere. -/
def layer (program : Program) : Layer :=
  program.map fun declared => (declared.name.name, declared.isConst)

end Program

/-- The names that stand behind an equal one, or are among those given. -/
def repeated (earlier : List String) : List Ident → List Ident
  | [] => []
  | first :: rest =>
    if first.name ∈ earlier then first :: repeated earlier rest
    else repeated (earlier ++ [first.name]) rest

/-- The first struct of each name, apart from the names given. -/
def firstStructs (earlier : List String) : Program → List StructDecl
  | [] => []
  | .struct declared :: rest =>
    if declared.name.name ∈ earlier then firstStructs earlier rest
    else declared :: firstStructs (earlier ++ [declared.name.name]) rest
  | .fn _ :: rest | .var _ :: rest => firstStructs earlier rest

end SystemsLang.Syntax

namespace SystemsLang.Typing

open Syntax

/-- The kinds of diagnostics whose causes the text alone decides. -/
inductive LexicalKind
  | unbound | constTarget | redeclared | strayJump
deriving DecidableEq

/-- The kind of a cause. All causes that have none depend on types. -/
@[simp] def Diagnostic.Cause.lexicalKind? : Diagnostic.Cause → Option LexicalKind
  | undefinedVariable _ => some .unbound
  | assignToConst _ => some .constTarget
  | duplicateDeclaration _ => some .redeclared
  | breakOutsideLoop | continueOutsideLoop => some .strayJump
  | _ => none

/-- Whether a diagnostic is of some kind. -/
def Diagnostic.isOf (kind : LexicalKind) (diagnostic : Diagnostic) : Bool :=
  diagnostic.cause.lexicalKind? == some kind

/-- The name of a value that is used where nothing binds it. -/
def undefinedUse? (bound : String → Option Bool) : Use → Option Diagnostic
  | .value position name =>
    if bound name = none then some ⟨.undefinedVariable name, position⟩ else none
  | .target .. => none

/-- A name that is assigned to where it must not be. -/
def constUse? (bound : String → Option Bool) : Use → Option Diagnostic
  | .value .. => none
  | .target position name =>
    if bound name = some true then some ⟨.assignToConst name, position⟩ else none

/-- The declaration of a name that must be the first one. -/
def duplicateAt (name : Ident) : Diagnostic :=
  ⟨.duplicateDeclaration name.name, name.position⟩

end SystemsLang.Typing

namespace SystemsLang.Syntax.Site

open Typing

/-- The uses of names at a site. -/
def uses (site : Site) : List Use :=
  match site.item with
  | .value value => value.uses
  | _ => []

/-- What a name is bound to at a site: by the scopes that are open there, or globally. -/
def bound (globals : Layer) (site : Site) : String → Option Bool :=
  boundIn (site.layers ++ [globals])

/-- The declaration of a name that its own scope has declared before. -/
def redeclared? (site : Site) : Option Diagnostic :=
  match site.item with
  | .declared name =>
    if (site.layers.head?.bind fun layer => layer.lookup name.name).isSome then
      some (duplicateAt name)
    else none
  | _ => none

/-- A `break` or `continue` that has no loop around it. -/
def strayJump? (site : Site) : Option Diagnostic :=
  match site.item with
  | .breaks position => if site.loops = 0 then some ⟨.breakOutsideLoop, position⟩ else none
  | .continues position => if site.loops = 0 then some ⟨.continueOutsideLoop, position⟩ else none
  | _ => none

end SystemsLang.Syntax.Site

namespace SystemsLang.Syntax.Program

open Typing

/-- The names whose values a program uses where nothing binds them. -/
def undefinedUses (program : Program) : List Diagnostic :=
  program.sites.flatMap fun site => site.uses.filterMap (undefinedUse? (site.bound program.layer))

/-- The names that a program assigns to where they are bound to what must not be assigned to. -/
def constUses (program : Program) : List Diagnostic :=
  program.sites.flatMap fun site => site.uses.filterMap (constUse? (site.bound program.layer))

/-- The top-level names, of any kind, that a program declares again. -/
def repeatedNames (program : Program) : List Diagnostic :=
  (repeated [] (program.map Decl.name)).map duplicateAt

/-- The fields that repeat a name in the first struct of each name. -/
def repeatedFields (program : Program) : List Diagnostic :=
  (firstStructs [] program).flatMap fun declared =>
    (repeated [] (declared.fields.map Field.name)).map duplicateAt

/-- The names that a program declares again: top-level names, local names in their own scope, and
fields. -/
def redeclarations (program : Program) : List Diagnostic :=
  program.repeatedNames ++ program.sites.filterMap Site.redeclared? ++ program.repeatedFields

/-- The `break` and `continue` statements of a program that have no loop around them. -/
def strayJumps (program : Program) : List Diagnostic :=
  program.sites.filterMap Site.strayJump?

end SystemsLang.Syntax.Program
