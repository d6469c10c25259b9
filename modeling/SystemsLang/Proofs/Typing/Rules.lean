import SystemsLang.Syntax.Program
import SystemsLang.Typing.Registry

/-!
# The typing rules

What it means for a program to be well typed, said without a checker. The judgements are about
immutable environments: an environment holds the structs of the program, the bindings of the global
names and of every open scope, and what the enclosing function gives back. A statement is judged in
one environment and leaves another, which differs only in the innermost scope.

The unknown type stands for what has no type of its own yet, or never, and goes with everything.

Which types are the same is a parameter of the rules. By the definition of the language types are
the same if their names are equal (`Ty.SameName`), and this is what a well-typed program is judged
by. The checker compares how types are formed, so what it decides is judged by `Eq`.
-/

namespace SystemsLang.Typing

open Syntax

/-- The type that a type expression denotes if all its names are those of structs. -/
def denoted : TypeExpr → Ty
  | .primitive _ name => .ofPrimitive name
  | .named _ name => .struct name
  | .pointer _ isConst pointee => .pointer isConst (denoted pointee)
  | .array _ length element => .array length (denoted element)
  | .slice _ isConst element => .slice isConst (denoted element)
  | .optional _ inner => .optional (denoted inner)
  | .errorUnion _ inner => .errorUnion (denoted inner)

/-- The names in a type expression are those of structs. -/
def Known (structs : String → Option Fields) : TypeExpr → Prop
  | .primitive .. => True
  | .named _ name => (structs name).isSome = true
  | .pointer _ _ inner | .array _ _ inner | .slice _ _ inner | .optional _ inner
  | .errorUnion _ inner => Known structs inner

/-- Two types have the same canonical name. -/
def Ty.SameName (first second : Ty) : Prop :=
  first.text = second.text

variable (Same : Ty → Ty → Prop)

/-- A value of the first type may stand where the second is expected. -/
inductive Coerces : Ty → Ty → Prop
  | same {actual expected : Ty} (same : Same actual expected) : Coerces actual expected
  | fromUnknown (expected : Ty) : Coerces .unknown expected
  | toUnknown (actual : Ty) : Coerces actual .unknown
  | integer {name : String} (number : name ∈ Ty.integerNames ∨ name ∈ Ty.floatNames) :
    Coerces .comptimeInt (.primitive name)
  | float {name : String} (number : name ∈ Ty.floatNames) :
    Coerces .comptimeFloat (.primitive name)
  | null (inner : Ty) : Coerces .null (.optional inner)
  | optional {actual inner : Ty} (fits : Coerces actual inner) : Coerces actual (.optional inner)
  | errorUnion {actual inner : Ty} (fits : Coerces actual inner) :
    Coerces actual (.errorUnion inner)
  | pointer {isConst : Bool} {actual expected : Ty} (same : Same actual expected) :
    Coerces (.pointer isConst actual) (.pointer true expected)
  | slice {isConst : Bool} {actual expected : Ty} (same : Same actual expected) :
    Coerces (.slice isConst actual) (.slice true expected)

/-- Values of the type can be computed with. -/
def Numeric (type : Ty) : Prop :=
  type = .unknown ∨ ∃ name, type = .primitive name ∧ (name ∈ Ty.integerNames ∨ name ∈ Ty.floatNames)

/-- Values of the type can be conditions. -/
def Boolean (type : Ty) : Prop :=
  type = .unknown ∨ type = .bool

/-- Values of the type can be subscripts. -/
def Integral (type : Ty) : Prop :=
  type = .unknown ∨ ∃ name ∈ Ty.integerNames, type = .primitive name

/-- What a name is bound to: its type, and whether it must not be assigned to. -/
structure Binding where
  type : Ty
  isConst : Bool

/-- The bindings of one scope. -/
abbrev Frame := String → Option Binding

/-- A frame with one more binding. -/
def Frame.bind (frame : Frame) (name : String) (binding : Binding) : Frame :=
  fun other => if other = name then some binding else frame other

/-- What expressions and statements are judged in: the structs, the global names, the open scopes
from the innermost outwards, and the type that the enclosing function gives back, if there is an
enclosing function. -/
structure Env where
  structs : String → Option Fields
  globals : Frame
  frames : List Frame
  result : Option Ty

namespace Env

/-- What a name is bound to, from the innermost scope outwards. -/
def lookup (env : Env) (name : String) : Option Binding :=
  (env.frames ++ [env.globals]).findSome? fun frame => frame name

/-- The environment inside a new scope. -/
def inner (env : Env) : Env :=
  { env with frames := (fun _ => none) :: env.frames }

/-- A name is not yet bound in the innermost scope. -/
def Fresh (env : Env) (name : String) : Prop :=
  ∀ frame ∈ env.frames.head?, frame name = none

/-- The environment with one more binding in the innermost scope. -/
def bind (env : Env) (name : String) (binding : Binding) : Env :=
  match env.frames with
  | [] => { env with globals := env.globals.bind name binding }
  | frame :: outer => { env with frames := frame.bind name binding :: outer }

end Env

/-- The type of a binary operation on operands of two types. -/
inductive BinaryType (operator : BinaryOp) (left right : Ty) : Ty → Prop
  | arithmetic (arithmetic : operator.operatorClass = .arithmetic) (leftNumeric : Numeric left)
      (rightNumeric : Numeric right) : BinaryType operator left right left
  | comparison (comparison : operator.operatorClass = .comparison)
      (compatible : Coerces Same left right ∨ Coerces Same right left) :
    BinaryType operator left right .bool
  | logical (logical : operator.operatorClass = .logical) (leftBoolean : Boolean left)
      (rightBoolean : Boolean right) : BinaryType operator left right .bool

/-- A `try` may stand outside of functions and in those that give back an error union. -/
def MayAttempt (env : Env) : Prop :=
  ∀ result ∈ env.result, ∃ inner, result = .errorUnion inner

/-- The type of a prefix operation on an operand of a type. An address is read-only if it is that of
a name that must not be assigned to. -/
inductive UnaryType (env : Env) (operand : Expr) : UnaryOp → Ty → Ty → Prop
  | negate {type : Ty} (numeric : Numeric type) : UnaryType env operand .negate type type
  | not {type : Ty} (boolean : Boolean type) : UnaryType env operand .not type .bool
  | addressOfName {type : Ty} {position : Position} {name : String} {binding : Binding}
      (named : operand = .ident position name) (bound : env.lookup name = some binding) :
    UnaryType env operand .addressOf type (.pointer binding.isConst type)
  | addressOf {type : Ty} (unnamed : ∀ position name, operand ≠ .ident position name) :
    UnaryType env operand .addressOf type (.pointer false type)
  | attempt {inner : Ty} (allowed : MayAttempt env) :
    UnaryType env operand .attempt (.errorUnion inner) inner
  | attemptUnknown (allowed : MayAttempt env) : UnaryType env operand .attempt .unknown .unknown

/-- The type of a call of something of a type with arguments of the given types. -/
inductive CallType (types : List Ty) : Ty → Ty → Prop
  | function {params : List Ty} {result : Ty} (count : types.length = params.length)
      (fit : ∀ pair ∈ types.zip params, Coerces Same pair.1 pair.2) :
    CallType types (.function params result) result
  | unknown : CallType types .unknown .unknown

/-- What members are looked up in: a struct, or a struct behind a pointer. -/
inductive MembersOf : Ty → String → Prop
  | struct (name : String) : MembersOf (.struct name) name
  | pointer (isConst : Bool) (name : String) : MembersOf (.pointer isConst (.struct name)) name

/-- The types that have a length. -/
inductive HasLength : Ty → Prop
  | array (length : UInt64) (element : Ty) : HasLength (.array length element)
  | slice (isConst : Bool) (element : Ty) : HasLength (.slice isConst element)

/-- The type of a member of something of a type. -/
inductive MemberType (env : Env) (field : String) : Ty → Ty → Prop
  | field {type found : Ty} {struct : String} {fields : Fields} (looked : MembersOf type struct)
      (declared : env.structs struct = some fields) (present : fields.lookup field = some found) :
    MemberType env field type found
  | length {type : Ty} (counted : HasLength type) (named : field = "len") :
    MemberType env field type .size
  | unknown : MemberType env field .unknown .unknown

/-- What can be subscripted, and the type of what is found there. -/
inductive ElementType : Ty → Ty → Prop
  | array (length : UInt64) (element : Ty) : ElementType (.array length element) element
  | slice (isConst : Bool) (element : Ty) : ElementType (.slice isConst element) element
  | pointer (isConst : Bool) (length : UInt64) (element : Ty) :
    ElementType (.pointer isConst (.array length element)) element
  | unknown : ElementType .unknown .unknown

/-- What can be dereferenced, and the type of what is found there. -/
inductive PointeeType : Ty → Ty → Prop
  | pointer (isConst : Bool) (pointee : Ty) : PointeeType (.pointer isConst pointee) pointee
  | unknown : PointeeType .unknown .unknown

/-- What can be unwrapped, and the type of what is found there. -/
inductive UnwrappedType : Ty → Ty → Prop
  | optional (inner : Ty) : UnwrappedType (.optional inner) inner
  | unknown : UnwrappedType .unknown .unknown

/-- An assignment that only discards a value. -/
def Discards (operator : Option BinaryOp) (target : Expr) : Prop :=
  operator = none ∧ ∃ position, target = .ident position "_"

/-- What is assigned to is not a name that must not be assigned to. -/
def Writable (env : Env) (target : Expr) : Prop :=
  ∀ position name, target = .ident position name →
    ∀ binding ∈ env.lookup name, binding.isConst = false

/-- A value of the second type may be assigned to a place of the first. An operator asks for numbers
on both sides. -/
def Assignable (operator : Option BinaryOp) (expected actual : Ty) : Prop :=
  (operator.isSome = true → Numeric expected ∧ Numeric actual) ∧ Coerces Same actual expected

mutual

/-- An expression has a type in an environment. -/
inductive HasType (env : Env) : Expr → Ty → Prop
  | integer {position : Position} {text : String} (whole : '.' ∉ text.toList) :
    HasType env (.number position text) .comptimeInt
  | fraction {position : Position} {text : String} (point : '.' ∈ text.toList) :
    HasType env (.number position text) .comptimeFloat
  | string {position : Position} {value : String} : HasType env (.string position value) .string
  | bool {position : Position} {value : Bool} : HasType env (.bool position value) .bool
  | null {position : Position} : HasType env (.null position) .null
  | undefined {position : Position} : HasType env (.undefined position) .unknown
  | ident {position : Position} {name : String} {binding : Binding}
      (bound : env.lookup name = some binding) : HasType env (.ident position name) binding.type
  | binary {position : Position} {operator : BinaryOp} {left right : Expr}
      {leftType rightType type : Ty} (leftTyped : HasType env left leftType)
      (rightTyped : HasType env right rightType)
      (rule : BinaryType Same operator leftType rightType type) :
    HasType env (.binary position operator left right) type
  | unary {position : Position} {operator : UnaryOp} {operand : Expr} {operandType type : Ty}
      (typed : HasType env operand operandType)
      (rule : UnaryType env operand operator operandType type) :
    HasType env (.unary position operator operand) type
  | call {position : Position} {callee : Expr} {arguments : List Expr} {calleeType type : Ty}
      {types : List Ty} (typed : HasType env callee calleeType)
      (given : HasTypes env arguments types) (rule : CallType Same types calleeType type) :
    HasType env (.call position callee arguments) type
  | member {position : Position} {object : Expr} {field : Ident} {objectType type : Ty}
      (typed : HasType env object objectType) (rule : MemberType env field.name objectType type) :
    HasType env (.member position object field) type
  | index {position : Position} {object subscript : Expr} {objectType subscriptType type : Ty}
      (typed : HasType env object objectType) (subscripted : HasType env subscript subscriptType)
      (integral : Integral subscriptType) (rule : ElementType objectType type) :
    HasType env (.index position object subscript) type
  | deref {position : Position} {object : Expr} {objectType type : Ty}
      (typed : HasType env object objectType) (rule : PointeeType objectType type) :
    HasType env (.deref position object) type
  | unwrap {position : Position} {object : Expr} {objectType type : Ty}
      (typed : HasType env object objectType) (rule : UnwrappedType objectType type) :
    HasType env (.unwrap position object) type
  | discard {position : Position} {operator : Option BinaryOp} {target value : Expr} {type : Ty}
      (discards : Discards operator target) (typed : HasType env value type) :
    HasType env (.assign position operator target value) .unknown
  | assign {position : Position} {operator : Option BinaryOp} {target value : Expr}
      {expected actual : Ty} (keeps : ¬ Discards operator target) (writable : Writable env target)
      (targetTyped : HasType env target expected) (typed : HasType env value actual)
      (fits : Assignable Same operator expected actual) :
    HasType env (.assign position operator target value) expected
  | structLit {position : Position} {name : Ident} {values : List (Ident × Expr)}
      {fields : Fields} {types : List Ty} (declared : env.structs name.name = some fields)
      (given : HasTypes env (values.map Prod.snd) types)
      (fit : ∀ pair ∈ (values.map Prod.fst).zip types, ∃ expected,
        fields.lookup pair.1.name = some expected ∧ Coerces Same pair.2 expected)
      (complete : ∀ field ∈ fields, ∃ name ∈ values.map Prod.fst, name.name = field.1) :
    HasType env (.structLit position name values) (.struct name.name)
  | arrayLit {position : Position} {length : Option UInt64} {elementType : TypeExpr}
      {elements : List Expr} {types : List Ty} (known : Known env.structs elementType)
      (given : HasTypes env elements types)
      (fit : ∀ type ∈ types, Coerces Same type (denoted elementType))
      (counted : ∀ stated ∈ length, stated = UInt64.ofNat elements.length) :
    HasType env (.arrayLit position length elementType elements)
      (.array (UInt64.ofNat elements.length) (denoted elementType))

/-- Several expressions have types, each its own. -/
inductive HasTypes (env : Env) : List Expr → List Ty → Prop
  | nil : HasTypes env [] []
  | cons {first : Expr} {rest : List Expr} {type : Ty} {types : List Ty}
      (head : HasType env first type) (tail : HasTypes env rest types) :
    HasTypes env (first :: rest) (type :: types)

end

/-- A variable has a type: the one it is annotated with, or that of its initializer. -/
inductive VarType (env : Env) (declared : VarDecl) : Ty → Prop
  | stated {type : TypeExpr} (annotated : declared.type = some type) (absent : declared.init = none)
      (known : Known env.structs type) : VarType env declared (denoted type)
  | checked {type : TypeExpr} {value : Expr} {actual : Ty}
      (annotated : declared.type = some type) (given : declared.init = some value)
      (known : Known env.structs type) (typed : HasType Same env value actual)
      (fits : Coerces Same actual (denoted type)) : VarType env declared (denoted type)
  | inferred {value : Expr} {actual : Ty} (bare : declared.type = none)
      (given : declared.init = some value) (typed : HasType Same env value actual) :
    VarType env declared actual

/-- An expression may be a condition. -/
def Condition (env : Env) (value : Expr) : Prop :=
  ∃ type, HasType Same env value type ∧ Boolean type

/-- A function with a result of the type has to give back a value. -/
def NeedsValue (result : Ty) : Prop :=
  result ≠ .void ∧ result ≠ .errorUnion .void ∧ result ≠ .primitive "noreturn"

/-- A statement surely returns. A loop does not count. -/
inductive Returns : Stmt → Prop
  | returns {position : Position} {value : Option Expr} : Returns (.returns position value)
  | block {position : Position} {body : Block} {inner : Stmt} (member : inner ∈ body)
      (surely : Returns inner) : Returns (.block position body)
  | comptime {position : Position} {body : Block} {inner : Stmt} (member : inner ∈ body)
      (surely : Returns inner) : Returns (.comptime position body)
  | branch {position : Position} {condition : Expr} {body : Block} {inner otherwise : Stmt}
      (member : inner ∈ body) (surely : Returns inner) (other : Returns otherwise) :
    Returns (.branch position condition body (some otherwise))

mutual

/-- A statement is in order in an environment, inside a loop or not, and leaves an environment. -/
inductive StmtOk : Bool → Env → Stmt → Env → Prop
  | block {inLoop : Bool} {env after : Env} {position : Position} {body : Block}
      (inner : StmtsOk inLoop env.inner body after) : StmtOk inLoop env (.block position body) env
  | comptime {inLoop : Bool} {env after : Env} {position : Position} {body : Block}
      (inner : StmtsOk inLoop env.inner body after) :
    StmtOk inLoop env (.comptime position body) env
  | returnNothing {inLoop : Bool} {env : Env} {position : Position} {result : Ty}
      (inside : env.result = some result) (needless : ¬ NeedsValue result) :
    StmtOk inLoop env (.returns position none) env
  | returnValue {inLoop : Bool} {env : Env} {position : Position} {value : Expr}
      {result actual : Ty} (inside : env.result = some result) (valued : result ≠ .void)
      (typed : HasType Same env value actual) (fits : Coerces Same actual result) :
    StmtOk inLoop env (.returns position (some value)) env
  | branch {inLoop : Bool} {env inner after : Env} {position : Position} {condition : Expr}
      {body : Block} {otherwise : Option Stmt} (tested : Condition Same env condition)
      (taken : StmtsOk inLoop env.inner body inner)
      (last : StmtsOk inLoop env otherwise.toList after) :
    StmtOk inLoop env (.branch position condition body otherwise) after
  | whileLoop {inLoop : Bool} {env after : Env} {position : Position} {condition : Expr}
      {body : Block} (tested : Condition Same env condition)
      (inner : StmtsOk true env.inner body after) :
    StmtOk inLoop env (.whileLoop position condition body) env
  | forLoop {inLoop : Bool} {env header after : Env} {position : Position} {init : Option Stmt}
      {condition step : Option Expr} {body : Block}
      (starts : StmtsOk inLoop env.inner init.toList header)
      (tested : ∀ test ∈ condition, Condition Same header test)
      (stepped : ∀ update ∈ step, ∃ type, HasType Same header update type)
      (inner : StmtsOk true header.inner body after) :
    StmtOk inLoop env (.forLoop position init condition step body) env
  | breakLoop {env : Env} {position : Position} : StmtOk true env (.breakLoop position) env
  | continueLoop {env : Env} {position : Position} : StmtOk true env (.continueLoop position) env
  | expr {inLoop : Bool} {env : Env} {position : Position} {value : Expr} {type : Ty}
      (typed : HasType Same env value type) : StmtOk inLoop env (.expr position value) env
  | declare {inLoop : Bool} {env : Env} {position : Position} {declared : VarDecl} {type : Ty}
      (typed : VarType Same env declared type) (fresh : env.Fresh declared.name.name) :
    StmtOk inLoop env (.declare position declared)
      (env.bind declared.name.name ⟨type, declared.isConst⟩)

/-- Statements are in order one after the other. -/
inductive StmtsOk : Bool → Env → List Stmt → Env → Prop
  | nil {inLoop : Bool} {env : Env} : StmtsOk inLoop env [] env
  | cons {inLoop : Bool} {env between after : Env} {first : Stmt} {rest : List Stmt}
      (head : StmtOk inLoop env first between) (tail : StmtsOk inLoop between rest after) :
    StmtsOk inLoop env (first :: rest) after

end

/-- The bindings of the parameters of a function, which are not to be assigned to. -/
def paramFrame (params : List Param) : Frame :=
  fun name => (params.find? fun param => param.name.name = name).map fun param =>
    ⟨denoted param.type, true⟩

/-- A function is in order. Its parameters and the outermost statements of its body share a scope,
and it surely returns if it has to give back a value. -/
structure FnOk (structs : String → Option Fields) (globals : Frame) (declared : FnDecl) :
    Prop where
  params : ∀ param ∈ declared.params, Known structs param.type
  result : Known structs declared.returnType
  distinct : (declared.params.map fun param => param.name.name).Nodup
  body : ∃ after, StmtsOk Same false ⟨structs, globals, [paramFrame declared.params],
    some (denoted declared.returnType)⟩ declared.body after
  returns : NeedsValue (denoted declared.returnType) →
    ∃ statement ∈ declared.body, Returns statement

/-- The fields of a struct have types, and no name twice. -/
structure StructOk (structs : String → Option Fields) (declared : StructDecl) : Prop where
  fields : ∀ field ∈ declared.fields, Known structs field.type
  distinct : (declared.fields.map fun field => field.name.name).Nodup

/-- Declarations are in order one after the other. Behind a variable its name has the type of the
variable. -/
inductive DeclsOk (structs : String → Option Fields) : Frame → Program → Prop
  | nil {globals : Frame} : DeclsOk structs globals []
  | fn {globals : Frame} {declared : FnDecl} {rest : Program}
      (head : FnOk Same structs globals declared) (tail : DeclsOk structs globals rest) :
    DeclsOk structs globals (.fn declared :: rest)
  | var {globals : Frame} {declared : VarDecl} {type : Ty} {rest : Program}
      (typed : VarType Same ⟨structs, globals, [], none⟩ declared type)
      (tail : DeclsOk structs (globals.bind declared.name.name ⟨type, declared.isConst⟩) rest) :
    DeclsOk structs globals (.var declared :: rest)
  | struct {globals : Frame} {declared : StructDecl} {rest : Program}
      (head : StructOk structs declared) (tail : DeclsOk structs globals rest) :
    DeclsOk structs globals (.struct declared :: rest)

/-- The struct that a declaration of the given name declares. -/
def structOf? (name : String) : Decl → Option StructDecl
  | .struct declared => if declared.name.name = name then some declared else none
  | _ => none

/-- The fields that a struct is declared with. -/
def declaredFields (declared : StructDecl) : Fields :=
  declared.fields.map fun field => (field.name.name, denoted field.type)

/-- The structs of a program with the fields they are declared with. -/
def structsOf (program : Program) : String → Option Fields := fun name =>
  (program.findSome? (structOf? name)).map declaredFields

/-- What a declaration binds its name to, wherever the name is used. A variable without annotation
has no type of its own there. -/
def bindingOf : Decl → Binding
  | .fn declared =>
    ⟨.function (declared.params.map fun param => denoted param.type) (denoted declared.returnType),
      true⟩
  | .var declared => ⟨(declared.type.map denoted).getD .unknown, declared.isConst⟩
  | .struct declared => ⟨.struct declared.name.name, true⟩

/-- What the global names of a program are bound to before any variable is judged. -/
def globalsOf (program : Program) : Frame := fun name =>
  (program.find? fun declared => declared.name.name = name).map bindingOf

/-- A program is well typed: no two declarations have the same name, and the declarations are in
order one after the other. -/
structure WellTyped (program : Program) : Prop where
  distinct : (program.map fun declared => declared.name.name).Nodup
  decls : DeclsOk Same (structsOf program) (globalsOf program) program

end SystemsLang.Typing
