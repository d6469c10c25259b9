import SystemsLang.Position
import SystemsLang.Typing.Fault
import SystemsLang.Typing.Ty

/-!
# Scopes

A stack of scopes above the global one. A name is looked up from the innermost scope outwards, and
what is declared goes into the innermost. Within one scope the latest entry of a name counts.
-/

namespace SystemsLang.Typing

/-- What a name stands for. -/
inductive Role
  | var | parameter | function | struct
deriving DecidableEq, Inhabited

/-- The name of a role in listings. -/
def Role.name : Role → String
  | var => "Variable"
  | parameter => "Parameter"
  | function => "Function"
  | struct => "Struct"

/-- What is known of a name. A symbol that is not yet declared was entered ahead of the
declaration that it belongs to. -/
structure Symbol where
  type : Ty
  role : Role
  isConst : Bool
  declared : Bool
  position : Position
deriving DecidableEq, Inhabited

/-- The names of one scope, the latest entry first. -/
abbrev Scope := List (String × Symbol)

/-- The scopes that are open, the innermost first, and the global scope. -/
structure Scopes where
  opened : List Scope
  global : Scope
deriving Inhabited

namespace Scopes

/-- The global scope alone, with no name in it. -/
def empty : Scopes := ⟨[], []⟩

/-- How many scopes are open above the global one. -/
def depth (scopes : Scopes) : Nat :=
  scopes.opened.length

/-- Opens a scope. -/
def push (scopes : Scopes) : Scopes :=
  { scopes with opened := [] :: scopes.opened }

/-- Closes the innermost scope. Closing the global scope is a fault. -/
def pop (scopes : Scopes) : Except Fault Scopes :=
  match scopes.opened with
  | [] => .error .globalScopePopped
  | _ :: outer => .ok { scopes with opened := outer }

/-- What the innermost scope holds for a name. -/
def local? (scopes : Scopes) (name : String) : Option Symbol :=
  match scopes.opened with
  | [] => scopes.global.lookup name
  | innermost :: _ => innermost.lookup name

/-- What a name stands for, from the innermost scope outwards. -/
def lookup? (scopes : Scopes) (name : String) : Option Symbol :=
  (scopes.opened ++ [scopes.global]).findSome? fun scope => scope.lookup name

/-- Enters a symbol into the innermost scope, in the place of any other of that name there. -/
def insert (scopes : Scopes) (name : String) (symbol : Symbol) : Scopes :=
  match scopes.opened with
  | [] => { scopes with global := (name, symbol) :: scopes.global }
  | innermost :: outer => { scopes with opened := ((name, symbol) :: innermost) :: outer }

/-- Marks the symbol that the innermost scope holds for a name as declared. -/
def markDeclared (scopes : Scopes) (name : String) : Scopes :=
  match scopes.local? name with
  | some symbol => scopes.insert name { symbol with declared := true }
  | none => scopes

end Scopes

end SystemsLang.Typing
