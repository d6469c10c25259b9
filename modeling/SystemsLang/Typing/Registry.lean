import SystemsLang.Typing.Fault
import SystemsLang.Typing.Ty

/-!
# The registry of structs

The structs of a program by name, each with its fields in order. A struct is defined once, without
fields, and gets its fields in a later step, so that fields may have the types of structs that are
declared further on.
-/

namespace SystemsLang.Typing

/-- Field names with their types, in order. -/
abbrev Fields := List (String × Ty)

/-- The structs that are defined, with their fields. -/
structure Registry where
  structs : List (String × Fields)
deriving Inhabited

namespace Registry

/-- The registry without any struct. -/
def empty : Registry := ⟨[]⟩

/-- The fields of a struct, if it is defined. -/
def get? (registry : Registry) (name : String) : Option Fields :=
  registry.structs.lookup name

/-- Whether a struct is defined. -/
def has (registry : Registry) (name : String) : Bool :=
  (registry.get? name).isSome

/-- Defines a struct without fields, unless there is one of that name. -/
def define? (registry : Registry) (name : String) : Option Registry :=
  if registry.has name then none else some ⟨(name, []) :: registry.structs⟩

/-- Gives a struct its fields. A struct that was never defined is a fault. -/
def setFields (registry : Registry) (name : String) (fields : Fields) : Except Fault Registry :=
  if registry.has name then .ok ⟨(name, fields) :: registry.structs⟩
  else .error .fieldsOfUndefinedStruct

/-- The type of a struct's field, the first if several have the name. -/
def fieldType? (registry : Registry) (name field : String) : Option Ty :=
  (registry.get? name).bind fun fields => fields.lookup field

end Registry

end SystemsLang.Typing
