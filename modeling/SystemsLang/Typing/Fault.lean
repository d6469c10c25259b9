/-!
# Faults

Steps that are not reports about a program but would be mistakes of the checker itself: leaving a
scope that was never entered, and giving fields to a struct that was never defined.
-/

namespace SystemsLang.Typing

/-- A step that must never be taken. -/
inductive Fault
  | globalScopePopped
  | fieldsOfUndefinedStruct
deriving DecidableEq

/-- The message of a fault. -/
def Fault.message : Fault → String
  | globalScopePopped => "attempted to pop the global scope"
  | fieldsOfUndefinedStruct => "fields set on a struct that was never defined"

end SystemsLang.Typing
