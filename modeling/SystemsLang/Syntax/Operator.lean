/-!
# Operators

The binary and prefix operators with their spellings and binding powers. A binary operator has a
left and a right power. Looking for the right operand with the right power, which is the larger of
the two, makes every binary operator associate to the left; assignment has the larger power on its
left and associates to the right. Prefix operators bind tighter than every binary one and the
operators written behind an operand bind tightest.
-/

namespace SystemsLang.Syntax

/-- The operators between two operands. -/
inductive BinaryOp
  | add | sub | mul | div | rem | equal | notEqual | less | greater | lessEqual | greaterEqual
  | and | or
deriving DecidableEq, Inhabited

/-- The operators before an operand. -/
inductive UnaryOp
  | negate | not | addressOf | attempt
deriving DecidableEq, Inhabited

/-- The classes of binary operators, by the operands they take. -/
inductive OperatorClass
  | arithmetic | comparison | logical
deriving DecidableEq

/-- The name of a class in listings. -/
def OperatorClass.name : OperatorClass → String
  | arithmetic => "Arithmetic"
  | comparison => "Comparison"
  | logical => "Logical"

/-- How tightly an operator holds the operand on its left and the one on its right. -/
structure Power where
  left : Nat
  right : Nat
deriving DecidableEq

namespace BinaryOp

/-- Every binary operator, in the order of the type. -/
def all : List BinaryOp :=
  [add, sub, mul, div, rem, equal, notEqual, less, greater, lessEqual, greaterEqual, and, or]

/-- The name of an operator in outlines. -/
def name : BinaryOp → String
  | add => "Add"
  | sub => "Sub"
  | mul => "Mul"
  | div => "Div"
  | rem => "Rem"
  | equal => "Eq"
  | notEqual => "Neq"
  | less => "Lt"
  | greater => "Gt"
  | lessEqual => "Le"
  | greaterEqual => "Ge"
  | and => "And"
  | or => "Or"

/-- The spelling of an operator. -/
def symbol : BinaryOp → String
  | add => "+"
  | sub => "-"
  | mul => "*"
  | div => "/"
  | rem => "%"
  | equal => "=="
  | notEqual => "!="
  | less => "<"
  | greater => ">"
  | lessEqual => "<="
  | greaterEqual => ">="
  | and => "&&"
  | or => "||"

/-- The class of an operator. -/
def operatorClass : BinaryOp → OperatorClass
  | add | sub | mul | div | rem => .arithmetic
  | equal | notEqual | less | greater | lessEqual | greaterEqual => .comparison
  | and | or => .logical

/-- The binding powers of an operator. -/
def power : BinaryOp → Power
  | or => ⟨3, 4⟩
  | and => ⟨5, 6⟩
  | equal | notEqual => ⟨7, 8⟩
  | less | greater | lessEqual | greaterEqual => ⟨9, 10⟩
  | add | sub => ⟨11, 12⟩
  | mul | div | rem => ⟨13, 14⟩

end BinaryOp

namespace UnaryOp

/-- Every prefix operator, in the order of the type. -/
def all : List UnaryOp := [negate, not, addressOf, attempt]

/-- The name of an operator in outlines. -/
def name : UnaryOp → String
  | negate => "Neg"
  | not => "Not"
  | addressOf => "AddrOf"
  | attempt => "Try"

/-- The spelling of an operator. The one that is a word brings the blank behind it. -/
def symbol : UnaryOp → String
  | negate => "-"
  | not => "!"
  | addressOf => "&"
  | attempt => "try "

/-- How tightly a prefix operator holds its operand. -/
def power : Nat := 15

end UnaryOp

/-- The binding powers of assignment, which is the loosest and associates to the right. -/
def assignPower : Power := ⟨2, 1⟩

/-- The binding power of the operators written behind an operand. -/
def postfixPower : Nat := 17

end SystemsLang.Syntax
