/-!
# Operators

The operators of expressions and of assignments, and the names of the types of values, as error messages
spell them.
-/

namespace RowConsole.Script

/-- Operators on two values, except the two that may skip their right side. -/
inductive BinaryOp where
  | add | sub | mul | div | rem
  | eq | ne | lt | le | gt | ge
  deriving DecidableEq, Repr

/-- The spelling of an operator. -/
def BinaryOp.word : BinaryOp → String
  | .add => "+"
  | .sub => "-"
  | .mul => "*"
  | .div => "/"
  | .rem => "%"
  | .eq => "=="
  | .ne => "!="
  | .lt => "<"
  | .le => "<="
  | .gt => ">"
  | .ge => ">="

/-- Operators on one value: negation of a number and of a truth value. -/
inductive UnaryOp where
  | neg | not
  deriving DecidableEq, Repr

/-- The spelling of an operator. -/
def UnaryOp.word : UnaryOp → String
  | .neg => "-"
  | .not => "!"

/-- What an assignment does with the old value of its target. -/
inductive AssignOp where
  | set | add | sub
  deriving DecidableEq, Repr

/-- The spelling of an assignment. -/
def AssignOp.word : AssignOp → String
  | .set => "="
  | .add => "+="
  | .sub => "-="

/-- The types of values. -/
inductive ValueType where
  | null | bool | int | float | string | list | map | closure | function | builtin | handle
  deriving DecidableEq, Repr

/-- The name of a type. -/
def ValueType.name : ValueType → String
  | .null => "null"
  | .bool => "bool"
  | .int => "int"
  | .float => "float"
  | .string => "string"
  | .list => "list"
  | .map => "map"
  | .closure => "closure"
  | .function => "function"
  | .builtin => "builtin"
  | .handle => "handle"

end RowConsole.Script
