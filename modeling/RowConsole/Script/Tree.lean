import RowConsole.Script.Operator
import RowConsole.Script.Position

/-!
# Syntax Trees

Expressions and statements as the grammar builds them. A node that can fail while it runs carries the
position that its failure names.
-/

namespace RowConsole.Script

mutual

/-- Expressions. -/
inductive Expr where
  | null
  | bool (value : Bool)
  | int (value : Int64)
  /-- A decimal literal, kept as digits, a point and digits. -/
  | float (literal : String)
  | str (text : String)
  | list (items : List Expr)
  /-- The entries of a map as written; a repeated key is kept. -/
  | map (entries : List (String × Expr))
  | var (name : String) (pos : Pos)
  | unary (op : UnaryOp) (operand : Expr) (pos : Pos)
  | binary (op : BinaryOp) (left right : Expr) (pos : Pos)
  | and (left right : Expr)
  | or (left right : Expr)
  | member (object : Expr) (name : String) (pos : Pos)
  | index (object index : Expr) (pos : Pos)
  | call (callee : Expr) (args : List Expr) (pos : Pos)
  | method (receiver : Expr) (name : String) (args : List Expr) (pos : Pos)
  /-- A function without a name, which keeps the locals around it. -/
  | closure (params : List String) (body : List Stmt) (pos : Pos)

/-- Statements. -/
inductive Stmt where
  | expr (e : Expr)
  | declare (name : String) (init : Option Expr) (pos : Pos)
  | assign (target : Expr) (op : AssignOp) (value : Expr) (pos : Pos)
  | function (name : String) (params : List String) (body : List Stmt) (pos : Pos)
  | branch (cond : Expr) (thenBody : List Stmt) (elseBody : Option (List Stmt))
  | whileLoop (cond : Expr) (body : List Stmt)
  | forLoop (var : String) (items : Expr) (body : List Stmt) (pos : Pos)
  | returns (value : Option Expr)
  | breaks
  | continues

end

instance : Inhabited Expr := ⟨.null⟩

instance : Inhabited Stmt := ⟨.breaks⟩

/-- Whether an expression can stand on the left of an assignment. -/
def Expr.isTarget : Expr → Bool
  | .var _ _ | .member _ _ _ | .index _ _ _ => true
  | _ => false

/-- What runs when a function is called: a named function or a closure, its parameters and its body. -/
structure Routine where
  /-- The name of a named function; a closure has none. -/
  name : Option String
  params : List String
  body : List Stmt

/-- The name of a routine in messages. -/
def Routine.displayName (r : Routine) : String :=
  r.name.getD "<closure>"

/-- Whether a routine is a closure. -/
def Routine.isClosure (r : Routine) : Bool :=
  r.name.isNone

end RowConsole.Script
