import PivotQuery.Expression

namespace PivotQuery

inductive Comparison
  | eq
  | ne
  | gt
  | ge
  | lt
  | le
deriving DecidableEq, Repr

-- Where in a text another one has to occur.
inductive TextPlace
  | start
  | finish
  | anywhere
deriving DecidableEq, Repr

inductive NullTest
  | isNull
  | isNotNull
deriving DecidableEq, Repr

inductive BinaryOp
  | compare (comparison : Comparison)
  | matchText (place : TextPlace) (negated : Bool)
deriving DecidableEq, Repr

inductive RelOp
  | binary (op : BinaryOp)
  | unary (op : NullTest)
deriving DecidableEq, Repr

-- A condition on one row. Each operator has the operands it needs, and no others.
inductive RelExp
  | binary (op : BinaryOp) (lhs rhs : ValueExpr)
  | unary (op : NullTest) (operand : ValueExpr)
deriving BEq

namespace RelOp

def all : List RelOp :=
  [.binary (.compare .eq), .binary (.compare .ne), .binary (.compare .gt),
    .binary (.compare .ge), .binary (.compare .lt), .binary (.compare .le),
    .unary .isNull, .unary .isNotNull,
    .binary (.matchText .start false), .binary (.matchText .start true),
    .binary (.matchText .finish false), .binary (.matchText .finish true),
    .binary (.matchText .anywhere false), .binary (.matchText .anywhere true)]

def name : RelOp → String
  | .binary (.compare .eq) => "eq"
  | .binary (.compare .ne) => "ne"
  | .binary (.compare .gt) => "gt"
  | .binary (.compare .ge) => "ge"
  | .binary (.compare .lt) => "lt"
  | .binary (.compare .le) => "le"
  | .unary .isNull => "isNull"
  | .unary .isNotNull => "isNotNull"
  | .binary (.matchText .start false) => "begins"
  | .binary (.matchText .start true) => "notBegins"
  | .binary (.matchText .finish false) => "ends"
  | .binary (.matchText .finish true) => "notEnds"
  | .binary (.matchText .anywhere false) => "contains"
  | .binary (.matchText .anywhere true) => "notContains"

def ofName? (name : String) : Option RelOp := all.find? (·.name == name)

def isUnary : RelOp → Bool
  | .unary _ => true
  | .binary _ => false

def isTextOp : RelOp → Bool
  | .binary (.matchText _ _) => true
  | _ => false

-- How many operands the operator takes.
def arity (op : RelOp) : Nat := if op.isUnary then 1 else 2

end RelOp

namespace RelExp

def op : RelExp → RelOp
  | .binary op _ _ => .binary op
  | .unary op _ => .unary op

def operands : RelExp → List ValueExpr
  | .binary _ lhs rhs => [lhs, rhs]
  | .unary _ operand => [operand]

def columns (exp : RelExp) : List String := exp.operands.flatMap ValueExpr.columns

end RelExp

end PivotQuery
