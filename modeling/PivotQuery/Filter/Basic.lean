import PivotQuery.Error

namespace PivotQuery

inductive BoolOp
  | and
  | or
deriving DecidableEq, Repr

-- A condition inside a filter: one relation, or a group under one connective.
inductive Clause
  | relation (exp : RelExp)
  | group (op : BoolOp) (args : List Clause)

-- A group at the top. An empty group is true under either connective.
structure Filter where
  op : BoolOp
  args : List Clause := []

namespace BoolOp

def all : List BoolOp := [.and, .or]

def name : BoolOp → String
  | .and => "AND"
  | .or => "OR"

def ofName? (name : String) : Option BoolOp := all.find? (·.name == name)

end BoolOp

namespace Clause

mutual

def columns : Clause → List String
  | .relation exp => exp.columns
  | .group _ args => columnsOfAll args

def columnsOfAll : List Clause → List String
  | [] => []
  | clause :: rest => clause.columns ++ columnsOfAll rest

end

mutual

def beq : Clause → Clause → Bool
  | .relation a, .relation b => a == b
  | .group op args, .group op' args' => op == op' && beqAll args args'
  | _, _ => false

def beqAll : List Clause → List Clause → Bool
  | [], [] => true
  | a :: as, b :: bs => a.beq b && beqAll as bs
  | _, _ => false

end

instance : BEq Clause := ⟨beq⟩

end Clause

namespace Filter

def isEmpty (filter : Filter) : Bool := filter.args.isEmpty

def toClause (filter : Filter) : Clause := .group filter.op filter.args

-- One more condition at the end.
def push (filter : Filter) (clause : Clause) : Filter :=
  { filter with args := filter.args ++ [clause] }

def columns (filter : Filter) : List String := Clause.columnsOfAll filter.args

-- Both filters, as a group of two groups.
def both (first second : Filter) : Filter := ⟨.and, [first.toClause, second.toClause]⟩

instance : BEq Filter := ⟨fun a b => a.toClause == b.toClause⟩

end Filter

namespace RelExp

-- A relation from operands in order, which have to be as many as the operator takes.
def ofOperands : RelOp → List ValueExpr → Except QueryError RelExp
  | .binary op, [lhs, rhs] => .ok (.binary op lhs rhs)
  | .unary op, [operand] => .ok (.unary op operand)
  | op, operands => .error (.operandCount op operands.length)

end RelExp

end PivotQuery
