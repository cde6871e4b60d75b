import PivotQuery.Schema.Basic

namespace PivotQuery

-- A value computed from one row: a column of it, a constant, or another value cast to text.
inductive ValueExpr
  | column (id : String)
  | constant (value : Scalar)
  | asString (operand : ValueExpr)
deriving BEq

namespace ValueExpr

def columns : ValueExpr → List String
  | .column id => [id]
  | .constant _ => []
  | .asString operand => operand.columns

end ValueExpr

namespace Scalar

-- A constant without a type of its own counts as text.
def kind : Scalar → ColumnKind
  | .bool _ => .boolean
  | .int _ => .integer
  | .real _ => .real
  | .null | .text _ => .string

end Scalar

end PivotQuery
