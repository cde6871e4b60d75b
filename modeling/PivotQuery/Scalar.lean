import PivotQuery.Decimal.Layout

namespace PivotQuery

-- The value of a constant or of a cell. Equality on reals is that of floats: zero
-- has one value, and NaN equals nothing.
inductive Scalar
  | null
  | bool (value : Bool)
  | int (value : Int64)
  | real (value : Float)
  | text (value : String)
deriving BEq

namespace Scalar

def isNull : Scalar → Bool
  | .null => true
  | _ => false

def toReal? : Scalar → Option Float
  | .int value => some value.toFloat
  | .real value => some value
  | _ => none

def text? : Scalar → Option String
  | .text value => some value
  | _ => none

def boolText (value : Bool) : String := if value then "true" else "false"

def display : Scalar → String
  | .null => "NULL"
  | .bool value => boolText value
  | .int value => toString value.toInt
  | .real value => Decimal.Layout.plain.render value
  | .text value => value

end Scalar

end PivotQuery
