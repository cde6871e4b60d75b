import PivotQuery.Scalar

namespace PivotQuery

-- What the values of a column are, whatever an engine calls their type. `other`
-- has no counterpart outside its engine.
inductive ColumnKind
  | integer
  | real
  | string
  | boolean
  | date
  | timestamp
  | blob
  | other
deriving DecidableEq, Repr

-- What becomes of a column when rows are grouped. `uniq` is the value on which all rows agree;
-- `null` and `nullStr` have no value, with the type of the column and the string type.
inductive AggFn
  | avg
  | count
  | min
  | max
  | sum
  | uniq
  | null
  | nullStr
deriving DecidableEq, Repr

namespace ColumnKind

def core : List ColumnKind := [.integer, .real, .string, .boolean, .date, .timestamp, .blob]

def all : List ColumnKind := core ++ [.other]

def name : ColumnKind → String
  | .integer => "integer"
  | .real => "real"
  | .string => "string"
  | .boolean => "boolean"
  | .date => "date"
  | .timestamp => "timestamp"
  | .blob => "blob"
  | .other => "other"

def ofName? (name : String) : Option ColumnKind := all.find? (·.name == name)

def isNumeric (kind : ColumnKind) : Bool := kind = .integer || kind = .real

def isCore (kind : ColumnKind) : Bool := kind != .other

def defaultAggFn : ColumnKind → AggFn
  | .integer | .real => .sum
  | .string | .boolean | .date | .timestamp => .uniq
  | .blob | .other => .null

def neutralTypeName : ColumnKind → String
  | .integer => "INTEGER"
  | .real => "REAL"
  | .string => "TEXT"
  | .boolean => "BOOLEAN"
  | .date => "DATE"
  | .timestamp => "TIMESTAMP"
  | .blob => "BLOB"
  | .other => "OTHER"

end ColumnKind

-- A type as an engine names it, with its kind and the aggregation its columns get
-- unless another is asked for.
structure ColumnType where
  sqlTypeName : String
  kind : ColumnKind
  defaultAggFn : AggFn
deriving DecidableEq, Repr

namespace ColumnType

def ofKind (sqlTypeName : String) (kind : ColumnKind) : ColumnType :=
  ⟨sqlTypeName, kind, kind.defaultAggFn⟩

def unknown (sqlTypeName : String) : ColumnType := ofKind sqlTypeName .other

def core (kind : ColumnKind) : ColumnType := ofKind kind.neutralTypeName kind

def integer : ColumnType := core .integer
def real : ColumnType := core .real
def string : ColumnType := core .string
def boolean : ColumnType := core .boolean

def isNumeric (type : ColumnType) : Bool := type.kind.isNumeric

-- A value of one type can stand for a value of the other without a cast.
def sameAs (lhs rhs : ColumnType) : Bool :=
  lhs = rhs || (lhs.kind = rhs.kind && lhs.kind.isCore)

-- The type of a column that stacks columns of two types: the left one if they are
-- the same, and text otherwise, even for two numbers.
def unify (lhs rhs : ColumnType) : ColumnType := if lhs.sameAs rhs then lhs else string

def joinableWith (lhs rhs : ColumnType) : Bool :=
  lhs.kind = rhs.kind || (lhs.isNumeric && rhs.isNumeric)

def isWhole (value : Float) : Bool := value.isFinite && value.floor == value

-- How a value is shown in a column of the type. The kind decides how booleans look among numbers,
-- integers among booleans and whole reals among integers, where they are held within 64 bits.
def render (type : ColumnType) : Scalar → String
  | .null => ""
  | .bool value =>
    if type.isNumeric then (if value then "1" else "0") else Scalar.boolText value
  | .int value =>
    if type.kind = .boolean then Scalar.boolText (value != 0) else toString value.toInt
  | .real value =>
    if type.kind = .integer && isWhole value then toString value.toInt64.toInt
    else Decimal.Layout.plain.render value
  | .text value => value

end ColumnType

namespace AggFn

def all : List AggFn := [.avg, .count, .min, .max, .sum, .uniq, .null, .nullStr]

def name : AggFn → String
  | .avg => "avg"
  | .count => "count"
  | .min => "min"
  | .max => "max"
  | .sum => "sum"
  | .uniq => "uniq"
  | .null => "null"
  | .nullStr => "nullstr"

def ofName? (name : String) : Option AggFn := all.find? (·.name == name)

def resultType (agg : AggFn) (input : ColumnType) : ColumnType :=
  match agg with
  | .count => .integer
  | .nullStr => .string
  | _ => input

end AggFn

end PivotQuery
