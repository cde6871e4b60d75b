import PivotQuery.Filter.Basic
import PivotQuery.NameMap

namespace PivotQuery

inductive JoinType
  | inner
  | leftOuter
deriving DecidableEq, Repr

structure SortKey where
  column : String
  ascending : Bool
deriving DecidableEq, Repr

-- One aggregated column of a group; it keeps its id.
structure Aggregate where
  agg : AggFn
  column : String
deriving DecidableEq, Repr

-- The type of a new column, and what is shown for it if not its id.
structure ExtendOptions where
  type : ColumnType
  displayName : Option String := none
deriving DecidableEq, Repr

-- What changes about a column: its id, what is shown for it, or both.
structure ColumnChange where
  id : Option String := none
  displayName : Option String := none
deriving DecidableEq, Repr

-- A relation computed from tables. `sql` is a query in an engine's own words, of
-- which only the columns are known.
inductive Query
  | table (name : String) (schema : Schema)
  | sql (text : String) (schema : Schema)
  | project (input : Query) (ids : List String)
  | filter (input : Query) (condition : Filter)
  | extend (input : Query) (id : String) (exp : ValueExpr) (options : ExtendOptions)
  | groupBy (input : Query) (keys : List String) (aggs : List Aggregate)
  | join (lhs rhs : Query) (on : List String) (type : JoinType)
  | concat (branches : List Query)
  | sort (input : Query) (keys : List SortKey)
  | mapColumns (input : Query) (changes : NameMap ColumnChange)

namespace JoinType

def all : List JoinType := [.inner, .leftOuter]

def name : JoinType → String
  | .inner => "inner"
  | .leftOuter => "leftOuter"

def ofName? (name : String) : Option JoinType := all.find? (·.name == name)

end JoinType

def ColumnChange.apply (change : ColumnChange) (column : Column) : Column :=
  { column with
    id := change.id.getD column.id
    displayName := change.displayName.getD column.displayName }

-- The column under its changes, if it has any.
def Column.changed (changes : NameMap ColumnChange) (column : Column) : Column :=
  match changes.get? column.id with
  | some change => change.apply column
  | none => column

namespace Query

mutual

-- The same operators over the same tables. Constants are compared as values, so a
-- query with a constant that is NaN differs from itself.
def beq : Query → Query → Bool
  | .table a s, .table b t | .sql a s, .sql b t => a == b && s == t
  | .project a ids, .project b ids' => a.beq b && ids == ids'
  | .filter a f, .filter b g => a.beq b && f == g
  | .extend a id e o, .extend b id' e' o' => a.beq b && id == id' && e == e' && o == o'
  | .groupBy a k g, .groupBy b k' g' => a.beq b && k == k' && g == g'
  | .join a b on t, .join c d on' t' => a.beq c && b.beq d && on == on' && t == t'
  | .concat as, .concat bs => beqAll as bs
  | .sort a k, .sort b k' => a.beq b && k == k'
  | .mapColumns a c, .mapColumns b d => a.beq b && c == d
  | _, _ => false

def beqAll : List Query → List Query → Bool
  | [], [] => true
  | a :: as, b :: bs => a.beq b && beqAll as bs
  | _, _ => false

end

instance : BEq Query := ⟨beq⟩

end Query

end PivotQuery
