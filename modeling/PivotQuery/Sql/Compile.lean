import PivotQuery.Sql.Paging
import PivotQuery.Sql.Text
import PivotQuery.Query.Typed

namespace PivotQuery

namespace Dialect

-- The text of a query's rows from an offset on, and no more of them than the limit.
def querySql (dialect : Dialect) (query : TypedQuery) (offset limit : Option Nat) : String :=
  let selects := query.query.lower
  if dialect.paging = .rowNumber && (offset.isSome || limit.isSome) then
    dialect.queryText [Sql.rowNumberPage selects query.schema offset limit]
  else
    match dialect.pageClause offset limit with
    | some clause => dialect.queryText selects ++ "\n" ++ clause
    | none => dialect.queryText selects

def rowCountSql (dialect : Dialect) (query : TypedQuery) : String :=
  dialect.queryText [Sql.countRows query.query.lower]

end Dialect

-- What happens on the way from a query to a result, for whoever watches.
inductive Event
  | merged
  | compiled (dialect : Dialect) (sql : String)
  | counted (dialect : Dialect) (sql : String)
  | treeBuilt (pivots branches : Nat)

namespace Event

def message : Event → String
  | .merged => "merging into existing select"
  | .compiled dialect sql => dialect.name ++ " query: " ++ sql
  | .counted dialect sql => dialect.name ++ " row count query: " ++ sql
  | .treeBuilt pivots branches =>
    "pivot tree over " ++ toString pivots ++ " pivot column(s): " ++ toString branches ++
      " branch(es)"

-- Merges are fine detail.
def isTrace : Event → Bool
  | .merged => true
  | _ => false

def ofLowering (query : Query) : List Event := List.replicate query.mergeCount .merged

def ofQuerySql (dialect : Dialect) (query : TypedQuery) (offset limit : Option Nat) : List Event :=
  ofLowering query.query ++ [.compiled dialect (dialect.querySql query offset limit)]

def ofRowCountSql (dialect : Dialect) (query : TypedQuery) : List Event :=
  ofLowering query.query ++ [.counted dialect (dialect.rowCountSql query)]

end Event

end PivotQuery
