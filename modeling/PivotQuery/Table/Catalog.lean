import PivotQuery.Dialect.Basic
import PivotQuery.Query.Typed

namespace PivotQuery

-- A place where queries are run: its dialect, and what it tells about its tables.
structure Connection where
  dialect : Dialect
  tableSchema : String → Except QueryError Schema

-- The rows of a table, with the columns that the connection reports.
def Connection.tableQuery (connection : Connection) (name : String) :
    Except QueryError TypedQuery := do
  let schema ← connection.tableSchema name
  return .table name schema

-- The columns of known tables.
structure Catalog where
  tables : NameMap Schema := .empty

namespace Catalog

def ofList (tables : List (String × Schema)) : Catalog := ⟨.ofList tables⟩

def get? (catalog : Catalog) (name : String) : Option Schema := catalog.tables.get? name

def insert (catalog : Catalog) (name : String) (schema : Schema) : Catalog :=
  ⟨catalog.tables.insert name schema⟩

def names (catalog : Catalog) : List String := catalog.tables.names

def require (catalog : Catalog) (name : String) : Except QueryError Schema :=
  match catalog.get? name with
  | some schema => .ok schema
  | none => .error (.unknownTable name)

def tableQuery (catalog : Catalog) (name : String) : Except QueryError TypedQuery := do
  let schema ← catalog.require name
  return .table name schema

end Catalog

end PivotQuery
