import PivotQuery.Schema.Operations

namespace PivotQuery

-- A result: rows of cells in the order of the columns. A row may be short of cells.
structure TableData where
  schema : Schema
  rows : List (List Scalar)

namespace TableData

def size (table : TableData) : Nat := table.rows.length

def isEmpty (table : TableData) : Bool := table.rows.isEmpty

-- The cells of a column from the top down, without those that are missing.
def column (table : TableData) (id : String) : Except QueryError (List Scalar) :=
  match table.schema.index? id with
  | some index => .ok (table.rows.filterMap fun row => row[index]?)
  | none => .error (table.schema.unknownColumn id)

def cell? (table : TableData) (row : Nat) (id : String) : Option Scalar := do
  let index ← table.schema.index? id
  let cells ← table.rows[row]?
  cells[index]?

end TableData

end PivotQuery
