import PivotQuery.Sql.Lowering

namespace PivotQuery.Sql

def rowNumberColumn : String := "_rowNum"

def rowCountColumn : String := "rowCount"

-- A row number as a constant. No result has more rows than the greatest constant,
-- so a number beyond it can as well be that one.
def rowNumber (n : Nat) : ValueExpr := .constant (.int (Int64.ofIntClamp n))

def pageRange (offset limit : Option Nat) : Filter :=
  let start := offset.getD 0
  let compare (comparison : Comparison) (n : Nat) : Clause :=
    .relation (.binary (.compare comparison) (.column rowNumberColumn) (rowNumber n))
  let first := compare .ge (start + 1)
  match limit with
  | some limit => ⟨.and, [first, compare .le (start + limit)]⟩
  | none => ⟨.and, [first]⟩

-- The rows without their order, and the order on its own. Columns that are hidden
-- become visible, because the window looks at the result of the subquery.
def unordered : List Select → List Select × List SortKey
  | [select] => ([{ select with orderBy := [] }.exposed], select.orderBy)
  | selects => (selects, [])

def numbered (selects : List Select) (schema : Schema) : Select :=
  let (rows, orderBy) := unordered selects
  let wrapped := Select.wrap rows schema
  { wrapped with items := wrapped.items ++ [⟨.rowNumber orderBy, .integer, rowNumberColumn⟩] }

def inRange (select : Select) (range : Filter) : Select :=
  { Select.plain (select.items.map fun item => Item.column item.name item.type)
      (.subquery [select]) with
    condition := some range }

-- A page without LIMIT: the rows are numbered in their order, those in the range are
-- kept, and the numbers give the order again.
def rowNumberPage (selects : List Select) (schema : Schema) (offset limit : Option Nat) : Select :=
  { Select.wrap [inRange (numbered selects schema) (pageRange offset limit)] schema with
    orderBy := [⟨rowNumberColumn, true⟩] }

def countRows (selects : List Select) : Select :=
  .plain [⟨.countStar, .integer, rowCountColumn⟩] (.subquery selects)

end PivotQuery.Sql
