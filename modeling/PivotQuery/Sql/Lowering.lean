import PivotQuery.Sql.Select
import PivotQuery.Query.Typing

namespace PivotQuery.Sql

-- The name under which a hidden column leaves a subquery.
def orderColumn (index : Nat) : String := "_order" ++ toString index

def renameKeys (old new : String) (keys : List SortKey) : List SortKey :=
  keys.map fun key => if key.column == old then { key with column := new } else key

namespace Select

-- A sorted select as a subquery whose order is taken over outside. The hidden
-- columns get names of their own there, one after the other.
def wrapOrdered (select : Select) (schema : Schema) : Select :=
  let hidden := select.hidden.zipIdx
  let inner : Select :=
    { select with
      items := select.items ++
        hidden.map fun (item, index) => { item with name := orderColumn index }
      orderBy := []
      hidden := [] }
  { wrap [inner] schema with
    orderBy := hidden.foldl
      (fun keys (item, index) => renameKeys item.name (orderColumn index) keys) select.orderBy
    hidden := hidden.map fun (item, index) => Item.column (orderColumn index) item.type }

-- The select of the input itself if an operator can go into it, and otherwise a
-- select over the input as a subquery, which loses the order of its rows.
def reuse (mergeable : Select → Bool) (schema : Schema) : List Select → Select
  | [select] => if mergeable select then select else wrap [select] schema
  | selects => wrap selects schema

-- The same for operators that keep the order of the rows.
def reuseOrdered (mergeable : Select → Bool) (schema : Schema) : List Select → Select
  | [select] =>
    if mergeable select then select
    else if select.orderBy.isEmpty then wrap [select] schema
    else select.wrapOrdered schema
  | selects => wrap selects schema

-- Each operator, by when it can go into the select of its input and by what it does
-- there. What goes into a select may refer only to columns that the select hands on
-- unchanged, because names in WHERE mean columns of the source.

def admitsProject (ids : List String) (select : Select) : Bool :=
  select.orderBy.all fun key => ids.contains key.column || select.canHide key.column

-- Columns that leave the result and by which it is ordered become hidden.
def projected (ids : List String) (select : Select) : Select :=
  let dropped := select.orderBy.filter fun key =>
    !ids.contains key.column && !select.hides key.column
  { select with
    items := ids.filterMap select.item?
    hidden := select.hidden ++ dropped.filterMap fun key => select.item? key.column }

def admitsFilter (condition : Filter) (select : Select) : Bool :=
  select.groupBy.isEmpty && !select.isJoin && select.passesThrough condition.columns

def filtered (condition : Filter) (select : Select) : Select :=
  { select with
    condition := some (match select.condition with
      | some earlier => earlier.both condition
      | none => condition) }

def admitsExtend (id : String) (exp : ValueExpr) (select : Select) : Bool :=
  !select.isJoin && select.passesThrough exp.columns && !select.hides id

def extended (id : String) (exp : ValueExpr) (type : ColumnType) (select : Select) : Select :=
  { select with items := select.items ++ [⟨.value exp, type, id⟩] }

def admitsGroupBy (keys : List String) (aggs : List Aggregate) (select : Select) : Bool :=
  select.groupBy.isEmpty && select.orderBy.isEmpty && !select.isJoin &&
    select.passesThrough (keys ++ aggs.map Aggregate.column)

def keyItem? (schema : Schema) (id : String) : Option Item :=
  (schema.type? id).map (Item.column id)

def aggregateItem? (schema : Schema) (aggregate : Aggregate) : Option Item :=
  (schema.type? aggregate.column).map fun type =>
    ⟨.aggregate aggregate.agg aggregate.column type, aggregate.agg.resultType type,
      aggregate.column⟩

def grouped (schema : Schema) (keys : List String) (aggs : List Aggregate) (select : Select) :
    Select :=
  { select with
    items := keys.filterMap (keyItem? schema) ++ aggs.filterMap (aggregateItem? schema)
    groupBy := keys }

def admitsSort (select : Select) : Bool := !select.isJoin

-- A new order replaces the old one.
def sorted (keys : List SortKey) (select : Select) : Select :=
  { select with orderBy := keys, hidden := [] }

def admitsMapColumns (changes : NameMap ColumnChange) (select : Select) : Bool :=
  !(changes.values.filterMap ColumnChange.id).any select.hides

def renamed (changes : NameMap ColumnChange) (id : String) : String :=
  ((changes.get? id).bind ColumnChange.id).getD id

def mapped (changes : NameMap ColumnChange) (select : Select) : Select :=
  { select with
    items := select.items.map fun item => { item with name := renamed changes item.name }
    orderBy := select.orderBy.map fun key => { key with column := renamed changes key.column } }

-- A join takes each column from the left side if it is there.
def ofJoin (schema left : Schema) (lhs rhs : List Select) (type : JoinType) (on : List String) :
    Select :=
  let item (column : Column) : Item :=
    let side := if left.contains column.id then JoinSide.left else .right
    ⟨.joinColumn side column.id, column.type, column.id⟩
  plain (schema.columns.map item) (.join lhs rhs type on)

-- A branch of a union has no order of its own.
def branch (schema : Schema) : List Select → List Select
  | [select] => if select.orderBy.isEmpty then [select] else [wrap [select] schema]
  | selects => selects

def castTo (type : ColumnType) (item : Item) : Item :=
  if item.type.sameAs type then item else { item with exp := .cast item.exp type, type := type }

-- The columns of a branch in the order and with the types of the union.
def align (target : Schema) (select : Select) : Select :=
  { select with
    items := target.columns.filterMap fun column =>
      (select.item? column.id).map (castTo column.type) }

end Select

end PivotQuery.Sql

namespace PivotQuery

namespace Query

open Sql (Select)

mutual

-- The selects that compute a query.
def lower : Query → List Select
  | .table name schema => [.plain (schema.columns.map Sql.Item.ofColumn) (.table name schema)]
  | .sql text schema => [.plain (schema.columns.map Sql.Item.ofColumn) (.sql text schema)]
  | .project input ids =>
    [(Select.reuseOrdered (Select.admitsProject ids) input.schema input.lower).projected ids]
  | .filter input condition =>
    [(Select.reuseOrdered (Select.admitsFilter condition) input.schema input.lower).filtered
      condition]
  | .extend input id exp options =>
    [(Select.reuseOrdered (Select.admitsExtend id exp) input.schema input.lower).extended id exp
      options.type]
  | .groupBy input keys aggs =>
    [(Select.reuse (Select.admitsGroupBy keys aggs) input.schema input.lower).grouped
      input.schema keys aggs]
  | .join lhs rhs on type =>
    [Select.ofJoin (Query.join lhs rhs on type).schema lhs.schema lhs.lower rhs.lower type on]
  | .concat branches => lowerBranches (Query.concat branches).schema branches
  | .sort input keys =>
    [(Select.reuse Select.admitsSort input.schema input.lower).sorted keys]
  | .mapColumns input changes =>
    [(Select.reuseOrdered (Select.admitsMapColumns changes) input.schema input.lower).mapped
      changes]

def lowerBranches (target : Schema) : List Query → List Select
  | [] => []
  | query :: rest =>
    (Select.branch query.schema query.lower).map (Select.align target) ++
      lowerBranches target rest

end

-- Whether an operator goes into the select of its input.
def merges (mergeable : Select → Bool) : List Select → Nat
  | [select] => if mergeable select then 1 else 0
  | _ => 0

mutual

-- How often lowering puts an operator into an existing select.
def mergeCount : Query → Nat
  | .table _ _ | .sql _ _ => 0
  | .project input ids => input.mergeCount + merges (Select.admitsProject ids) input.lower
  | .filter input condition =>
    input.mergeCount + merges (Select.admitsFilter condition) input.lower
  | .extend input id exp _ => input.mergeCount + merges (Select.admitsExtend id exp) input.lower
  | .groupBy input keys aggs =>
    input.mergeCount + merges (Select.admitsGroupBy keys aggs) input.lower
  | .join lhs rhs _ _ => lhs.mergeCount + rhs.mergeCount
  | .concat branches => mergeCountAll branches
  | .sort input _ => input.mergeCount + merges Select.admitsSort input.lower
  | .mapColumns input changes =>
    input.mergeCount + merges (Select.admitsMapColumns changes) input.lower

def mergeCountAll : List Query → Nat
  | [] => 0
  | query :: rest => query.mergeCount + mergeCountAll rest

end

end Query

end PivotQuery
