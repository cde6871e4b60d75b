import PivotQuery.Query.Basic

namespace PivotQuery.Sql

inductive JoinSide
  | left
  | right
deriving DecidableEq, Repr

-- What a select list can compute: from the row of its source, from one side of a
-- join, or from all rows of a group or of the result.
inductive Exp
  | value (exp : ValueExpr)
  | joinColumn (side : JoinSide) (id : String)
  | aggregate (agg : AggFn) (id : String) (type : ColumnType)
  | cast (exp : Exp) (type : ColumnType)
  | rowNumber (orderBy : List SortKey)
  | countStar

structure Item where
  exp : Exp
  type : ColumnType
  name : String

mutual

-- One SELECT. `groupBy` names columns of the source and `orderBy` columns of the
-- result; `hidden` holds the columns by which the result is ordered although they
-- are not in it, and is not written. A list of selects is combined by UNION ALL.
structure Select where
  items : List Item
  source : Source
  condition : Option Filter
  groupBy : List String
  orderBy : List SortKey
  hidden : List Item

-- What rows are taken from. Tables and raw queries come with their known columns,
-- which are not written either.
inductive Source
  | table (name : String) (schema : Schema)
  | sql (text : String) (schema : Schema)
  | subquery (selects : List Select)
  | join (lhs rhs : List Select) (type : JoinType) (on : List String)

end

namespace Item

def column (id : String) (type : ColumnType) : Item := ⟨.value (.column id), type, id⟩

def ofColumn (c : Column) : Item := column c.id c.type

def isIdentity (item : Item) : Bool :=
  match item.exp with
  | .value (.column id) => id == item.name
  | _ => false

end Item

namespace Select

def plain (items : List Item) (source : Source) : Select :=
  ⟨items, source, none, [], [], []⟩

-- All columns of a schema, from a query as a subquery.
def wrap (selects : List Select) (schema : Schema) : Select :=
  plain (schema.columns.map Item.ofColumn) (.subquery selects)

def item? (select : Select) (name : String) : Option Item :=
  select.items.find? fun item => item.name == name

def isIdentityAt (select : Select) (name : String) : Bool :=
  (select.item? name).any Item.isIdentity

def passesThrough (select : Select) (ids : List String) : Bool :=
  ids.all select.isIdentityAt

def isJoin (select : Select) : Bool :=
  match select.source with
  | .join _ _ _ _ => true
  | _ => false

def hides (select : Select) (name : String) : Bool :=
  select.hidden.any fun item => item.name == name

-- The column can leave the result while the order still refers to it: it is hidden
-- already, or ORDER BY finds it among the columns of the source.
def canHide (select : Select) (name : String) : Bool :=
  select.hides name ||
    (select.groupBy.isEmpty && !select.isJoin && select.isIdentityAt name)

def exposed (select : Select) : Select :=
  { select with items := select.items ++ select.hidden, hidden := [] }

end Select

end PivotQuery.Sql
