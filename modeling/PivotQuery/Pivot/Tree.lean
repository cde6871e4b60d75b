import PivotQuery.Pivot.PathTree
import PivotQuery.Sql.Compile

namespace PivotQuery

-- What a pivot tree shows: the columns it groups by, from the outermost level in; the
-- column that stands for a row at the bottom; whether there is a row for the whole;
-- the order of siblings; and aggregations other than a column's own.
structure PivotConfig where
  pivots : List String := []
  leaf : Option String := none
  showRoot : Bool := false
  sortKey : List SortKey := []
  aggMap : NameMap AggFn := .empty

inductive PivotError
  | pathTooDeep (length pivots : Nat)
  | query (cause : QueryError)
deriving DecidableEq

def PivotError.message : PivotError → String
  | .pathTooDeep length pivots =>
    "path of length " ++ toString length ++ " is deeper than the " ++ toString pivots ++
      " pivot column(s)"
  | .query cause => cause.message

-- The columns that a tree adds to those of its base. Each row has its depth, its own
-- group value, whether it is the root, its path, and for every level whether it lies
-- below that level, by which it comes behind the nodes above it.

def depthColumn : String := "_depth"
def pivotColumn : String := "_pivot"
def isRootColumn : String := "_isRoot"
def pathColumn (level : Nat) : String := "_path" ++ toString level
def sortValColumn (level : Nat) : String := "_sortVal_" ++ toString level

-- The value of a sort key for the nodes of a level.
def sortKeyColumn (level key : Nat) : String :=
  "_sortVal_" ++ toString level ++ "_" ++ toString key

structure NewColumn where
  id : String
  exp : ValueExpr
  type : ColumnType

namespace NewColumn

def int (id : String) (value : Nat) : NewColumn :=
  ⟨id, .constant (.int (Int64.ofIntClamp value)), .integer⟩

def bool (id : String) (value : Bool) : NewColumn := ⟨id, .constant (.bool value), .boolean⟩

def string (id : String) (exp : ValueExpr) : NewColumn := ⟨id, exp, .string⟩

end NewColumn

def TypedQuery.extendAll (query : TypedQuery) : List NewColumn → Except QueryError TypedQuery
  | [] => .ok query
  | column :: rest => do
    let query ← query.extend column.id column.exp ⟨column.type, none⟩
    query.extendAll rest

structure PivotTree where
  base : TypedQuery
  pivots : List String
  leaf : Option String
  root : Option TypedQuery
  sortKey : List SortKey
  aggMap : NameMap AggFn

namespace PivotTree

def outColumns (tree : PivotTree) : List String := tree.base.schema.ids

def showsRoot (tree : PivotTree) : Bool := tree.root.isSome

-- The aggregation of a column: the configured one, or else its type's own.
def aggFn (tree : PivotTree) (id : String) : AggFn :=
  (tree.aggMap.get? id).getD
    (((tree.base.schema.type? id).map ColumnType.defaultAggFn).getD .null)

def outAggregates (tree : PivotTree) : List Aggregate :=
  tree.outColumns.map fun id => ⟨tree.aggFn id, id⟩

-- The columns of every branch, in order.
def columns (tree : PivotTree) : List String :=
  [depthColumn, pivotColumn, isRootColumn] ++
    (List.range tree.pivots.length).map pathColumn ++
    (List.range (tree.pivots.length + 1)).map sortValColumn ++ tree.outColumns

def rootQuery (tree : PivotTree) : Except QueryError TypedQuery := do
  let total ← tree.base.groupBy [] tree.outAggregates
  let extended ← total.extendAll <|
    [.string pivotColumn (.constant .null), .int depthColumn 0, .bool isRootColumn true] ++
      (List.range tree.pivots.length).map
        (fun level => .string (pathColumn level) (.constant .null)) ++
      (List.range (tree.pivots.length + 1)).map (fun level => .int (sortValColumn level) 0)
  extended.project tree.columns

-- A tree over a query that has all the columns that are named.
def ofConfig (base : TypedQuery) (config : PivotConfig) : Except QueryError PivotTree := do
  base.schema.requireAll <|
    config.pivots ++ config.leaf.toList ++ config.sortKey.map SortKey.column ++
      config.aggMap.names
  let tree : PivotTree :=
    ⟨base, config.pivots, config.leaf, none, config.sortKey, config.aggMap⟩
  if config.showRoot then
    let root ← tree.rootQuery
    return { tree with root := some root }
  else return tree

-- The rows whose pivot columns, as text, are the components of a path.
def pathCondition (pivots : List String) (path : Path) : Filter :=
  ⟨.and, (pivots.zip path).map fun (pivot, component) =>
    match component with
    | none => .relation (.unary .isNull (.column pivot))
    | some value =>
      .relation (.binary (.compare .eq) (.asString (.column pivot)) (.constant (.text value)))⟩

-- The path of the children of a node: that of the node, then their own value.
def pathValue (path : Path) (level : Nat) : ValueExpr :=
  match path[level]? with
  | some (some value) => .constant (.text value)
  | some none => .constant .null
  | none => if level = path.length then .column pivotColumn else .constant .null

-- The children of a node: a row for each value of the next pivot column, or the rows
-- of the base themselves if no pivot column is left.
def childrenOf (tree : PivotTree) (path : Path) : Except PivotError TypedQuery :=
  let levels := tree.pivots.length
  if levels < path.length then .error (.pathTooDeep path.length levels)
  else Except.mapError .query do
    let condition := pathCondition tree.pivots path
    let rows ← if condition.isEmpty then pure tree.base else tree.base.filter condition
    let nodes ← match tree.pivots[path.length]? with
      | some pivot => do
        let valued ← rows.extendAll [.string pivotColumn (.asString (.column pivot))]
        valued.groupBy [pivotColumn] tree.outAggregates
      | none =>
        let label : ValueExpr := match tree.leaf with
          | some leaf => .asString (.column leaf)
          | none => .constant (.text "")
        rows.extendAll [.string pivotColumn label]
    let extended ← nodes.extendAll <|
      [.int depthColumn (path.length + 1), .bool isRootColumn false] ++
        (List.range levels).map
          (fun level => .string (pathColumn level) (pathValue path level)) ++
        (List.range (levels + 1)).map
          (fun level => .int (sortValColumn level) (if level ≤ path.length then 1 else 0))
    extended.project tree.columns

-- For every key its column in the base under the name it has for a level.
def addSortKeys (tree : PivotTree) (level : Nat) (query : TypedQuery) :
    List (SortKey × Nat) → Except QueryError TypedQuery
  | [] => .ok query
  | (key, index) :: rest => do
    let column ← tree.base.schema.require key.column
    let query ← query.extendAll [⟨sortKeyColumn level index, .column key.column, column.type⟩]
    tree.addSortKeys level query rest

-- The values of the sort key for the nodes at a depth, by their paths.
def sortQuery (tree : PivotTree) (depth : Nat) : Except PivotError TypedQuery :=
  match depth with
  | 0 => .error (.pathTooDeep 0 tree.pivots.length)
  | level + 1 =>
    if tree.pivots.length ≤ level then .error (.pathTooDeep (level + 1) tree.pivots.length)
    else Except.mapError .query do
      let keys := tree.sortKey.zipIdx
      let located ← tree.base.extendAll <|
        (tree.pivots.take (level + 1)).zipIdx.map fun (pivot, i) =>
          .string (pathColumn i) (.asString (.column pivot))
      let keyed ← tree.addSortKeys level located keys
      keyed.groupBy ((List.range (level + 1)).map pathColumn) <|
        keys.map fun (key, index) => ⟨tree.aggFn key.column, sortKeyColumn level index⟩

-- The root if it is shown, then the children of the empty path and of each open one.
def branches (tree : PivotTree) (opened : PathTree) : Except PivotError (List TypedQuery) := do
  let children ← ([] :: opened.paths).mapM tree.childrenOf
  return tree.root.toList ++ children

def union (tree : PivotTree) (opened : PathTree) : Except PivotError TypedQuery := do
  let branches ← tree.branches opened
  Except.mapError .query (TypedQuery.concatAll branches)

-- What building the tree reports.
def events (tree : PivotTree) (opened : PathTree) : List Event :=
  match tree.branches opened with
  | .ok branches => [.treeBuilt tree.pivots.length branches.length]
  | .error _ => []

-- All visible nodes, by their paths.
def treeQuery (tree : PivotTree) (opened : PathTree) : Except PivotError TypedQuery := do
  let rows ← tree.union opened
  let levels := tree.pivots.length
  if levels < 2 then return rows
  else
    Except.mapError .query <|
      rows.sort ((List.range (levels - 1)).map fun level => ⟨pathColumn level, true⟩)

-- The sort key at every depth joined to the nodes at that depth and below.
def joinSortQueries (tree : PivotTree) (rows : TypedQuery) :
    List Nat → Except PivotError TypedQuery
  | [] => .ok rows
  | depth :: rest => do
    let keys ← tree.sortQuery depth
    let joined ← Except.mapError .query <|
      rows.join keys ((List.range depth).map pathColumn) .leftOuter
    tree.joinSortQueries joined rest

-- A node before what is below it, siblings by the sort key, and rows at the bottom by
-- the columns of the sort key themselves.
def displayOrder (tree : PivotTree) : List SortKey :=
  let levels := tree.pivots.length
  let level (i : Nat) : List SortKey :=
    [⟨sortValColumn i, true⟩] ++
      tree.sortKey.zipIdx.map (fun (key, j) => ⟨sortKeyColumn i j, key.ascending⟩) ++
      [⟨pathColumn i, true⟩]
  (if tree.showsRoot then [⟨isRootColumn, false⟩] else []) ++
    (List.range levels).flatMap level ++ [⟨sortValColumn levels, true⟩] ++ tree.sortKey

def sortedTreeQuery (tree : PivotTree) (opened : PathTree) : Except PivotError TypedQuery := do
  let rows ← tree.union opened
  let depths := if tree.sortKey.isEmpty then [] else (List.range tree.pivots.length).map (· + 1)
  let joined ← tree.joinSortQueries rows depths
  Except.mapError .query (joined.sort tree.displayOrder)

end PivotTree

end PivotQuery
