import PivotQuery.Proofs.Pivot.Nodes
import PivotQuery.Proofs.Rows.Names
import PivotQuery.Proofs.Rows.Select

namespace PivotQuery

namespace PivotTree

-- The columns that a tree puts in front of those of its base.
def frameColumns (tree : PivotTree) : List Column :=
  [.ofType depthColumn .integer, .ofType pivotColumn .string, .ofType isRootColumn .boolean] ++
    (List.range tree.pivots.length).map (fun level => .ofType (pathColumn level) .string) ++
    (List.range (tree.pivots.length + 1)).map fun level => .ofType (sortValColumn level) .integer

-- The type of a column of the base in a branch: a row keeps it, and all other nodes have that
-- of the aggregate.
def valueType (tree : PivotTree) (isLeaf : Bool) (column : Column) : ColumnType :=
  if isLeaf then column.type else (tree.aggFn column.id).resultType column.type

def branchColumns (tree : PivotTree) (isLeaf : Bool) : List Column :=
  tree.frameColumns ++ tree.base.schema.columns.map fun column =>
    { column with type := tree.valueType isLeaf column }

-- There are both aggregates and rows of the base among the branches.
def mixes (tree : PivotTree) (opened : PathTree) : Bool :=
  (tree.showsRoot || 0 < tree.pivots.length) &&
    ([] :: opened.paths).any fun path => path.length = tree.pivots.length

-- The union has no type for both, so it holds the column as text.
def stacksAsText (tree : PivotTree) (opened : PathTree) (column : Column) : Bool :=
  tree.mixes opened && !((tree.aggFn column.id).resultType column.type).sameAs column.type

-- The column of a node is cast in the union.
def castsValue (tree : PivotTree) (opened : PathTree) (isLeaf : Bool) (column : Column) : Bool :=
  tree.stacksAsText opened column && !(tree.valueType isLeaf column).sameAs .string

-- The start of a path, filled up with NULL.
def levelPath (path : Path) (length : Nat) : Path :=
  (List.range length).map fun level => path[level]?.join

def sortKeyIds (tree : PivotTree) (level : Nat) : List String :=
  tree.sortKey.zipIdx.map fun (_, index) => sortKeyColumn level index

-- The columns of a sorted tree, with the values of the sort key for every level.
def displayColumns (tree : PivotTree) : List String :=
  tree.columns ++ (List.range tree.pivots.length).flatMap tree.sortKeyIds

-- A path as the values of the columns for its start.
def pathRow {V : Type} (engine : Engine V) (path : Path) (length : Nat) : Row V :=
  (List.range length).map fun level => (pathColumn level, engine.component path[level]?.join)

section Rows

variable {V : Type} [DecidableEq V] {engine : Engine V}
variable (texts : engine.Texts) (tree : PivotTree) (rows : Multiset (Row V)) (opened : PathTree)

variable (engine) in
def label : TreeNode V → V
  | .root => engine.null
  | .group path => engine.component path.getLast?.join
  | .leaf _ row =>
    match tree.leaf with
    | some leaf => engine.cast .string (row.get engine leaf)
    | none => engine.constant (.text "")

-- A row has its own values, and any other node the aggregates over the rows below it.
def value (node : TreeNode V) (id : String) : V :=
  match node with
  | .leaf _ row => row.get engine id
  | .root | .group _ =>
    engine.aggregate (tree.aggFn id)
      ((tree.members texts rows node.path).map fun row => row.get engine id)

variable (engine) in
def frame (node : TreeNode V) : Row V :=
  [(depthColumn, Sql.countValue engine node.depth), (pivotColumn, tree.label engine node),
      (isRootColumn, engine.constant (.bool node.isRoot))] ++
    pathRow engine node.path tree.pivots.length ++
    (List.range (tree.pivots.length + 1)).map fun level =>
      (sortValColumn level, Sql.countValue engine (if level < node.depth then 1 else 0))

-- The row of a node in its branch.
def branchRow (node : TreeNode V) : Row V :=
  tree.frame engine node ++ tree.outColumns.map fun id => (id, tree.value texts rows node id)

-- The row of a node in the union of the branches.
def nodeRow (node : TreeNode V) : Row V :=
  tree.frame engine node ++ tree.base.schema.columns.map fun column =>
    (column.id,
      if tree.castsValue opened node.isLeaf column then
        engine.cast .string (tree.value texts rows node column.id)
      else tree.value texts rows node column.id)

-- The value of a sort key for a group, if there is any row in it.
def sortValue (path : Path) (id : String) : V :=
  if tree.members texts rows path = 0 then engine.null
  else tree.value texts rows (.group path) id

def sortKeyRow (node : TreeNode V) (level : Nat) : Row V :=
  tree.sortKey.zipIdx.map fun (key, index) =>
    (sortKeyColumn level index,
      tree.sortValue texts rows (levelPath node.path (level + 1)) key.column)

-- The row of a node with the values of the sort key for some levels.
def joinedRow (levels : Nat) (node : TreeNode V) : Row V :=
  tree.nodeRow texts rows opened node ++
    (List.range levels).flatMap (tree.sortKeyRow texts rows node)

-- The row of a node in the sorted tree.
def displayRow (node : TreeNode V) : Row V :=
  tree.joinedRow texts rows opened tree.pivots.length node

end Rows

variable {V : Type} [DecidableEq V] {engine : Engine V} {texts : engine.Texts}
variable {tree : PivotTree} {rows : Multiset (Row V)} {opened : PathTree}

theorem ids_frameColumns : Column.ids tree.frameColumns ++ tree.outColumns = tree.columns := by
  simp [frameColumns, columns, Column.ids, Column.ofType, Function.comp_def]

theorem ids_branchColumns (isLeaf : Bool) :
    Column.ids (tree.branchColumns isLeaf) = tree.columns := by
  rw [← ids_frameColumns]
  simp [branchColumns, Column.ids, outColumns, Schema.ids, Function.comp_def]

omit [DecidableEq V] in
theorem names_frame (node : TreeNode V) :
    (tree.frame engine node).names = Column.ids tree.frameColumns := by
  simp [frame, pathRow, frameColumns, Row.names, Column.ids, Column.ofType, Function.comp_def]

omit [DecidableEq V] in
theorem names_branchRow (node : TreeNode V) :
    (tree.branchRow texts rows node).names = tree.columns := by
  rw [branchRow, Row.names_append, names_frame, ← ids_frameColumns]
  simp [Row.names, Function.comp_def]

omit [DecidableEq V] in
theorem names_nodeRow (node : TreeNode V) :
    (tree.nodeRow texts rows opened node).names = tree.columns := by
  rw [nodeRow, Row.names_append, names_frame, ← ids_frameColumns]
  simp [Row.names, Function.comp_def, outColumns, Schema.ids, Column.ids]

theorem names_sortKeyRow (node : TreeNode V) (level : Nat) :
    (tree.sortKeyRow texts rows node level).names = tree.sortKeyIds level := by
  simp [Row.names, sortKeyRow, sortKeyIds, Function.comp_def]

theorem names_joinedRow (levels : Nat) (node : TreeNode V) :
    (tree.joinedRow texts rows opened levels node).names =
      tree.columns ++ (List.range levels).flatMap tree.sortKeyIds := by
  rw [joinedRow, Row.names_append, names_nodeRow, Row.names, List.map_flatMap]
  exact congrArg _ (List.flatMap_congr fun level _ => names_sortKeyRow node level)

omit [DecidableEq V] in
theorem names_pathRow (path : Path) (length : Nat) :
    (pathRow engine path length).names = (List.range length).map pathColumn := by
  simp [pathRow, Row.names, Function.comp_def]

theorem length_levelPath (path : Path) (length : Nat) :
    (levelPath path length).length = length := by
  simp [levelPath]

theorem levelPath_eq_take {path : Path} {length : Nat} (h : length ≤ path.length) :
    levelPath path length = path.take length := by
  refine List.ext_getElem ?_ fun i hi hi' => ?_
  · simp [levelPath, h]
  · have hlt : i < path.length := by
      rw [List.length_take] at hi'
      omega
    simp [levelPath, hlt]

variable (texts) in
omit [DecidableEq V] in
include texts in
-- The columns tell paths apart as far as they show them.
theorem pathRow_inj {path other : Path} {length : Nat} :
    pathRow engine path length = pathRow engine other length ↔
      levelPath path length = levelPath other length := by
  simp only [pathRow, levelPath, List.map_inj_left, Prod.mk.injEq, true_and,
    texts.component_injective.eq_iff]

end PivotTree

end PivotQuery
