import PivotQuery.Proofs.Rows.Query
import PivotQuery.Sql.Select

namespace PivotQuery.Sql

variable {V : Type}

-- A row that a select takes from its source. Only that of a join has a right side, and
-- where no right row matches, that side is empty, so that all its columns are missing.
structure SourceRow (V : Type) where
  left : Row V
  right : Row V

namespace SourceRow

variable (engine : Engine V)

def get (row : SourceRow V) (id : String) : V := (row.left ++ row.right).get engine id

def side (row : SourceRow V) : JoinSide → Row V
  | .left => row.left
  | .right => row.right

def first (group : List (SourceRow V)) : SourceRow V := group.headD ⟨[], []⟩

end SourceRow

section Values

variable (engine : Engine V)

-- Of two rows the first one may come before the second one: by the first key, and where
-- that does not tell them apart, by the others.
def precedes : List SortKey → (String → V) → (String → V) → Bool
  | [], _, _ => true
  | key :: rest, a, b =>
    let before := engine.before key.ascending
    before (a key.column) (b key.column) &&
      (!before (b key.column) (a key.column) || precedes rest a b)

def Exp.collapses : Exp → Bool
  | .aggregate agg _ _ => engine.collapses agg
  | .countStar => true
  | .cast exp _ => exp.collapses
  | .value _ | .joinColumn _ _ | .rowNumber _ => false

def countValue (n : Nat) : V := engine.constant (.int (Int64.ofIntClamp n))

-- The value of an item for a group of source rows. `number` tells the place of the group in
-- an order of all groups.
def Exp.eval (number : List SortKey → V) (group : List (SourceRow V)) : Exp → V
  | .value exp => exp.eval engine ((SourceRow.first group).get engine)
  | .joinColumn side id => ((SourceRow.first group).side side).get engine id
  | .aggregate agg id _ => engine.aggregate agg (group.map fun row => row.get engine id)
  | .cast exp type => engine.cast type (exp.eval number group)
  | .rowNumber keys => number keys
  | .countStar => countValue engine group.length

def resultRow (items : List Item) (number : List SortKey → V) (group : List (SourceRow V)) :
    Row V :=
  items.map fun item => (item.name, item.exp.eval engine number group)

def placeOf (groups : List (List (SourceRow V))) (index : Nat) (keys : List SortKey) : V :=
  let ordered := groups.zipIdx.mergeSort fun a b =>
    precedes engine keys ((SourceRow.first a.1).get engine) ((SourceRow.first b.1).get engine)
  countValue engine ((ordered.map Prod.snd).idxOf index + 1)

-- One result row for each group. A sort key means the item of that name, or the hidden
-- column if there is no such item. Sorting is stable.
def resultRows (items : List Item) (orderBy : List SortKey) (hidden : List Item)
    (groups : List (List (SourceRow V))) : List (Row V) :=
  let numbered := groups.zipIdx.map fun (group, index) => (group, placeOf engine groups index)
  let read entry := (resultRow engine (items ++ hidden) entry.2 entry.1).get engine
  let sorted := numbered.mergeSort fun a b => precedes engine orderBy (read a) (read b)
  sorted.map fun entry => resultRow engine items entry.2 entry.1

def satisfies [DecidableEq V] (condition : Option Filter) (row : SourceRow V) : Bool :=
  condition.all fun filter => filter.holds engine (row.get engine)

def keyRow (keys : List String) (row : SourceRow V) : Row V :=
  keys.map fun id => (id, row.get engine id)

-- The groups of source rows that become one row each: those with the same keys, or without
-- GROUP BY all rows together if something collapses them and each row alone otherwise.
def groupsOf [DecidableEq V] (items : List Item) (keys : List String)
    (rows : List (SourceRow V)) : List (List (SourceRow V)) :=
  if keys.isEmpty then
    if items.any fun item => item.exp.collapses engine then [rows] else rows.map fun row => [row]
  else
    (rows.map (keyRow engine keys)).dedup.map fun key =>
      rows.filter fun row => keyRow engine keys row = key

def joinSources [DecidableEq V] (type : JoinType) (on : List String) (lhs rhs : List (Row V)) :
    List (SourceRow V) :=
  lhs.flatMap fun left =>
    let matching := rhs.filter fun right => keysMatch engine on left right
    match type, matching with
    | .leftOuter, [] => [⟨left, []⟩]
    | _, matching => matching.map fun right => ⟨left, right⟩

variable [DecidableEq V] (db : Database V)

mutual

-- The rows of a select: FROM, WHERE, GROUP BY, the select list and ORDER BY.
def Select.rows : Select → List (Row V)
  | ⟨items, source, condition, groupBy, orderBy, hidden⟩ =>
    let rows := source.rows.filter (satisfies engine condition)
    resultRows engine items orderBy hidden (groupsOf engine items groupBy rows)

def Source.rows : Source → List (SourceRow V)
  | .table name schema => (db.table name).map fun record => ⟨schema.row record, []⟩
  | .sql text schema => (db.sql text).map fun record => ⟨schema.row record, []⟩
  | .subquery selects => (rowsOfAll selects).map fun row => ⟨row, []⟩
  | .join lhs rhs type on => joinSources engine type on (rowsOfAll lhs) (rowsOfAll rhs)

def rowsOfAll : List Select → List (Row V)
  | [] => []
  | select :: rest => select.rows ++ rowsOfAll rest

end

end Values

end PivotQuery.Sql
