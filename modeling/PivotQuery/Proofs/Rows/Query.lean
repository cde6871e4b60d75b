import PivotQuery.Proofs.Rows.Engine
import PivotQuery.Query.Typing
import Mathlib.Data.Multiset.Bind

namespace PivotQuery

-- What tables hold and what raw queries give: records with a value for any column that a
-- leaf may know of them.
structure Database (V : Type) where
  table : String → List (String → V)
  sql : String → List (String → V)

variable {V : Type}

def Schema.row (schema : Schema) (record : String → V) : Row V :=
  schema.ids.map fun id => (id, record id)

namespace Row

variable (engine : Engine V)

def project (ids : List String) (row : Row V) : Row V := ids.map fun id => (id, row.get engine id)

def extend (id : String) (exp : ValueExpr) (row : Row V) : Row V :=
  row ++ [(id, exp.eval engine (row.get engine))]

def newId (changes : NameMap ColumnChange) (id : String) : String :=
  match changes.get? id with
  | some change => change.id.getD id
  | none => id

def rename (changes : NameMap ColumnChange) (row : Row V) : Row V :=
  row.map fun (id, value) => (newId changes id, value)

-- A row of a branch as one of the stack: what has another type there becomes text.
def align (branch target : Schema) (row : Row V) : Row V :=
  target.columns.map fun column =>
    let value := row.get engine column.id
    let fits := (branch.type? column.id).any fun type => type.sameAs column.type
    (column.id, if fits then value else engine.cast .string value)

end Row

section Relations

variable [DecidableEq V] (engine : Engine V)

-- One row for each tuple of keys that occurs; without keys, one row for everything.
def groupRows (keys : List String) (aggs : List Aggregate) (rows : Multiset (Row V)) :
    Multiset (Row V) :=
  let groups : Multiset (Row V) :=
    if keys = [] then {[]} else (rows.map (Row.project engine keys)).dedup
  groups.map fun group =>
    let members := rows.filter fun row => row.project engine keys = group
    group ++ aggs.map fun aggregate =>
      (aggregate.column,
        engine.aggregate aggregate.agg (members.map fun row => row.get engine aggregate.column))

def keysMatch (on : List String) (left right : Row V) : Bool :=
  on.all fun key => engine.sameKey (left.get engine key) (right.get engine key)

-- Every left row with all right rows that match it, and in an outer join with nothing if
-- there is none. The keys are those of the left row.
def joinRows (type : JoinType) (on : List String) (rightColumns : List String)
    (lhs rhs : Multiset (Row V)) : Multiset (Row V) :=
  let added := rightColumns.filter fun id => !on.contains id
  lhs.bind fun left =>
    let matching := rhs.filter fun right => keysMatch engine on left right
    let joined := matching.map fun right => left ++ right.project engine added
    match type with
    | .inner => joined
    | .leftOuter =>
      if matching = 0 then {left ++ added.map fun id => (id, engine.null)} else joined

variable (db : Database V)

mutual

-- The rows of a query, in no particular order.
def Query.bag : Query → Multiset (Row V)
  | .table name schema => (db.table name).map schema.row
  | .sql text schema => (db.sql text).map schema.row
  | .project input ids => input.bag.map (Row.project engine ids)
  | .filter input condition => input.bag.filter fun row => condition.holds engine (row.get engine)
  | .extend input id exp _ => input.bag.map (Row.extend engine id exp)
  | .groupBy input keys aggs => groupRows engine keys aggs input.bag
  | .join lhs rhs on type => joinRows engine type on rhs.schema.ids lhs.bag rhs.bag
  | .concat branches => bagOfAll (Query.concat branches).schema branches
  | .sort input _ => input.bag
  | .mapColumns input changes => input.bag.map (Row.rename changes)

def Query.bagOfAll (target : Schema) : List Query → Multiset (Row V)
  | [] => 0
  | query :: rest =>
    query.bag.map (Row.align engine query.schema target) + bagOfAll target rest

end

end Relations

end PivotQuery
