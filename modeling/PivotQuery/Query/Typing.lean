import PivotQuery.Query.Basic
import PivotQuery.Schema.Operations

namespace PivotQuery

namespace Schema

def empty : Schema := ⟨[], by simp [Column.ids]⟩

-- What each operator makes of the columns of its inputs, or why it refuses them.

def filtered (schema : Schema) (condition : Filter) : Except QueryError Schema := do
  schema.requireAll condition.columns
  return schema

def sorted (schema : Schema) (keys : List SortKey) : Except QueryError Schema := do
  schema.requireAll (keys.map SortKey.column)
  return schema

-- The columns that the expression refers to come before the new id.
def extended (schema : Schema) (id : String) (exp : ValueExpr) (options : ExtendOptions) :
    Except QueryError Schema := do
  schema.requireAll exp.columns
  schema.extend ⟨id, options.displayName.getD id, options.type⟩

def aggregated (schema : Schema) : List Aggregate → Except QueryError (List Column)
  | [] => .ok []
  | ⟨agg, id⟩ :: rest => do
    let column ← schema.require id
    let columns ← schema.aggregated rest
    return { column with type := agg.resultType column.type } :: columns

-- Group columns first, then the aggregated ones.
def grouped (schema : Schema) (keys : List String) (aggs : List Aggregate) :
    Except QueryError Schema := do
  let keyColumns ← schema.columnsOf keys
  let aggColumns ← schema.aggregated aggs
  ofColumns (keyColumns ++ aggColumns)

def requireJoinable (lhs rhs : Schema) : List String → Except QueryError Unit
  | [] => .ok ()
  | key :: rest => do
    let left ← lhs.require key
    let right ← rhs.require key
    if left.type.joinableWith right.type then requireJoinable lhs rhs rest
    else
      .error (.typeMismatch (.joinKey key left.type.sqlTypeName right.type.sqlTypeName) lhs rhs)

-- All left columns, then the right ones that are no keys. No id but a key's may be
-- on both sides.
def joined (lhs rhs : Schema) (on : List String) : Except QueryError Schema := do
  requireJoinable lhs rhs on
  match rhs.columns.find? fun column => lhs.contains column.id && !on.contains column.id with
  | some clash => .error (.duplicateColumn clash.id)
  | none => ofColumns (lhs.columns ++ rhs.columns.filter fun column => !on.contains column.id)

-- The columns of a stack with the types of one more schema in it.
def unifyColumns (first other : Schema) : List Column → Except QueryError (List Column)
  | [] => .ok []
  | column :: rest =>
    match other.type? column.id with
    | none => .error (.typeMismatch (.missingColumn column.id) first other)
    | some type => do
      let columns ← unifyColumns first other rest
      return { column with type := column.type.unify type } :: columns

def stacked (first : Schema) (columns : List Column) : List Schema → Except QueryError (List Column)
  | [] => .ok columns
  | other :: rest =>
    if other.size = first.size then do
      let columns ← unifyColumns first other columns
      stacked first columns rest
    else .error (.typeMismatch (.columnCount first.size other.size) first other)

-- Ids, names and order of the first schema, and the types of all.
def concatenated : List Schema → Except QueryError Schema
  | [] => .error .emptyConcat
  | first :: rest => do ofColumns (← stacked first first.columns rest)

def mapped (schema : Schema) (changes : NameMap ColumnChange) : Except QueryError Schema := do
  schema.requireAll changes.names
  ofColumns (schema.columns.map (Column.changed changes))

end Schema

namespace Query

mutual

-- The columns of a query. The innermost refusal, and of two the left one, comes first.
def infer : Query → Except QueryError Schema
  | .table _ schema | .sql _ schema => .ok schema
  | .project input ids => do (← input.infer).project ids
  | .filter input condition => do (← input.infer).filtered condition
  | .extend input id exp options => do (← input.infer).extended id exp options
  | .groupBy input keys aggs => do (← input.infer).grouped keys aggs
  | .join lhs rhs on _ => do
    let left ← lhs.infer
    let right ← rhs.infer
    left.joined right on
  | .concat branches => do Schema.concatenated (← inferAll branches)
  | .sort input keys => do (← input.infer).sorted keys
  | .mapColumns input changes => do (← input.infer).mapped changes

def inferAll : List Query → Except QueryError (List Schema)
  | [] => .ok []
  | query :: rest => do
    let schema ← query.infer
    let schemas ← inferAll rest
    return schema :: schemas

end

-- The columns of a query that is accepted, and none for any other.
def schema (query : Query) : Schema :=
  match query.infer with
  | .ok schema => schema
  | .error _ => .empty

theorem schema_of_infer {query : Query} {schema : Schema} (h : query.infer = .ok schema) :
    query.schema = schema := by
  simp [Query.schema, h]

end Query

end PivotQuery
