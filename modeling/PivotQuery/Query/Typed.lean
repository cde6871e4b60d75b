import PivotQuery.Query.Typing

namespace PivotQuery

-- A query that is accepted, with its columns.
structure TypedQuery where
  query : Query
  schema : Schema
  typed : query.infer = .ok schema

namespace TypedQuery

def ofResult (query : Query) (result : Except QueryError Schema) (h : query.infer = result) :
    Except QueryError TypedQuery :=
  match result, h with
  | .ok schema, h => .ok ⟨query, schema, h⟩
  | .error e, _ => .error e

def table (name : String) (schema : Schema) : TypedQuery := ⟨.table name schema, schema, rfl⟩

def sql (text : String) (schema : Schema) : TypedQuery := ⟨.sql text schema, schema, rfl⟩

-- Each operator looks only at the columns of its inputs, which are at hand.

def project (input : TypedQuery) (ids : List String) : Except QueryError TypedQuery :=
  ofResult (.project input.query ids) (input.schema.project ids) (by
    simp [Query.infer, input.typed, bind, Except.bind])

def filter (input : TypedQuery) (condition : Filter) : Except QueryError TypedQuery :=
  ofResult (.filter input.query condition) (input.schema.filtered condition) (by
    simp [Query.infer, input.typed, bind, Except.bind])

def extend (input : TypedQuery) (id : String) (exp : ValueExpr) (options : ExtendOptions) :
    Except QueryError TypedQuery :=
  ofResult (.extend input.query id exp options) (input.schema.extended id exp options) (by
    simp [Query.infer, input.typed, bind, Except.bind])

def groupBy (input : TypedQuery) (keys : List String) (aggs : List Aggregate) :
    Except QueryError TypedQuery :=
  ofResult (.groupBy input.query keys aggs) (input.schema.grouped keys aggs) (by
    simp [Query.infer, input.typed, bind, Except.bind])

def join (lhs rhs : TypedQuery) (on : List String) (type : JoinType) :
    Except QueryError TypedQuery :=
  ofResult (.join lhs.query rhs.query on type) (lhs.schema.joined rhs.schema on) (by
    simp [Query.infer, lhs.typed, rhs.typed, bind, Except.bind])

theorem inferAll_map_query (branches : List TypedQuery) :
    Query.inferAll (branches.map TypedQuery.query) = .ok (branches.map TypedQuery.schema) := by
  induction branches with
  | nil => rfl
  | cons branch rest ih =>
    simp [Query.inferAll, branch.typed, ih, bind, Except.bind, pure, Except.pure]

def concatAll (branches : List TypedQuery) : Except QueryError TypedQuery :=
  ofResult (.concat (branches.map TypedQuery.query))
    (Schema.concatenated (branches.map TypedQuery.schema)) (by
      simp [Query.infer, inferAll_map_query, bind, Except.bind])

def sort (input : TypedQuery) (keys : List SortKey) : Except QueryError TypedQuery :=
  ofResult (.sort input.query keys) (input.schema.sorted keys) (by
    simp [Query.infer, input.typed, bind, Except.bind])

def mapColumns (input : TypedQuery) (changes : NameMap ColumnChange) :
    Except QueryError TypedQuery :=
  ofResult (.mapColumns input.query changes) (input.schema.mapped changes) (by
    simp [Query.infer, input.typed, bind, Except.bind])

-- Any query, if it is accepted.
def ofQuery (query : Query) : Except QueryError TypedQuery := ofResult query query.infer rfl

-- One more branch behind a stack, or a stack of two.
def concat (first second : TypedQuery) : Except QueryError TypedQuery :=
  match first.query with
  | .concat branches => ofQuery (.concat (branches ++ [second.query]))
  | _ => concatAll [first, second]

instance : BEq TypedQuery := ⟨fun a b => a.query == b.query⟩

end TypedQuery

end PivotQuery
