import PivotQuery.Error

namespace PivotQuery

-- The first name that repeats an earlier one.
def firstRepeat? (earlier : List String) : List String → Option String
  | [] => none
  | name :: rest =>
    if name ∈ earlier then some name else firstRepeat? (name :: earlier) rest

theorem nodup_of_firstRepeat?_eq_none {earlier names : List String}
    (h : firstRepeat? earlier names = none) :
    names.Nodup ∧ ∀ name ∈ names, name ∉ earlier := by
  induction names generalizing earlier with
  | nil => simp
  | cons name rest ih =>
    simp only [firstRepeat?] at h
    split at h
    · simp at h
    · rename_i hnot
      obtain ⟨hnodup, hfresh⟩ := ih h
      refine ⟨List.nodup_cons.mpr ⟨fun hmem => hfresh name hmem List.mem_cons_self, hnodup⟩, ?_⟩
      intro other hother
      rcases List.mem_cons.mp hother with rfl | hother
      · exact hnot
      · exact fun hmem => hfresh other hother (List.mem_cons_of_mem _ hmem)

namespace Schema

-- Columns in order, unless an id occurs twice.
def ofColumns (columns : List Column) : Except QueryError Schema :=
  match h : firstRepeat? [] (Column.ids columns) with
  | some id => .error (.duplicateColumn id)
  | none => .ok ⟨columns, (nodup_of_firstRepeat?_eq_none h).1⟩

def unknownColumn (schema : Schema) (id : String) : QueryError := .unknownColumn id schema.ids

def require (schema : Schema) (id : String) : Except QueryError Column :=
  match schema.get? id with
  | some column => .ok column
  | none => .error (schema.unknownColumn id)

-- The first of the ids that is not in the schema is refused.
def requireAll (schema : Schema) : List String → Except QueryError Unit
  | [] => .ok ()
  | id :: rest => do
    let _ ← schema.require id
    schema.requireAll rest

-- The columns with the given ids, in the order of the ids.
def columnsOf (schema : Schema) : List String → Except QueryError (List Column)
  | [] => .ok []
  | id :: rest => do
    let column ← schema.require id
    let columns ← schema.columnsOf rest
    return column :: columns

def project (schema : Schema) (ids : List String) : Except QueryError Schema := do
  ofColumns (← schema.columnsOf ids)

-- One more column behind the others.
def extend (schema : Schema) (column : Column) : Except QueryError Schema :=
  if schema.contains column.id then .error (.duplicateColumn column.id)
  else ofColumns (schema.columns ++ [column])

end Schema

-- The type of an expression's value over rows of a schema. Only a column is looked up:
-- what is cast to text need not have a type.
def ValueExpr.typeIn (schema : Schema) : ValueExpr → Except QueryError ColumnType
  | .column id => (schema.require id).map Column.type
  | .constant value => .ok (.core value.kind)
  | .asString _ => .ok .string

end PivotQuery
