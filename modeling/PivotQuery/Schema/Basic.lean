import PivotQuery.ColumnType

namespace PivotQuery

-- A column of a relation: the id by which queries refer to it, and what is shown.
structure Column where
  id : String
  displayName : String
  type : ColumnType
deriving DecidableEq, Repr

namespace Column

-- A column that is shown under its id.
def ofType (id : String) (type : ColumnType) : Column := ⟨id, id, type⟩

def ids (columns : List Column) : List String := columns.map Column.id

end Column

-- The columns of a relation in order. Ids are distinct, so an id determines its column.
structure Schema where
  columns : List Column
  distinct : (Column.ids columns).Nodup
deriving DecidableEq

namespace Schema

def ids (schema : Schema) : List String := Column.ids schema.columns

def size (schema : Schema) : Nat := schema.columns.length

def isEmpty (schema : Schema) : Bool := schema.columns.isEmpty

def get? (schema : Schema) (id : String) : Option Column :=
  schema.columns.find? fun column => column.id == id

def contains (schema : Schema) (id : String) : Bool := (schema.get? id).isSome

def type? (schema : Schema) (id : String) : Option ColumnType :=
  (schema.get? id).map Column.type

def index? (schema : Schema) (id : String) : Option Nat :=
  schema.columns.findIdx? fun column => column.id == id

end Schema

end PivotQuery
