import PivotQuery.Json.Decode
import PivotQuery.NameMap
import PivotQuery.Schema.Operations

-- The JSON forms of columns and schemas.

namespace PivotQuery

open Json (Decoded Fields Reading)

-- A value that is read back is refused for the same reasons as one that is built.
abbrev Revived (α : Type) := Decoded QueryError α

def ColumnKind.toJson (kind : ColumnKind) : Json := .text kind.name

def ColumnKind.ofJson : Reading → Json → Revived ColumnKind := Json.toEnum ColumnKind.ofName?

def AggFn.toJson (agg : AggFn) : Json := .text agg.name

def AggFn.ofJson : Reading → Json → Revived AggFn := Json.toEnum AggFn.ofName?

namespace ColumnType

def toJson (type : ColumnType) : Json :=
  .object [("sqlTypeName", .text type.sqlTypeName), ("kind", type.kind.toJson),
    ("defaultAggFn", type.defaultAggFn.toJson)]

def fields (reading : Reading) : Fields QueryError ColumnType :=
  .map (fun (name, kind, agg) => ⟨name, kind, agg⟩) <|
    .both (.required "sqlTypeName" Json.toText) <|
      .both (.required "kind" (ColumnKind.ofJson reading))
        (.required "defaultAggFn" (AggFn.ofJson reading))

def ofJson (reading : Reading) : Json → Revived ColumnType := Json.toRecord (fields reading)

end ColumnType

-- What is kept about a column beside its id.
structure ColumnMetadata where
  displayName : String
  type : ColumnType

namespace ColumnMetadata

def toJson (metadata : ColumnMetadata) : Json :=
  .object [("displayName", .text metadata.displayName), ("columnType", metadata.type.toJson)]

def fields (reading : Reading) : Fields QueryError ColumnMetadata :=
  .map (fun (name, type) => ⟨name, type⟩) <|
    .both (.required "displayName" Json.toText)
      (.required "columnType" (ColumnType.ofJson reading))

def ofJson (reading : Reading) : Json → Revived ColumnMetadata := Json.toRecord (fields reading)

end ColumnMetadata

def Column.metadata (column : Column) : ColumnMetadata := ⟨column.displayName, column.type⟩

namespace Schema

def toJson (schema : Schema) : Json :=
  .object [
    ("columns", .ofTexts schema.ids),
    ("columnMetadata",
      .object (schema.columns.map fun column => (column.id, column.metadata.toJson)))]

-- The columns with the metadata of their ids. Metadata of other ids is dropped.
def describe (metadata : NameMap ColumnMetadata) :
    List String → Except QueryError (List Column)
  | [] => .ok []
  | id :: rest =>
    match metadata.get? id with
    | none => .error (.unknownColumn id metadata.names)
    | some found => do
      let columns ← describe metadata rest
      return ⟨id, found.displayName, found.type⟩ :: columns

def ofParts (ids : List String) (metadata : NameMap ColumnMetadata) : Except QueryError Schema := do
  ofColumns (← describe metadata ids)

def fields (reading : Reading) : Fields QueryError (List String × NameMap ColumnMetadata) :=
  .both (.required "columns" (Json.toList Json.toText)) <|
    .required "columnMetadata" fun json =>
      (Json.toEntries (ColumnMetadata.ofJson reading) json).map NameMap.ofList

def ofJson (reading : Reading) (json : Json) : Revived Schema := do
  let (ids, metadata) ← Json.toRecord (fields reading) json
  Json.refusing (ofParts ids metadata)

end Schema

end PivotQuery
