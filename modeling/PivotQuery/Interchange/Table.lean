import PivotQuery.Interchange.Query
import PivotQuery.Table.Catalog
import PivotQuery.Table.Data

-- The JSON forms of results and of catalogs.

namespace PivotQuery

namespace TableData

def toJson (table : TableData) : Json :=
  .object [("schema", table.schema.toJson),
    ("rows", .array (table.rows.map fun row => .array (row.map Scalar.toJson)))]

def ofJson : Json → Revived TableData :=
  Json.toRecord <| .map (fun (schema, rows) => ⟨schema, rows⟩) <|
    .both (.required "schema" (Schema.ofJson .direct)) <|
      .required "rows" (Json.toList (Json.toList (Scalar.ofJson .direct)))

end TableData

namespace Catalog

def toJson (catalog : Catalog) : Json := catalog.tables.toJson Schema.toJson

def ofJson (json : Json) : Revived Catalog :=
  (NameMap.ofJson (Schema.ofJson .direct) json).map Catalog.mk

end Catalog

end PivotQuery
