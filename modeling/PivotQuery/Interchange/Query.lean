import PivotQuery.Interchange.Expression
import PivotQuery.Json.Reader
import PivotQuery.Query.Typed

-- The JSON forms of queries and of what their operators are given.

namespace PivotQuery

open Json (Decoded Fields Reading)

def NameMap.toJson {α : Type} (encode : α → Json) (map : NameMap α) : Json :=
  .object (map.entries.map fun (name, value) => (name, encode value))

def NameMap.ofJson {α : Type} (decode : Json → Revived α) (json : Json) : Revived (NameMap α) :=
  (Json.toEntries decode json).map NameMap.ofList

def JoinType.toJson (type : JoinType) : Json := .text type.name

def JoinType.ofJson : Reading → Json → Revived JoinType := Json.toEnum JoinType.ofName?

namespace SortKey

def toJson (key : SortKey) : Json :=
  .object [("col", .text key.column), ("asc", .bool key.ascending)]

def ofJson : Json → Revived SortKey :=
  Json.toRecord <| .map (fun (column, ascending) => ⟨column, ascending⟩) <|
    .both (.required "col" Json.toText) (.required "asc" Json.toBool)

end SortKey

namespace Aggregate

def toJson (aggregate : Aggregate) : Json :=
  .object [("aggFn", aggregate.agg.toJson), ("col", .text aggregate.column)]

def ofJson (reading : Reading) : Json → Revived Aggregate :=
  Json.toRecord <| .map (fun (agg, column) => ⟨agg, column⟩) <|
    .both (.required "aggFn" (AggFn.ofJson reading)) (.required "col" Json.toText)

end Aggregate

-- A text that may be missing or null.
def textOrNone (name : String) : Fields QueryError (Option String) :=
  .defaulted name none (Json.toOption Json.toText)

namespace ExtendOptions

def toJson (options : ExtendOptions) : Json :=
  .ofEntries [("columnType", some options.type.toJson),
    ("displayName", options.displayName.map .text)]

def ofJson (reading : Reading) : Json → Revived ExtendOptions :=
  Json.toRecord <| .map (fun (type, name) => ⟨type, name⟩) <|
    .both (.required "columnType" (ColumnType.ofJson reading)) (textOrNone "displayName")

end ExtendOptions

namespace ColumnChange

def toJson (change : ColumnChange) : Json :=
  .ofEntries [("id", change.id.map .text), ("displayName", change.displayName.map .text)]

def ofJson : Json → Revived ColumnChange :=
  Json.toRecord <| .map (fun (id, name) => ⟨id, name⟩) <|
    .both (textOrNone "id") (textOrNone "displayName")

end ColumnChange

namespace Query

mutual

-- The columns of a query are not written: they follow from the tables.
def toJson : Query → Json
  | .table name schema =>
    .object [("operator", .text "table"), ("tableName", .text name), ("schema", schema.toJson)]
  | .sql text schema =>
    .object [("operator", .text "sql"), ("sqlQuery", .text text), ("schema", schema.toJson)]
  | .project input ids =>
    .object [("operator", .text "project"), ("from", input.toJson), ("cols", .ofTexts ids)]
  | .filter input condition =>
    .object [("operator", .text "filter"), ("from", input.toJson), ("fexp", condition.toJson)]
  | .extend input id exp options =>
    .object [("operator", .text "extend"), ("from", input.toJson), ("colId", .text id),
      ("colExp", exp.toJson), ("opts", options.toJson)]
  | .groupBy input keys aggs =>
    .object [("operator", .text "groupBy"), ("from", input.toJson), ("cols", .ofTexts keys),
      ("aggs", .array (aggs.map Aggregate.toJson))]
  | .join lhs rhs on type =>
    .object [("operator", .text "join"), ("lhs", lhs.toJson), ("rhs", rhs.toJson),
      ("on", .ofTexts on), ("joinType", type.toJson)]
  | .concat branches =>
    .object [("operator", .text "concat"), ("queries", .array (toJsonAll branches))]
  | .sort input keys =>
    .object [("operator", .text "sort"), ("from", input.toJson),
      ("keys", .array (keys.map SortKey.toJson))]
  | .mapColumns input changes =>
    .object [("operator", .text "mapColumns"), ("from", input.toJson),
      ("cmap", changes.toJson ColumnChange.toJson)]

def toJsonAll : List Query → List Json
  | [] => []
  | query :: rest => query.toJson :: toJsonAll rest

end

end Query

namespace TypedQuery

def toJson (query : TypedQuery) : Json := query.query.toJson

def forms : List String :=
  ["table", "sql", "project", "filter", "extend", "groupBy", "join", "concat", "sort", "mapColumns"]

def toIds : Json → Revived (List String) := Json.toList Json.toText

-- The fields of each operator. Inner queries come through `decode`, so they are accepted
-- before the operator looks at them.

def tableFields (name : String) : Fields QueryError (String × Schema) :=
  .both (.required name Json.toText) (.required "schema" (Schema.ofJson .held))

variable {α β : Type}

def fromFields (decode : Json → Revived TypedQuery) (rest : Fields QueryError α) :
    Fields QueryError (TypedQuery × α) :=
  .both (.required "from" decode) rest

def extendFields : Fields QueryError (String × ValueExpr × ExtendOptions) :=
  .both (.required "colId" Json.toText) <|
    .both (.required "colExp" (ValueExpr.ofJson .held))
      (.required "opts" (ExtendOptions.ofJson .held))

def groupByFields : Fields QueryError (List String × List Aggregate) :=
  .both (.required "cols" toIds) (.required "aggs" (Json.toList (Aggregate.ofJson .held)))

def joinFields (decode : Json → Revived TypedQuery) :
    Fields QueryError (TypedQuery × TypedQuery × List String × JoinType) :=
  .both (.required "lhs" decode) <|
    .both (.required "rhs" decode) <|
      .both (.required "on" toIds) (.required "joinType" (JoinType.ofJson .held))

def ofForm (decode : Json → Revived TypedQuery) (form : String) (json : Json) :
    Revived TypedQuery :=
  match form with
  | "table" => do
    let (name, schema) ← Json.toRecord (tableFields "tableName") json
    return .table name schema
  | "sql" => do
    let (text, schema) ← Json.toRecord (tableFields "sqlQuery") json
    return .sql text schema
  | "project" => do
    let (input, ids) ← Json.toRecord (fromFields decode (.required "cols" toIds)) json
    Json.refusing (input.project ids)
  | "filter" => do
    let (input, condition) ←
      Json.toRecord (fromFields decode (.required "fexp" (Filter.ofJson .held))) json
    Json.refusing (input.filter condition)
  | "extend" => do
    let (input, id, exp, options) ← Json.toRecord (fromFields decode extendFields) json
    Json.refusing (input.extend id exp options)
  | "groupBy" => do
    let (input, keys, aggs) ← Json.toRecord (fromFields decode groupByFields) json
    Json.refusing (input.groupBy keys aggs)
  | "join" => do
    let (lhs, rhs, on, type) ← Json.toRecord (joinFields decode) json
    Json.refusing (lhs.join rhs on type)
  | "concat" => do
    let branches ← Json.toRecord (.required "queries" (Json.toList decode)) json
    Json.refusing (concatAll branches)
  | "sort" => do
    let (input, keys) ←
      Json.toRecord (fromFields decode (.required "keys" (Json.toList SortKey.ofJson))) json
    Json.refusing (input.sort keys)
  | _ => do
    let (input, changes) ←
      Json.toRecord (fromFields decode (.required "cmap" (NameMap.ofJson ColumnChange.ofJson))) json
    Json.refusing (input.mapColumns changes)

def ofJsonWithin : Nat → Reading → Json → Revived TypedQuery
  | 0, _, _ => Json.malformed
  | depth + 1, reading, json => do
    let (form, rest) ← Json.untag "operator" reading forms json
    ofForm (ofJsonWithin depth .held) form rest

-- Every operator is checked again, as if the query were built anew.
def ofJson (json : Json) : Revived TypedQuery := ofJsonWithin json.depth .direct json

-- A query that is a whole document.
def ofDocument (document : Json.Document) : Revived TypedQuery := do
  let query ← ofJson document.value
  if document.ended then return query else Json.malformed

end TypedQuery

end PivotQuery
