import PivotQuery.Interchange.Query
import PivotQuery.Pivot.Tree

-- The JSON forms of pivot configurations and of sets of open paths.

namespace PivotQuery

open Json (Fields)

namespace PivotConfig

def toJson (config : PivotConfig) : Json :=
  .object [("pivotColumns", .ofTexts config.pivots),
    ("pivotLeafColumn", .ofOption .text config.leaf), ("showRoot", .bool config.showRoot),
    ("sortKey", .array (config.sortKey.map SortKey.toJson)),
    ("aggMap", config.aggMap.toJson AggFn.toJson)]

-- Whatever is missing keeps its default.
def ofJson : Json → Revived PivotConfig :=
  Json.toRecord <|
    .map (fun (pivots, leaf, showRoot, sortKey, aggMap) =>
        ⟨pivots, leaf, showRoot, sortKey, aggMap⟩) <|
      .both (.defaulted "pivotColumns" [] (Json.toList Json.toText)) <|
        .both (textOrNone "pivotLeafColumn") <|
          .both (.defaulted "showRoot" false Json.toBool) <|
            .both (.defaulted "sortKey" [] (Json.toList SortKey.ofJson)) <|
              .defaulted "aggMap" .empty (NameMap.ofJson (AggFn.ofJson .direct))

end PivotConfig

def Path.toJson (path : Path) : Json := .array (path.map (Json.ofOption .text))

def Path.ofJson : Json → Revived Path := Json.toList (Json.toOption Json.toText)

namespace PathTree

def toJson (tree : PathTree) : Json := .array (tree.paths.map Path.toJson)

def ofJson (json : Json) : Revived PathTree := (Json.toList Path.ofJson json).map ofPaths

end PathTree

end PivotQuery
