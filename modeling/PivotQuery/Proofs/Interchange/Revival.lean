import PivotQuery.Proofs.Interchange.Expressions
import PivotQuery.Proofs.Query.Acceptance
import PivotQuery.Proofs.Query.Builders
import PivotQuery.Sql.Compile

namespace PivotQuery

open Json (Fields Gives Reading)

section Arguments

variable {reading : Reading}

theorem JoinType.ofJson_gives (type : JoinType) : Gives (ofJson reading) type.toJson type :=
  Json.toEnum_gives (by cases type <;> rfl)

theorem SortKey.ofJson_gives (key : SortKey) : Gives ofJson key.toJson key :=
  Json.toRecord_gives
    (.map (.both (.required rfl (Json.gives_text rfl)) (.required rfl (Json.gives_bool rfl))) rfl)
    (by simp) (by simp)

theorem Aggregate.ofJson_gives (aggregate : Aggregate) :
    Gives (ofJson reading) aggregate.toJson aggregate :=
  Json.toRecord_gives
    (.map (.both (.required rfl (AggFn.ofJson_gives _)) (.required rfl (Json.gives_text rfl))) rfl)
    (by simp) (by simp)

-- A text that is left out when there is none.
private theorem textOrNone_reads {name : String} {entries : List (String × Json)}
    {text : Option String}
    (h : (Json.object entries).get? name = text.map .text) :
    (textOrNone name).Reads entries text := by
  cases text with
  | none => exact .defaulted_missing h
  | some text =>
    have htext : Gives (Json.toOption Json.toText : Json → Revived (Option String)) (.text text)
        (some text) := Json.gives_text rfl
    exact .defaulted h htext

theorem ExtendOptions.ofJson_gives (options : ExtendOptions) :
    Gives (ofJson reading) options.toJson options := by
  obtain ⟨type, name⟩ := options
  have htype : Gives (ColumnType.ofJson reading) type.toJson type := type.ofJson_gives
  cases name with
  | none =>
    exact Json.toRecord_gives (.map (.both (.required rfl htype) (textOrNone_reads rfl)) rfl)
      (by simp) (by simp)
  | some name =>
    exact Json.toRecord_gives (.map (.both (.required rfl htype) (textOrNone_reads rfl)) rfl)
      (by simp) (by simp [textOrNone])

theorem ColumnChange.ofJson_gives (change : ColumnChange) : Gives ofJson change.toJson change := by
  obtain ⟨id, name⟩ := change
  cases id <;> cases name <;>
    exact Json.toRecord_gives
      (.map (.both (textOrNone_reads rfl) (textOrNone_reads rfl)) rfl) (by simp)
      (by simp [textOrNone])

end Arguments

namespace Query

def hasFiniteConstants : Query → Bool
  | .filter _ condition => condition.isFinite
  | .extend _ _ exp _ => exp.isFinite
  | _ => true

-- Every real among the constants of a query is a number.
def FiniteConstants (query : Query) : Prop :=
  query.Everywhere fun node => node.hasFiniteConstants = true

theorem toJsonAll_eq (queries : List Query) : toJsonAll queries = queries.map toJson := by
  induction queries with
  | nil => rfl
  | cons query rest ih => rw [toJsonAll, ih, List.map_cons]

end Query

namespace TypedQuery

-- An operator that accepted its input does so again.
private theorem refusing_ofResult {query : Query} {checked : Except QueryError Schema}
    (h : query.infer = checked) {schema : Schema} (hchecked : checked = .ok schema) :
    Json.refusing (ofResult query checked h) = .ok ⟨query, schema, h.trans hchecked⟩ := by
  subst hchecked
  rfl

-- What is read back of an accepted query, down to some depth of its form.
def RevivedWithin (depth : Nat) (query : Query) (schema : Schema) : Prop :=
  ∀ (h : query.infer = .ok schema) (reading : Reading),
    Gives (ofJsonWithin depth reading) query.toJson ⟨query, schema, h⟩

private theorem tableFields_gives {name : String} (hname : name ≠ "schema") (text : String)
    (schema : Schema) :
    Gives (Json.toRecord (tableFields name))
      (.object [(name, .text text), ("schema", schema.toJson)]) (text, schema) := by
  have hfirst : (Json.object [(name, .text text), ("schema", schema.toJson)]).get? name =
      some (.text text) := by
    simp [Json.get?]
  have hsecond : (Json.object [(name, .text text), ("schema", schema.toJson)]).get? "schema" =
      some schema.toJson := by
    simp [Json.get?, hname]
  exact Json.toRecord_gives
    (.both (.required hfirst (Json.gives_text rfl)) (.required hsecond schema.ofJson_gives))
    (by simpa using hname) (by simp [tableFields])

-- An operator with one input is read back if its input and its arguments are.
theorem revivedWithin_from {α : Type} {form : String} {query input : Query}
    {schema result : Schema} {fields : Fields QueryError α} {arguments : List (String × Json)}
    {value : α} {step : TypedQuery × α → Revived TypedQuery} {depth : Nat}
    (hinput : input.infer = .ok schema)
    (hjson : query.toJson =
      .object (("operator", .text form) :: ("from", input.toJson) :: arguments))
    (hform : form ∈ forms)
    (hdecode : ∀ decode, ofForm decode form =
      fun json => Json.toRecord (fromFields decode fields) json >>= step)
    (hkeys : ("operator" :: "from" :: arguments.map Prod.fst).Nodup)
    (hnames : ∀ entry ∈ arguments, entry.1 ∈ fields.names)
    (hrevived : ∀ {depth}, input.toJson.depth ≤ depth → RevivedWithin depth input schema)
    (hreads : fields.Reads (("from", input.toJson) :: arguments) value)
    (hstep : ∀ h, step (⟨input, schema, hinput⟩, value) = .ok ⟨query, result, h⟩)
    (hdepth : query.toJson.depth ≤ depth) : RevivedWithin depth query result := by
  intro h reading
  rw [hjson] at hdepth ⊢
  obtain ⟨depth, rfl⟩ := Json.exists_depth_of_object hdepth
  obtain ⟨hoperator, hdistinct⟩ := List.nodup_cons.mp hkeys
  have hfrom := hrevived (Json.depth_le_of_object "from" (by simp) hdepth) hinput .held
  have hrecord : Gives (Json.toRecord (fromFields (ofJsonWithin depth .held) fields))
      (.object (("from", input.toJson) :: arguments)) (⟨input, schema, hinput⟩, value) := by
    refine Json.toRecord_gives (.both (.required rfl hfrom) hreads) hdistinct ?_
    simpa [fromFields] using fun key json hentry => Or.inr (hnames (key, json) hentry)
  have hothers : ∀ entry ∈ ("from", input.toJson) :: arguments, entry.1 ≠ "operator" :=
    fun entry hentry heq => hoperator (heq ▸ List.mem_map_of_mem (f := Prod.fst) hentry)
  refine Json.untag_gives hform hothers ?_
  simp only [hdecode]
  exact hrecord.bind (hstep h)

theorem revivedWithin : Query.AcceptedCases fun query schema => query.FiniteConstants →
    ∀ {depth}, query.toJson.depth ≤ depth → RevivedWithin depth query schema where
  table name schema _ {depth} hdepth h reading := by
    obtain ⟨depth, rfl⟩ := Json.exists_depth_of_object hdepth
    exact Json.untag_gives (by simp [forms]) (by simp)
      ((tableFields_gives (by simp) name schema).bind rfl)
  sql text schema _ {depth} hdepth h reading := by
    obtain ⟨depth, rfl⟩ := Json.exists_depth_of_object hdepth
    exact Json.untag_gives (by simp [forms]) (by simp)
      ((tableFields_gives (by simp) text schema).bind rfl)
  project {input ids _ _} hinput hresult ih hfinite _ hdepth :=
    revivedWithin_from hinput rfl (by simp [forms]) (fun _ => rfl) (by simp) (by simp)
      (ih (hfinite.input rfl)) (.required rfl (Json.toList_gives_texts ids))
      (fun _ => refusing_ofResult _ hresult) hdepth
  filter {input condition _ _} hinput hresult ih hfinite _ hdepth :=
    revivedWithin_from hinput rfl (by simp [forms]) (fun _ => rfl) (by simp) (by simp)
      (ih (hfinite.input rfl)) (.required rfl (Filter.ofJson_gives hfinite.self .held))
      (fun _ => refusing_ofResult _ hresult) hdepth
  extend {input id exp options _ _} hinput hresult ih hfinite _ hdepth :=
    revivedWithin_from hinput rfl (by simp [forms]) (fun _ => rfl) (by simp)
      (by simp [extendFields]) (ih (hfinite.input rfl))
      (.both (.required rfl (Json.gives_text rfl))
        (.both (.required rfl (ValueExpr.ofJson_gives hfinite.self .held))
          (.required rfl options.ofJson_gives)))
      (fun _ => refusing_ofResult _ hresult) hdepth
  groupBy {input keys aggs _ _} hinput hresult ih hfinite _ hdepth :=
    revivedWithin_from hinput rfl (by simp [forms]) (fun _ => rfl) (by simp)
      (by simp [groupByFields]) (ih (hfinite.input rfl))
      (.both (.required rfl (Json.toList_gives_texts keys))
        (.required rfl (Json.toList_gives fun aggregate _ => aggregate.ofJson_gives)))
      (fun _ => refusing_ofResult _ hresult) hdepth
  join {lhs rhs on type left right _} hleft hright hresult ihleft ihright hfinite _ hdepth h
      reading := by
    obtain ⟨depth, rfl⟩ := Json.exists_depth_of_object hdepth
    have hlhs := ihleft hfinite.sides.1 (Json.depth_le_of_object "lhs" (by simp) hdepth) hleft .held
    have hrhs := ihright hfinite.sides.2 (Json.depth_le_of_object "rhs" (by simp) hdepth) hright
      .held
    have hrecord : Gives (Json.toRecord (joinFields (ofJsonWithin depth .held)))
        (.object [("lhs", lhs.toJson), ("rhs", rhs.toJson), ("on", .ofTexts on),
          ("joinType", type.toJson)])
        (⟨lhs, left, hleft⟩, ⟨rhs, right, hright⟩, on, type) :=
      Json.toRecord_gives
        (.both (.required rfl hlhs) (.both (.required rfl hrhs)
          (.both (.required rfl (Json.toList_gives_texts on))
            (.required rfl type.ofJson_gives))))
        (by simp) (by simp [joinFields])
    exact Json.untag_gives (by simp [forms]) (by simp)
      (hrecord.bind (refusing_ofResult _ hresult))
  concat {branches schemas _} hbranches hresult hfinite _ hdepth h reading := by
    obtain ⟨depth, rfl⟩ := Json.exists_depth_of_object hdepth
    have hinner : (Json.array (Query.toJsonAll branches)).depth ≤ depth :=
      Json.depth_le_of_object "queries" (by simp) hdepth
    obtain ⟨typed, rfl, rfl⟩ := exists_typed (hbranches.imp fun _ _ hbranch => hbranch.1)
    rw [List.forall₂_map_left_iff, List.forall₂_map_right_iff] at hbranches
    have hmembers : ∀ branch ∈ typed,
        Gives (ofJsonWithin depth .held) branch.toJson branch := fun branch hbranch => by
      have hmem := List.mem_map_of_mem (f := TypedQuery.query) hbranch
      obtain ⟨-, hrevived⟩ := List.forall₂_same.mp hbranches branch hbranch
      refine hrevived (hfinite.branch hmem) ?_ branch.typed .held
      exact Json.depth_le_of_array (Query.toJsonAll_eq _ ▸ List.mem_map_of_mem hmem) hinner
    have hqueries : Query.toJsonAll (typed.map TypedQuery.query) = typed.map toJson := by
      rw [Query.toJsonAll_eq, List.map_map]
      rfl
    have hrecord : Gives
        (Json.toRecord (.required "queries" (Json.toList (ofJsonWithin depth .held))))
        (.object [("queries", .array (Query.toJsonAll (typed.map TypedQuery.query)))]) typed :=
      Json.toRecord_gives (.required rfl (hqueries ▸ Json.toList_gives hmembers)) (by simp)
        (by simp)
    exact Json.untag_gives (by simp [forms]) (by simp)
      (hrecord.bind (refusing_ofResult _ hresult))
  sort {input keys _ _} hinput hresult ih hfinite _ hdepth :=
    revivedWithin_from hinput rfl (by simp [forms]) (fun _ => rfl) (by simp) (by simp)
      (ih (hfinite.input rfl))
      (.required rfl (Json.toList_gives fun key _ => key.ofJson_gives))
      (fun _ => refusing_ofResult _ hresult) hdepth
  mapColumns {input changes _ _} hinput hresult ih hfinite _ hdepth :=
    revivedWithin_from hinput rfl (by simp [forms]) (fun _ => rfl) (by simp) (by simp)
      (ih (hfinite.input rfl))
      (.required rfl (NameMap.ofJson_gives fun change _ => change.ofJson_gives))
      (fun _ => refusing_ofResult _ hresult) hdepth

theorem ofJson_gives (query : TypedQuery) (hfinite : query.query.FiniteConstants) :
    Gives ofJson query.toJson query :=
  fun other hother =>
    revivedWithin.holds query.typed hfinite hother.depth_le query.typed .direct other hother

end TypedQuery

-- A writer and a reader of JSON texts keep a value if the reader finds in the text just what the
-- writer has put there. The writer is free in the order of the entries of objects.
structure Json.Kept (write : Json → String) (read : String → Document) (json : Json) : Prop where
  ended : (read (write json)).ended = true
  reordered : Reordered json (read (write json)).value

-- Reading back what was written of a query accepts it again, and gives the same query.
theorem revival_undoes_serialization (write : Json → String) (read : String → Json.Document)
    (query : TypedQuery) (hfinite : query.query.FiniteConstants)
    (hkept : Json.Kept write read query.toJson) :
    ∃ revived, TypedQuery.ofDocument (read (write query.toJson)) = .ok revived ∧
      revived = query ∧
      revived.query.nodes.map Query.infer = query.query.nodes.map Query.infer ∧
      ∀ (dialect : Dialect) (offset limit : Option Nat),
        dialect.querySql revived offset limit = dialect.querySql query offset limit ∧
          dialect.rowCountSql revived = dialect.rowCountSql query := by
  refine ⟨query, ?_, rfl, rfl, fun _ _ _ => ⟨rfl, rfl⟩⟩
  simp only [TypedQuery.ofDocument, query.ofJson_gives hfinite _ hkept.reordered, hkept.ended]
  rfl

def staffColumns : Schema := ⟨[.ofType "age" .integer], by decide⟩

def staffQuery : TypedQuery :=
  ⟨.filter (.table "staff" staffColumns)
    ⟨.and, [.relation (.binary (.compare .ge) (.column "age") (.constant (.int (-40))))]⟩,
    staffColumns, rfl⟩

def staffJson : Json :=
  .object [("operator", .text "filter"),
    ("from", .object [("operator", .text "table"), ("tableName", .text "staff"),
      ("schema", .object [("columns", .array [.text "age"]),
        ("columnMetadata", .object [("age", .object [("displayName", .text "age"),
          ("columnType", .object [("sqlTypeName", .text "INTEGER"), ("kind", .text "integer"),
            ("defaultAggFn", .text "sum")])])])])]),
    ("fexp", .object [("op", .text "AND"),
      ("opArgs", .array [.object [("expType", .text "RelExp"), ("op", .text "ge"),
        ("lhs", .object [("expType", .text "colRef"), ("colName", .text "age")]),
        ("rhs", .object [("expType", .text "constVal"),
          ("val", .object [("type", .text "int"), ("value", .number (.integer (-40)))])])]])])]

set_option maxRecDepth 8000 in
theorem revival_undoes_serialization_staff :
    staffQuery.query.FiniteConstants ∧
      Json.Kept Json.write Json.Document.ofText staffQuery.toJson ∧
      ∃ revived,
        TypedQuery.ofDocument (Json.Document.ofText staffQuery.toJson.write) = .ok revived ∧
          revived = staffQuery := by
  have hfinite : staffQuery.query.FiniteConstants := by
    unfold Query.FiniteConstants
    decide
  have hjson : staffQuery.toJson = staffJson := rfl
  -- The characters are collected before the text is put together.
  have hread : Json.Document.ofText staffJson.write = ⟨staffJson, true⟩ := by
    simp only [Json.Document.ofText, Json.Token.ofText, staffJson, Json.write, Json.writeEntries,
      Json.writeAll, Json.writeText, List.map_cons, List.map_nil, String.toList_append,
      String.toList_ofList, String.toList_intercalate]
    rfl
  have hkept : Json.Kept Json.write Json.Document.ofText staffQuery.toJson := by
    rw [hjson]
    exact ⟨by rw [hread], by rw [hread]; exact .refl (by rfl)⟩
  obtain ⟨revived, hrevived, hsame, -⟩ :=
    revival_undoes_serialization Json.write Json.Document.ofText staffQuery hfinite hkept
  exact ⟨hfinite, hkept, revived, hrevived, hsame⟩

end PivotQuery
