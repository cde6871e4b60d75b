import PivotQuery.Query.Typed
import PivotQuery.Proofs.Schema.Acceptance

namespace PivotQuery

namespace TypedQuery

theorem ofResult_eq_ok {query : Query} {checked : Except QueryError Schema}
    {h : query.infer = checked} {result : TypedQuery} :
    ofResult query checked h = .ok result ↔
      result.query = query ∧ checked = .ok result.schema := by
  cases checked with
  | error e => simp [ofResult]
  | ok schema =>
    obtain ⟨query', schema', h'⟩ := result
    simp only [ofResult, Except.ok.injEq, TypedQuery.mk.injEq]
    exact and_congr_left' eq_comm

theorem exists_ofResult (query : Query) {checked : Except QueryError Schema}
    (h : query.infer = checked) {schema : Schema} (hchecked : checked = .ok schema) :
    ∃ result, ofResult query checked h = .ok result ∧ result.query = query ∧
      result.schema = schema := by
  subst hchecked
  exact ⟨⟨query, schema, h⟩, rfl, rfl, rfl⟩

theorem exists_typed {queries : List Query} {schemas : List Schema}
    (h : List.Forall₂ (fun query schema => query.infer = .ok schema) queries schemas) :
    ∃ typed : List TypedQuery, typed.map TypedQuery.query = queries ∧
      typed.map TypedQuery.schema = schemas := by
  induction h with
  | nil => exact ⟨[], rfl, rfl⟩
  | @cons query schema _ _ hquery _ ih =>
    obtain ⟨typed, rfl, rfl⟩ := ih
    exact ⟨⟨query, schema, hquery⟩ :: typed, rfl, rfl⟩

-- When an operator can be put on top of a query, and what comes of it.

variable (input : TypedQuery)

theorem exists_project (ids : List String) (h : ∀ id ∈ ids, id ∈ input.schema.ids)
    (hdistinct : ids.Nodup) :
    ∃ result, input.project ids = .ok result ∧ result.query = .project input.query ids ∧
      input.schema.project ids = .ok result.schema := by
  obtain ⟨schema, hschema⟩ := Schema.exists_project h hdistinct
  obtain ⟨result, hresult, hquery, rfl⟩ := exists_ofResult _ _ hschema
  exact ⟨result, hresult, hquery, hschema⟩

theorem exists_filter (condition : Filter) (h : ∀ id ∈ condition.columns, id ∈ input.schema.ids) :
    ∃ result, input.filter condition = .ok result ∧
      result.query = .filter input.query condition ∧ result.schema = input.schema :=
  exists_ofResult _ _ (Schema.filtered_eq_ok h)

theorem exists_extend (id : String) (exp : ValueExpr) (options : ExtendOptions)
    (hcolumns : ∀ column ∈ exp.columns, column ∈ input.schema.ids) (hnew : id ∉ input.schema.ids) :
    ∃ result, input.extend id exp options = .ok result ∧
      result.query = .extend input.query id exp options ∧
      input.schema.extended id exp options = .ok result.schema := by
  obtain ⟨schema, hschema⟩ := Schema.exists_extended options hcolumns hnew
  obtain ⟨result, hresult, hquery, rfl⟩ := exists_ofResult _ _ hschema
  exact ⟨result, hresult, hquery, hschema⟩

theorem exists_groupBy (keys : List String) (aggs : List Aggregate)
    (h : ∀ id ∈ keys ++ aggs.map Aggregate.column, id ∈ input.schema.ids)
    (hdistinct : (keys ++ aggs.map Aggregate.column).Nodup) :
    ∃ result, input.groupBy keys aggs = .ok result ∧
      result.query = .groupBy input.query keys aggs ∧
      input.schema.grouped keys aggs = .ok result.schema := by
  obtain ⟨schema, hschema⟩ := Schema.exists_grouped h hdistinct
  obtain ⟨result, hresult, hquery, rfl⟩ := exists_ofResult _ _ hschema
  exact ⟨result, hresult, hquery, hschema⟩

theorem exists_join (rhs : TypedQuery) (on : List String) (type : JoinType)
    (hkeys : ∀ key ∈ on, ∃ left right, input.schema.type? key = some left ∧
      rhs.schema.type? key = some right ∧ left.joinableWith right = true)
    (hclash : ∀ id ∈ rhs.schema.ids, id ∈ input.schema.ids → id ∈ on) :
    ∃ result, input.join rhs on type = .ok result ∧
      result.query = .join input.query rhs.query on type ∧
      input.schema.joined rhs.schema on = .ok result.schema := by
  obtain ⟨schema, hschema⟩ := Schema.exists_joined hkeys hclash
  obtain ⟨result, hresult, hquery, rfl⟩ := exists_ofResult _ _ hschema
  exact ⟨result, hresult, hquery, hschema⟩

theorem exists_concatAll {first : TypedQuery} {rest : List TypedQuery}
    (h : ∀ other ∈ rest, other.schema.ids.Perm first.schema.ids) :
    ∃ result, concatAll (first :: rest) = .ok result ∧
      result.query = .concat ((first :: rest).map TypedQuery.query) ∧
      Schema.concatenated ((first :: rest).map TypedQuery.schema) = .ok result.schema := by
  have hall : ∀ other ∈ rest.map TypedQuery.schema,
      other.size = first.schema.size ∧ ∀ id ∈ first.schema.ids, id ∈ other.ids := by
    refine List.forall_mem_map.mpr fun other hother => ⟨?_, fun id => (h other hother).mem_iff.mpr⟩
    simpa [Schema.ids, Column.ids, Schema.size] using (h other hother).length_eq
  obtain ⟨schema, hschema⟩ := Schema.exists_concatenated hall
  obtain ⟨result, hresult, hquery, rfl⟩ := exists_ofResult
    (.concat ((first :: rest).map TypedQuery.query)) _ hschema
  exact ⟨result, hresult, hquery, hschema⟩

theorem exists_sort (keys : List SortKey) (h : ∀ key ∈ keys, key.column ∈ input.schema.ids) :
    ∃ result, input.sort keys = .ok result ∧ result.query = .sort input.query keys ∧
      result.schema = input.schema :=
  exists_ofResult _ _ (Schema.sorted_eq_ok h)

end TypedQuery

end PivotQuery
