import PivotQuery.Proofs.Rows.Row
import PivotQuery.Proofs.Query.Acceptance
import PivotQuery.Proofs.Schema.Acceptance
import PivotQuery.Proofs.Lowering.OperatorRows

namespace PivotQuery

variable {V : Type} {engine : Engine V}

namespace Row

theorem get_of_mem {row : Row V} {id : String} {value : V} (hdistinct : row.names.Nodup)
    (h : (id, value) ∈ row) : row.get engine id = value := by
  obtain ⟨front, back, rfl⟩ := List.append_of_mem h
  have hfront : id ∉ names front := by
    rw [names_append] at hdistinct
    exact fun hid => List.disjoint_of_nodup_append hdistinct hid List.mem_cons_self
  rw [get_append_right hfront]
  simp [get]

theorem mem_get {row : Row V} {id : String} (h : id ∈ row.names) :
    (id, row.get engine id) ∈ row := by
  have hsome : (row.lookup id).isSome := by
    rw [List.lookup_isSome_iff]
    obtain ⟨entry, hentry, rfl⟩ := List.mem_map.mp h
    exact ⟨entry, hentry, by simp⟩
  obtain ⟨value, hvalue⟩ := Option.isSome_iff_exists.mp hsome
  obtain ⟨front, back, rfl, -⟩ := List.lookup_eq_some_iff.mp hvalue
  rw [get, hvalue]
  simp

-- A row is read in parts without loss.
theorem project_of_subset {row part : Row V} (hdistinct : row.names.Nodup)
    (h : ∀ entry ∈ part, entry ∈ row) : row.project engine part.names = part := by
  rw [project, names, List.map_map]
  refine (List.map_congr_left fun entry hentry => ?_).trans (List.map_id part)
  exact Prod.ext rfl (get_of_mem hdistinct (h entry hentry))

@[simp] theorem names_project (ids : List String) (row : Row V) :
    names (row.project engine ids) = ids := by
  simp [names, project, Function.comp_def]

@[simp] theorem names_extend (id : String) (exp : ValueExpr) (row : Row V) :
    names (row.extend engine id exp) = names row ++ [id] :=
  names_append row _

@[simp] theorem names_rename (changes : NameMap ColumnChange) (row : Row V) :
    names (row.rename changes) = row.names.map (newId changes) := by
  simp [names, rename, Function.comp_def]

@[simp] theorem names_align (branch target : Schema) (row : Row V) :
    names (row.align engine branch target) = target.ids := by
  simp [names, align, Schema.ids, Column.ids, Function.comp_def]

@[simp] theorem names_schemaRow (schema : Schema) (record : String → V) :
    names (schema.row record) = schema.ids := by
  simp [names, Schema.row, Function.comp_def]

end Row

variable [DecidableEq V] {db : Database V}

theorem names_of_mem_groupRows {keys : List String} {aggs : List Aggregate}
    {rows : Multiset (Row V)} {row : Row V} (h : row ∈ groupRows engine keys aggs rows) :
    row.names = keys ++ aggs.map Aggregate.column := by
  obtain ⟨group, hgroup, rfl⟩ := Multiset.mem_map.mp h
  have hkeys : Row.names group = keys := by
    split at hgroup
    · rename_i hnil
      obtain rfl := Multiset.mem_singleton.mp hgroup
      exact hnil.symm
    · obtain ⟨member, -, rfl⟩ := Multiset.mem_map.mp (Multiset.mem_dedup.mp hgroup)
      exact Row.names_project keys member
  rw [Row.names_append, hkeys, Row.names, List.map_map]
  rfl

theorem names_of_mem_joinRows {type : JoinType} {on columns : List String}
    {lhs rhs : Multiset (Row V)} {row : Row V}
    (h : row ∈ joinRows engine type on columns lhs rhs) :
    ∃ left ∈ lhs, row.names = left.names ++ columns.filter fun id => !on.contains id := by
  obtain ⟨left, hleft, hrow⟩ := Multiset.mem_bind.mp h
  refine ⟨left, hleft, ?_⟩
  have hjoined : ∀ matching : Multiset (Row V),
      row ∈ matching.map (fun right =>
        left ++ right.project engine (columns.filter fun id => !on.contains id)) →
      row.names = left.names ++ columns.filter fun id => !on.contains id := by
    intro matching hmem
    obtain ⟨right, -, rfl⟩ := Multiset.mem_map.mp hmem
    rw [Row.names_append, Row.names_project]
  cases type with
  | inner => exact hjoined _ hrow
  | leftOuter =>
    simp only at hrow
    split at hrow
    · obtain rfl := Multiset.mem_singleton.mp hrow
      simp [Row.names, Function.comp_def]
    · exact hjoined _ hrow

theorem mem_bagOfAll {target : Schema} {queries : List Query} {row : Row V} :
    row ∈ Query.bagOfAll engine db target queries ↔
      ∃ query ∈ queries, ∃ own ∈ query.bag engine db,
        own.align engine query.schema target = row := by
  induction queries with
  | nil => simp [Query.bagOfAll]
  | cons query rest ih => simp [Query.bagOfAll, ih]

-- Every row of an accepted query has exactly the columns of its schema, in their order.
theorem Query.names_of_bag : AcceptedCases fun query schema =>
    ∀ row ∈ query.bag engine db, row.names = schema.ids where
  table name schema row hrow := by
    obtain ⟨record, -, rfl⟩ := List.mem_map.mp (Multiset.mem_coe.mp hrow)
    exact Row.names_schemaRow schema record
  sql text schema row hrow := by
    obtain ⟨record, -, rfl⟩ := List.mem_map.mp (Multiset.mem_coe.mp hrow)
    exact Row.names_schemaRow schema record
  project _ h _ row hrow := by
    obtain ⟨own, -, rfl⟩ := Multiset.mem_map.mp hrow
    rw [Row.names_project, Schema.project_ids h]
  filter _ h ih row hrow := by
    rw [(Schema.filtered_ok h).1]
    exact ih row (Multiset.mem_filter.mp hrow).1
  extend _ h ih row hrow := by
    obtain ⟨own, hown, rfl⟩ := Multiset.mem_map.mp hrow
    rw [Row.names_extend, ih own hown, Schema.ids_extended h]
  groupBy _ h _ row hrow := by
    rw [names_of_mem_groupRows hrow, Schema.ids_grouped h]
  join _ hright h ih _ row hrow := by
    obtain ⟨left, hleft, hnames⟩ := names_of_mem_joinRows hrow
    rw [hnames, ih left hleft, Query.schema_of_infer hright, Schema.ids_joined h]
  concat hbranches h row hrow := by
    obtain ⟨query, -, own, -, rfl⟩ := mem_bagOfAll.mp hrow
    have hinfer := infer_concat (hbranches.imp fun _ _ hbranch => hbranch.1) h
    rw [Row.names_align, Query.schema_of_infer hinfer]
  sort _ h ih row hrow := by
    rw [(Schema.sorted_ok h).1]
    exact ih row hrow
  mapColumns _ h ih row hrow := by
    obtain ⟨own, hown, rfl⟩ := Multiset.mem_map.mp hrow
    rw [Row.names_rename, ih own hown, funext (Sql.Select.newId_eq_renamed _),
      Sql.Select.ids_mapped h]

end PivotQuery
