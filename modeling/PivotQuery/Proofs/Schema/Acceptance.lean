import PivotQuery.Proofs.Schema.Operations

namespace PivotQuery

theorem firstRepeat?_eq_none {earlier names : List String} :
    firstRepeat? earlier names = none ↔ names.Nodup ∧ ∀ name ∈ names, name ∉ earlier := by
  refine ⟨nodup_of_firstRepeat?_eq_none, ?_⟩
  rintro ⟨hdistinct, hfresh⟩
  induction names generalizing earlier with
  | nil => rfl
  | cons name rest ih =>
    obtain ⟨hname, hrest⟩ := List.nodup_cons.mp hdistinct
    obtain ⟨hnew, hothers⟩ := List.forall_mem_cons.mp hfresh
    rw [firstRepeat?, if_neg hnew]
    refine ih hrest fun other hother => ?_
    rintro (_ | ⟨_, hmem⟩)
    · exact hname hother
    · exact hothers other hother hmem

namespace ColumnType

-- Stacked columns keep the type of the first one as long as all the others are of it.
theorem foldl_unify (type : ColumnType) (types : List ColumnType) :
    types.foldl unify type =
      if ∀ other ∈ types, type.sameAs other = true then type else .string := by
  induction types generalizing type with
  | nil => simp
  | cons other rest ih =>
    rw [List.foldl_cons, ih, unify]
    by_cases h : type.sameAs other = true
    · simp [h]
    · simp [h]

end ColumnType

namespace Schema

variable {schema : Schema}

-- What each operator needs so that it accepts its input.

theorem ofColumns_eq_ok {columns : List Column} {result : Schema} :
    ofColumns columns = .ok result ↔ result.columns = columns := by
  refine ⟨columns_of_ofColumns, ?_⟩
  rintro rfl
  unfold ofColumns
  split
  · rename_i id hrepeat
    rw [firstRepeat?_eq_none.mpr ⟨result.distinct, by simp⟩] at hrepeat
    simp at hrepeat
  · rfl

theorem exists_ofColumns {columns : List Column} (h : (Column.ids columns).Nodup) :
    ∃ result, ofColumns columns = .ok result :=
  ⟨⟨columns, h⟩, ofColumns_eq_ok.mpr rfl⟩

theorem exists_columnsOf {ids : List String} (h : ∀ id ∈ ids, id ∈ schema.ids) :
    ∃ columns, schema.columnsOf ids = .ok columns := by
  induction ids with
  | nil => exact ⟨[], rfl⟩
  | cons id rest ih =>
    obtain ⟨hid, hrest⟩ := List.forall_mem_cons.mp h
    obtain ⟨column, hcolumn⟩ := exists_get? hid
    obtain ⟨columns, hcolumns⟩ := ih hrest
    refine ⟨column :: columns, ?_⟩
    simp only [columnsOf, bind_eq_ok, require_eq_ok, pure_eq_ok]
    exact ⟨column, hcolumn, columns, hcolumns, rfl⟩

theorem ids_columnsOf {ids : List String} {columns : List Column}
    (h : schema.columnsOf ids = .ok columns) : Column.ids columns = ids := by
  refine (map_eq_map (columnsOf_eq_ok h) ?_).symm.trans (List.map_id ids)
  intro id column hcolumn
  exact (get?_eq_some.mp hcolumn).2.symm

theorem exists_project {ids : List String} (h : ∀ id ∈ ids, id ∈ schema.ids)
    (hdistinct : ids.Nodup) : ∃ result, schema.project ids = .ok result := by
  obtain ⟨columns, hcolumns⟩ := exists_columnsOf h
  obtain ⟨result, hresult⟩ := exists_ofColumns (ids_columnsOf hcolumns ▸ hdistinct)
  exact ⟨result, bind_eq_ok.mpr ⟨columns, hcolumns, hresult⟩⟩

theorem columns_project {columns : List Column} {result : Schema}
    (h : schema.project (Column.ids columns) = .ok result)
    (hcolumns : ∀ column ∈ columns, column ∈ schema.columns) : result.columns = columns := by
  have hfound : (Column.ids columns).map schema.get? = result.columns.map some :=
    map_eq_map (project_ok h) fun _ _ hcolumn => hcolumn
  have hown : (Column.ids columns).map schema.get? = columns.map some :=
    List.map_map.trans
      (List.map_congr_left fun column hcolumn => get?_of_mem (hcolumns column hcolumn))
  exact List.map_injective_iff.mpr (fun _ _ => Option.some.inj) (hfound.symm.trans hown)

theorem filtered_eq_ok {condition : Filter} (h : ∀ id ∈ condition.columns, id ∈ schema.ids) :
    schema.filtered condition = .ok schema :=
  bind_eq_ok.mpr ⟨(), requireAll_eq_ok.mpr h, rfl⟩

theorem sorted_eq_ok {keys : List SortKey} (h : ∀ key ∈ keys, key.column ∈ schema.ids) :
    schema.sorted keys = .ok schema :=
  bind_eq_ok.mpr ⟨(), requireAll_eq_ok.mpr (List.forall_mem_map.mpr h), rfl⟩

theorem exists_extended {id : String} {exp : ValueExpr} (options : ExtendOptions)
    (hcolumns : ∀ column ∈ exp.columns, column ∈ schema.ids) (hnew : id ∉ schema.ids) :
    ∃ result, schema.extended id exp options = .ok result := by
  have hdistinct : (Column.ids (schema.columns ++
      [⟨id, options.displayName.getD id, options.type⟩])).Nodup := by
    rw [Column.ids, List.map_append]
    exact List.Nodup.append schema.distinct (List.nodup_singleton id)
      (List.disjoint_singleton.mpr hnew)
  obtain ⟨result, hresult⟩ := exists_ofColumns hdistinct
  refine ⟨result, bind_eq_ok.mpr ⟨(), requireAll_eq_ok.mpr hcolumns, ?_⟩⟩
  rw [extend, if_neg (fun hcontains => hnew (contains_iff.mp hcontains))]
  exact hresult

theorem exists_aggregated {aggs : List Aggregate}
    (h : ∀ id ∈ aggs.map Aggregate.column, id ∈ schema.ids) :
    ∃ columns, schema.aggregated aggs = .ok columns := by
  induction aggs with
  | nil => exact ⟨[], rfl⟩
  | cons aggregate rest ih =>
    obtain ⟨hid, hrest⟩ := List.forall_mem_cons.mp h
    obtain ⟨column, hcolumn⟩ := exists_get? hid
    obtain ⟨columns, hcolumns⟩ := ih hrest
    refine ⟨{ column with type := aggregate.agg.resultType column.type } :: columns, ?_⟩
    simp only [aggregated, bind_eq_ok, require_eq_ok, pure_eq_ok]
    exact ⟨column, hcolumn, columns, hcolumns, rfl⟩

theorem ids_aggregated {aggs : List Aggregate} {columns : List Column}
    (h : schema.aggregated aggs = .ok columns) :
    Column.ids columns = aggs.map Aggregate.column := by
  refine (map_eq_map (aggregated_ok h) ?_).symm
  rintro aggregate column ⟨input, hinput, rfl⟩
  exact (get?_eq_some.mp hinput).2.symm

theorem exists_grouped {keys : List String} {aggs : List Aggregate}
    (h : ∀ id ∈ keys ++ aggs.map Aggregate.column, id ∈ schema.ids)
    (hdistinct : (keys ++ aggs.map Aggregate.column).Nodup) :
    ∃ result, schema.grouped keys aggs = .ok result := by
  obtain ⟨hkeys, haggs⟩ := List.forall_mem_append.mp h
  obtain ⟨keyColumns, hkeyColumns⟩ := exists_columnsOf hkeys
  obtain ⟨aggColumns, haggColumns⟩ := exists_aggregated haggs
  have hids : Column.ids (keyColumns ++ aggColumns) = keys ++ aggs.map Aggregate.column := by
    rw [← ids_columnsOf hkeyColumns, ← ids_aggregated haggColumns]
    exact List.map_append
  obtain ⟨result, hresult⟩ := exists_ofColumns (hids ▸ hdistinct)
  exact ⟨result, bind_eq_ok.mpr
    ⟨keyColumns, hkeyColumns, bind_eq_ok.mpr ⟨aggColumns, haggColumns, hresult⟩⟩⟩

theorem mem_grouped_of_key {keys : List String} {aggs : List Aggregate} {result : Schema}
    (h : schema.grouped keys aggs = .ok result) {column : Column}
    (hcolumn : column ∈ schema.columns) (hkey : column.id ∈ keys) : column ∈ result.columns := by
  obtain ⟨keyColumns, aggColumns, hcolumns, hkeys, -⟩ := grouped_ok h
  obtain ⟨found, hfound, hget⟩ := exists_mem_right hkeys hkey
  obtain rfl : column = found := Option.some.inj ((get?_of_mem hcolumn).symm.trans hget)
  exact hcolumns ▸ List.mem_append_left _ hfound

theorem mem_grouped_of_aggregate {keys : List String} {aggs : List Aggregate} {result : Schema}
    (h : schema.grouped keys aggs = .ok result) {column : Column} {agg : AggFn}
    (hcolumn : column ∈ schema.columns) (hagg : ⟨agg, column.id⟩ ∈ aggs) :
    { column with type := agg.resultType column.type } ∈ result.columns := by
  obtain ⟨keyColumns, aggColumns, hcolumns, -, haggs⟩ := grouped_ok h
  obtain ⟨found, hfound, input, hget, rfl⟩ := exists_mem_right haggs hagg
  obtain rfl : column = input := Option.some.inj ((get?_of_mem hcolumn).symm.trans hget)
  exact hcolumns ▸ List.mem_append_right _ hfound

-- What a join puts together has distinct ids, unless another column than a key is on both sides.
theorem exists_ofColumns_joined {lhs rhs : Schema} {on : List String}
    (hclash : ∀ id ∈ rhs.ids, id ∈ lhs.ids → id ∈ on) :
    ∃ result, ofColumns (lhs.columns ++
      rhs.columns.filter fun column => !on.contains column.id) = .ok result := by
  refine exists_ofColumns ?_
  rw [Column.ids, List.map_append]
  refine List.Nodup.append lhs.distinct
    (rhs.distinct.sublist (List.filter_sublist.map Column.id)) ?_
  intro id hleft hright
  obtain ⟨column, hcolumn, rfl⟩ := List.mem_map.mp hright
  obtain ⟨hmem, hnot⟩ := List.mem_filter.mp hcolumn
  have hon := hclash column.id (mem_ids.mpr ⟨column, hmem, rfl⟩) hleft
  simp [hon] at hnot

theorem exists_joined {lhs rhs : Schema} {on : List String}
    (hkeys : ∀ key ∈ on, ∃ left right, lhs.type? key = some left ∧ rhs.type? key = some right ∧
      left.joinableWith right = true) (hclash : ∀ id ∈ rhs.ids, id ∈ lhs.ids → id ∈ on) :
    ∃ result, lhs.joined rhs on = .ok result := by
  have hnone : rhs.columns.find? (fun column =>
      lhs.contains column.id && !on.contains column.id) = none := by
    rw [List.find?_eq_none]
    intro column hcolumn
    have hon := hclash column.id (mem_ids.mpr ⟨column, hcolumn, rfl⟩)
    simpa [contains_iff] using hon
  obtain ⟨result, hresult⟩ := exists_ofColumns_joined hclash
  refine ⟨result, bind_eq_ok.mpr ⟨(), requireJoinable_eq_ok.mpr hkeys, ?_⟩⟩
  rw [hnone]
  exact hresult

theorem ids_joined {lhs rhs result : Schema} {on : List String}
    (h : lhs.joined rhs on = .ok result) :
    result.ids = lhs.ids ++ rhs.ids.filter fun id => !on.contains id := by
  rw [ids, Column.ids, (joined_ok h).1, List.map_append, ids, ids, Column.ids, Column.ids,
    List.filter_map]
  rfl

theorem exists_unifyColumns (first : Schema) {other : Schema} {columns : List Column}
    (h : ∀ id ∈ Column.ids columns, id ∈ other.ids) :
    ∃ unified, unifyColumns first other columns = .ok unified := by
  induction columns with
  | nil => exact ⟨[], rfl⟩
  | cons column rest ih =>
    obtain ⟨hid, hrest⟩ := List.forall_mem_cons.mp h
    obtain ⟨type, htype⟩ := exists_type? hid
    obtain ⟨unified, hunified⟩ := ih hrest
    refine ⟨{ column with type := column.type.unify type } :: unified, ?_⟩
    simp only [unifyColumns, htype, bind_eq_ok, pure_eq_ok]
    exact ⟨unified, hunified, rfl⟩

-- A stack has the ids of its first branch, so they are distinct.
theorem exists_ofColumns_stacked {first : Schema} {rest : List Schema} {unified : List Column}
    (h : stacked first first.columns rest = .ok unified) :
    ∃ result, ofColumns unified = .ok result := by
  have hids : Column.ids unified = first.ids := (stacked_ok h).1
  exact exists_ofColumns (hids ▸ first.distinct)

-- Every branch of a stack has as many columns as the first one, and those of the first one.
theorem exists_concatenated {first : Schema} {rest : List Schema}
    (h : ∀ other ∈ rest, other.size = first.size ∧ ∀ id ∈ first.ids, id ∈ other.ids) :
    ∃ result, concatenated (first :: rest) = .ok result := by
  suffices hstacked : ∀ columns, Column.ids columns = first.ids →
      ∃ unified, stacked first columns rest = .ok unified by
    obtain ⟨unified, hunified⟩ := hstacked first.columns rfl
    obtain ⟨result, hresult⟩ := exists_ofColumns_stacked hunified
    exact ⟨result, bind_eq_ok.mpr ⟨unified, hunified, hresult⟩⟩
  induction rest with
  | nil => exact fun columns _ => ⟨columns, rfl⟩
  | cons other rest ih =>
    obtain ⟨⟨hsize, hids⟩, hrest⟩ := List.forall_mem_cons.mp h
    intro columns hcolumns
    obtain ⟨next, hnext⟩ := exists_unifyColumns first (hcolumns ▸ hids)
    obtain ⟨unified, hunified⟩ :=
      ih hrest next ((unifyColumns_stacks hnext).1.trans hcolumns)
    exact ⟨unified, by rw [stacked, if_pos hsize]; exact bind_eq_ok.mpr ⟨next, hnext, hunified⟩⟩

-- A stacked column is that of the first branch, but the types of all are unified one after the
-- other.
theorem columns_concatenated {first result : Schema} {rest : List Schema}
    (h : concatenated (first :: rest) = .ok result) :
    result.columns = first.columns.map fun column =>
      { column with
        type := (rest.filterMap fun other => other.type? column.id).foldl ColumnType.unify
          column.type } := by
  simp only [concatenated, bind_eq_ok] at h
  obtain ⟨unified, hunified, hresult⟩ := h
  rw [columns_of_ofColumns hresult]
  suffices hstacked : ∀ columns, stacked first columns rest = .ok unified →
      unified = columns.map fun column =>
        { column with
          type := (rest.filterMap fun other => other.type? column.id).foldl ColumnType.unify
            column.type } from hstacked first.columns hunified
  clear hunified
  induction rest with
  | nil =>
    intro columns h
    obtain rfl : columns = unified := by simpa [stacked] using h
    simp
  | cons other rest ih =>
    intro columns h
    simp only [stacked] at h
    split at h
    case isTrue =>
      obtain ⟨next, hnext, hrest⟩ := bind_eq_ok.mp h
      refine (ih next hrest).trans (map_eq_map (unifyColumns_ok hnext) ?_).symm
      rintro column result ⟨type, htype, rfl⟩
      simp only [List.filterMap_cons, htype, List.foldl_cons]
    case isFalse => simp at h

end Schema

end PivotQuery
