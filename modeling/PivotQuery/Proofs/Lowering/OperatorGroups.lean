import PivotQuery.Proofs.Lowering.OperatorRows

namespace PivotQuery.Sql.Select

variable {V : Type} {engine : Engine V} {select : Select} {schema result : Schema}
variable {selects : List Select}

section Rowwise

theorem Rowwise.plain (source : Source) :
    (plain (schema.columns.map Item.ofColumn) source).Rowwise engine := by
  intro _ item hitem
  obtain ⟨column, -, rfl⟩ := List.mem_map.mp hitem
  rfl

theorem Rowwise.wrap (selects : List Select) : (wrap selects schema).Rowwise engine :=
  Rowwise.plain _

theorem Rowwise.wrapOrdered : (select.wrapOrdered schema).Rowwise engine :=
  Rowwise.wrap [select.exposedInner]

theorem Rowwise.reuse (schema : Schema) (mergeable : Select → Bool)
    (h : ∀ select ∈ selects, select.Rowwise engine) :
    (reuse mergeable schema selects).Rowwise engine :=
  reuse_cases (fun select hselect _ => h select (by simp [hselect])) (Rowwise.wrap selects)

theorem Rowwise.reuseOrdered (schema : Schema) (mergeable : Select → Bool)
    (h : ∀ select ∈ selects, select.Rowwise engine) :
    (reuseOrdered mergeable schema selects).Rowwise engine :=
  reuseOrdered_cases (fun select hselect _ => h select (by simp [hselect])) (Rowwise.wrap selects)
    (fun _ _ => Rowwise.wrapOrdered)

theorem Rowwise.project {ids : List String} (h : select.Rowwise engine) :
    (select.projected ids).Rowwise engine := by
  intro hgroup item hitem
  obtain ⟨id, -, hid⟩ := List.mem_filterMap.mp hitem
  exact h hgroup item (name_of_item? hid).1

theorem Rowwise.filter {condition : Filter} (h : select.Rowwise engine) :
    (select.filtered condition).Rowwise engine := h

theorem Rowwise.extend {id : String} {exp : ValueExpr} {type : ColumnType}
    (h : select.Rowwise engine) : (select.extended id exp type).Rowwise engine :=
  fun hgroup => List.forall_mem_append.mpr ⟨h hgroup, List.forall_mem_singleton.mpr rfl⟩

theorem Rowwise.group {keys : List String} {aggs : List Aggregate} (hkeys : keys ≠ []) :
    (select.grouped schema keys aggs).Rowwise engine :=
  fun hgroup => absurd hgroup hkeys

theorem Rowwise.sort {keys : List SortKey} (h : select.Rowwise engine) :
    (select.sorted keys).Rowwise engine := h

theorem Rowwise.mapColumns {changes : NameMap ColumnChange} (h : select.Rowwise engine) :
    (select.mapped changes).Rowwise engine := by
  intro hgroup item hitem
  obtain ⟨old, hold, rfl⟩ := List.mem_map.mp hitem
  exact h hgroup old hold

theorem Rowwise.ofJoin {left : Schema} {lhs rhs : List Select} {type : JoinType}
    {on : List String} : (ofJoin schema left lhs rhs type on).Rowwise engine := by
  intro _ item hitem
  obtain ⟨column, -, rfl⟩ := List.mem_map.mp hitem
  rfl

theorem Rowwise.align {target : Schema} (h : select.Rowwise engine) :
    (select.align target).Rowwise engine := by
  intro hgroup item hitem
  obtain ⟨column, -, hcolumn⟩ := List.mem_filterMap.mp hitem
  obtain ⟨own, hown, rfl⟩ := Option.map_eq_some_iff.mp hcolumn
  have hcollapses := h hgroup own (name_of_item? hown).1
  unfold castTo
  split
  · exact hcollapses
  · simpa [Exp.collapses] using hcollapses

theorem Rowwise.branch (hlowered : Sql.Lowered selects schema)
    (h : ∀ select ∈ selects, select.Rowwise engine) :
    ∀ select ∈ branch schema selects, select.Rowwise engine :=
  branch_cases hlowered (fun select hselect _ => h select hselect) (Rowwise.wrap selects)

end Rowwise

-- What is hidden are columns of the source, which aggregate nothing.
theorem Lowered.hidden_collapses (h : select.Lowered schema) :
    ∀ item ∈ select.hidden, item.exp.collapses engine = false := by
  intro item hitem
  obtain ⟨id, hexp⟩ := h.hidden item hitem
  simp [hexp, Exp.collapses]

variable [DecidableEq V] {db : Database V}

theorem groups_eq (h : select.Rowwise engine) (hgroup : select.groupBy = []) :
    select.groups engine db = (select.sourceRows engine db).map fun row => [row] := by
  have hany : (select.items.any fun item => item.exp.collapses engine) = false := by
    simpa using h hgroup
  simp [groups, groupsOf, hgroup, hany]

private theorem sourceRows_congr {a b : Select} (hsource : b.source = a.source)
    (hcondition : b.condition = a.condition) : b.sourceRows engine db = a.sourceRows engine db := by
  rw [sourceRows, sourceRows, hsource, hcondition]

-- Of the select list, the groups depend only on whether it makes one row of everything.
theorem groups_congr_items {a b : Select} (hsource : b.source = a.source)
    (hcondition : b.condition = a.condition) (hgroup : b.groupBy = a.groupBy)
    (hitems : a.groupBy = [] → (b.items.any fun item => item.exp.collapses engine) =
      a.items.any fun item => item.exp.collapses engine) :
    b.groups engine db = a.groups engine db := by
  have hrows : b.sourceRows engine db = a.sourceRows engine db :=
    sourceRows_congr hsource hcondition
  by_cases h : a.groupBy = []
  · simp only [groups, groupsOf, hgroup, h, hrows, hitems h]
  · simp [groups, groupsOf, hgroup, h, hrows]

theorem groups_congr {a b : Select} (ha : a.Rowwise engine) (hb : b.Rowwise engine)
    (hsource : b.source = a.source) (hcondition : b.condition = a.condition)
    (hgroup : b.groupBy = a.groupBy) : b.groups engine db = a.groups engine db := by
  refine groups_congr_items hsource hcondition hgroup fun h => ?_
  rw [List.any_eq_false.mpr (by simpa using hb (hgroup.trans h)),
    List.any_eq_false.mpr (by simpa using ha h)]

-- A filter that goes into a select keeps the source rows for which it holds.
theorem sourceRows_filtered (condition : Filter) :
    (select.filtered condition).sourceRows engine db =
      (select.sourceRows engine db).filter fun row => condition.holds engine (row.get engine) := by
  simp only [sourceRows, List.filter_filter]
  refine List.filter_congr fun row _ => ?_
  cases hold : select.condition with
  | none => simp [filtered, satisfies, hold]
  | some earlier => simp [filtered, satisfies, hold, Filter.holds_both, Bool.and_comm]

-- Each group is one source row, and the filter reads only what is handed on from it.
theorem groups_filtered {condition : Filter} (h : select.Rowwise engine)
    (hgroup : select.groupBy = []) (hpass : select.passesThrough condition.columns = true) :
    (select.filtered condition).groups engine db =
      (select.groups engine db).filter fun group =>
        condition.holds engine ((valueRow engine select.items group).get engine) := by
  have hholds : ∀ row : SourceRow V,
      condition.holds engine ((valueRow engine select.items [row]).get engine) =
        condition.holds engine (row.get engine) :=
    fun row => Filter.holds_congr (get_of_passesThrough hpass [row])
  rw [groups_eq h.filter hgroup, groups_eq h hgroup, sourceRows_filtered, List.filter_map]
  refine congrArg (List.map _) (List.filter_congr fun row _ => ?_)
  exact (hholds row).symm

theorem rows_plain {source : Source}
    (hnames : ∀ row ∈ source.rows engine db, Row.names (row.left ++ row.right) = schema.ids) :
    (plain (schema.columns.map Item.ofColumn) source).rows engine db =
      (source.rows engine db).map fun row => row.left ++ row.right := by
  rw [rows_unsorted (Lowered.plain source).all_isLowered rfl, groups_eq (Rowwise.plain source) rfl]
  have hrows : (Select.plain (schema.columns.map Item.ofColumn) source).sourceRows engine db =
      source.rows engine db :=
    List.filter_eq_self.mpr fun row _ => rfl
  rw [hrows, List.map_map]
  apply List.map_congr_left
  intro row hrow
  exact (valueRow_ofColumn schema.columns [row]).trans (Row.project_ids (hnames row hrow))

theorem rows_table (name : String) :
    (plain (schema.columns.map Item.ofColumn) (.table name schema)).rows engine db =
      (db.table name).map schema.row := by
  rw [rows_plain] <;> simp [Source.rows, Function.comp_def, Schema.row, Row.names]

theorem rows_sql (text : String) :
    (plain (schema.columns.map Item.ofColumn) (.sql text schema)).rows engine db =
      (db.sql text).map schema.row := by
  rw [rows_plain] <;> simp [Source.rows, Function.comp_def, Schema.row, Row.names]

theorem rows_wrap (h : Sql.Lowered selects schema) :
    (wrap selects schema).rows engine db = rowsOfAll engine db selects := by
  have hnames : ∀ row ∈ (Source.subquery selects).rows engine db,
      Row.names (row.left ++ row.right) = schema.ids := by
    intro row hrow
    obtain ⟨inner, hinner, rfl⟩ := List.mem_map.mp hrow
    rw [List.append_nil]
    exact h.names_of_mem_rows hinner
  rw [wrap, rows_plain hnames]
  simp [Source.rows, Function.comp_def]

theorem groups_exposedInner (h : select.Lowered schema) :
    select.exposedInner.groups engine db = select.groups engine db := by
  refine groups_congr_items rfl rfl rfl fun _ => ?_
  have hhidden : (select.hidden.zipIdx.any fun entry => entry.1.exp.collapses engine) = false :=
    List.any_eq_false.mpr fun entry hentry => by
      simp [h.hidden_collapses entry.1 (List.fst_mem_of_mem_zipIdx hentry)]
  rw [exposedInner, List.any_append, List.any_map]
  simp only [Function.comp_def, hhidden, Bool.or_false]

theorem groups_wrapOrdered (hlowered : select.Lowered schema) :
    (select.wrapOrdered schema).groups engine db =
      (select.groups engine db).map fun group =>
        [⟨valueRow engine select.exposedInner.items group, []⟩] := by
  have hexps : ∀ item ∈ select.exposedInner.items ++ select.exposedInner.hidden,
      item.exp.isLowered = true := by
    rw [show select.exposedInner.hidden = [] from rfl, List.append_nil]
    refine List.forall_mem_append.mpr ⟨hlowered.exps, fun item hitem => ?_⟩
    obtain ⟨⟨own, index⟩, hentry, rfl⟩ := List.mem_map.mp hitem
    exact hlowered.all_isLowered own (List.mem_append_right _
      (List.mem_of_getElem? (List.mem_zipIdx_iff_getElem?.mp hentry)))
  have hinner : select.exposedInner.rows engine db =
      (select.groups engine db).map (valueRow engine select.exposedInner.items) := by
    rw [rows_unsorted hexps rfl, groups_exposedInner hlowered]
  have hsource : (select.wrapOrdered schema).sourceRows engine db =
      (select.groups engine db).map fun group =>
        ⟨valueRow engine select.exposedInner.items group, []⟩ := by
    have hcondition : (select.wrapOrdered schema).condition = none := rfl
    simp [sourceRows, Source.rows, hinner, satisfies, hcondition, Function.comp_def]
  rw [groups_eq Rowwise.wrapOrdered rfl, hsource, List.map_map]
  rfl

theorem groups_extended_wrapOrdered (hlowered : select.Lowered schema) (id : String)
    (exp : ValueExpr) (type : ColumnType) :
    ((select.wrapOrdered schema).extended id exp type).groups engine db =
      (select.groups engine db).map fun group =>
        [⟨valueRow engine select.exposedInner.items group, []⟩] := by
  have hwrapped : (select.wrapOrdered schema).Rowwise engine := Rowwise.wrapOrdered
  rw [groups_congr hwrapped hwrapped.extend rfl rfl rfl, groups_wrapOrdered hlowered]

end PivotQuery.Sql.Select
