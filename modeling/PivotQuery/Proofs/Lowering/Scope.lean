import PivotQuery.Proofs.Lowering.Operators
import PivotQuery.Query.Typed

namespace PivotQuery

namespace Sql

mutual

-- A select with all selects inside it.
def Select.nested : Select → List Select
  | ⟨items, source, condition, groupBy, orderBy, hidden⟩ =>
    ⟨items, source, condition, groupBy, orderBy, hidden⟩ :: source.nested

def Source.nested : Source → List Select
  | .table _ _ | .sql _ _ => []
  | .subquery selects => nestedSelects selects
  | .join lhs rhs _ _ => nestedSelects lhs ++ nestedSelects rhs

def nestedSelects : List Select → List Select
  | [] => []
  | select :: rest => select.nested ++ nestedSelects rest

end

-- The columns of a union are named by its first select.
def columnNames : List Select → List String
  | [] => []
  | select :: _ => select.names

namespace Source

def queries : Source → List (List Select)
  | .table _ _ | .sql _ _ => []
  | .subquery selects => [selects]
  | .join lhs rhs _ _ => [lhs, rhs]

-- The columns that names without a side can mean.
def columns : Source → List String
  | .table _ schema | .sql _ schema => schema.ids
  | .subquery selects => columnNames selects
  | .join lhs rhs _ _ => columnNames lhs ++ columnNames rhs

def sideColumns : Source → JoinSide → List String
  | .join lhs _ _ _, .left => columnNames lhs
  | .join _ rhs _ _, .right => columnNames rhs
  | _, _ => []

def joinKeys : Source → List String
  | .join _ _ _ on => on
  | _ => []

end Source

namespace Exp

def columns : Exp → List String
  | .value exp => exp.columns
  | .aggregate _ id _ => [id]
  | .cast exp _ => exp.columns
  | .rowNumber keys => keys.map SortKey.column
  | .joinColumn _ _ | .countStar => []

def joinColumns : Exp → List (JoinSide × String)
  | .joinColumn side id => [(side, id)]
  | .cast exp _ => exp.joinColumns
  | _ => []

end Exp

-- What the item refers to is there: plain names are columns of the source, and the column
-- of a side is one of that side.
structure Item.ResolvesIn (source : Source) (item : Item) : Prop where
  columns : ∀ id ∈ item.exp.columns, id ∈ source.columns
  sides : ∀ entry ∈ item.exp.joinColumns, entry.2 ∈ source.sideColumns entry.1

namespace Select

-- Every name in a select means something there. The branches of the queries that it reads
-- agree in their columns, so it does not matter which of them names the columns.
structure Scoped (select : Select) : Prop where
  branches : ∀ query ∈ select.source.queries, query ≠ [] ∧
    ∀ branch ∈ query, branch.names = columnNames query
  items : ∀ item ∈ select.items, item.ResolvesIn select.source
  hidden : ∀ item ∈ select.hidden, item.ResolvesIn select.source
  condition : ∀ filter ∈ select.condition, ∀ id ∈ filter.columns, id ∈ select.source.columns
  groupBy : ∀ id ∈ select.groupBy, id ∈ select.source.columns
  on : ∀ key ∈ select.source.joinKeys,
    key ∈ select.source.sideColumns .left ∧ key ∈ select.source.sideColumns .right
  orderBy : ∀ key ∈ select.orderBy, ∃ item ∈ select.items ++ select.hidden,
    item.name = key.column

end Select

def Resolves (selects : List Select) : Prop := ∀ select ∈ nestedSelects selects, select.Scoped

theorem mem_nestedSelects {selects : List Select} {inner : Select} :
    inner ∈ nestedSelects selects ↔ ∃ select ∈ selects, inner ∈ select.nested := by
  induction selects with
  | nil => simp [nestedSelects]
  | cons select rest ih => simp [nestedSelects, ih]

theorem mem_nested {select inner : Select} :
    inner ∈ select.nested ↔ inner = select ∨ inner ∈ select.source.nested := by
  cases select
  simp [Select.nested]

theorem resolves_iff {selects : List Select} :
    Resolves selects ↔
      ∀ select ∈ selects, select.Scoped ∧ ∀ inner ∈ select.source.nested, inner.Scoped := by
  constructor
  · intro h select hselect
    refine ⟨?_, fun inner hinner => ?_⟩
    · exact h select (mem_nestedSelects.mpr ⟨select, hselect, mem_nested.mpr (Or.inl rfl)⟩)
    · exact h inner (mem_nestedSelects.mpr ⟨select, hselect, mem_nested.mpr (Or.inr hinner)⟩)
  · intro h inner hinner
    obtain ⟨select, hselect, hinner⟩ := mem_nestedSelects.mp hinner
    rcases mem_nested.mp hinner with rfl | hinner
    · exact (h inner hselect).1
    · exact (h select hselect).2 inner hinner

theorem Lowered.names_eq {selects : List Select} {schema : Schema} (h : Lowered selects schema) :
    ∀ select ∈ selects, select.names = schema.ids :=
  fun select hselect => (h.each select hselect).fits.names_eq

theorem Lowered.columnNames_eq {selects : List Select} {schema : Schema}
    (h : Lowered selects schema) : columnNames selects = schema.ids := by
  obtain ⟨select, rest, rfl⟩ := List.exists_cons_of_ne_nil h.nonempty
  exact h.names_eq select List.mem_cons_self

theorem Lowered.branches_agree {selects : List Select} {schema : Schema}
    (h : Lowered selects schema) :
    selects ≠ [] ∧ ∀ branch ∈ selects, branch.names = columnNames selects :=
  ⟨h.nonempty, fun branch hbranch =>
    (h.names_eq branch hbranch).trans h.columnNames_eq.symm⟩

theorem resolvesIn_column {source : Source} {id : String} {type : ColumnType}
    (h : id ∈ source.columns) : (Item.column id type).ResolvesIn source where
  columns := by simpa [Item.column, Exp.columns, ValueExpr.columns] using h
  sides := by simp [Item.column, Exp.joinColumns]

namespace Select

variable {select : Select} {schema result : Schema} {selects : List Select}

-- The order of a lowered select needs no proof of its own.
theorem Lowered.orderBy_resolves (h : select.Lowered schema) :
    ∀ key ∈ select.orderBy, ∃ item ∈ select.items ++ select.hidden, item.name = key.column := by
  intro key hkey
  rcases h.keys key hkey with hid | hhides
  · obtain ⟨column, hcolumn, hid⟩ := Schema.mem_ids.mp hid
    obtain ⟨item, hitem, hname, -⟩ := exists_mem_left h.fits hcolumn
    exact ⟨item, List.mem_append_left _ hitem, hname.trans hid⟩
  · obtain ⟨item, hitem, hname⟩ := hides_iff.mp hhides
    exact ⟨item, List.mem_append_right _ hitem, hname⟩

theorem Scoped.mem_source (h : select.Scoped) {ids : List String}
    (hpass : select.passesThrough ids = true) : ∀ id ∈ ids, id ∈ select.source.columns := by
  intro id hid
  obtain ⟨item, hitem, hexp⟩ := isIdentityAt_iff.mp (List.all_eq_true.mp hpass id hid)
  refine (h.items item (name_of_item? hitem).1).columns id ?_
  simp [hexp, Exp.columns, ValueExpr.columns]

theorem Scoped.plain {source : Source} (hbranches : ∀ query ∈ source.queries, query ≠ [] ∧
    ∀ branch ∈ query, branch.names = columnNames query) (hkeys : source.joinKeys = [])
    (h : ∀ id ∈ schema.ids, id ∈ source.columns) :
    (plain (schema.columns.map Item.ofColumn) source).Scoped where
  branches := hbranches
  items := by
    intro item hitem
    obtain ⟨column, hcolumn, rfl⟩ := List.mem_map.mp hitem
    exact resolvesIn_column (h _ (Schema.mem_ids.mpr ⟨column, hcolumn, rfl⟩))
  hidden := by simp [Select.plain]
  condition := by simp [Select.plain]
  groupBy := by simp [Select.plain]
  on := by simp [Select.plain, hkeys]
  orderBy := by simp [Select.plain]

theorem Scoped.wrap (h : Sql.Lowered selects schema) : (wrap selects schema).Scoped := by
  refine Scoped.plain (fun query hquery => ?_) rfl fun id hid => ?_
  · obtain rfl := List.mem_singleton.mp hquery
    exact h.branches_agree
  · rw [Source.columns, h.columnNames_eq]
    exact hid

-- The hidden columns are written out in the subquery, where they mean what they meant.
theorem Scoped.exposedInner (h : select.Scoped) : select.exposedInner.Scoped where
  branches := h.branches
  items := by
    refine List.forall_mem_append.mpr ⟨h.items, fun item hitem => ?_⟩
    obtain ⟨⟨own, index⟩, hentry, rfl⟩ := List.mem_map.mp hitem
    have hown := h.hidden own (List.mem_of_getElem? (List.mem_zipIdx_iff_getElem?.mp hentry))
    exact ⟨hown.columns, hown.sides⟩
  hidden := by simp [Select.exposedInner]
  condition := h.condition
  groupBy := h.groupBy
  on := h.on
  orderBy := by simp [Select.exposedInner]

theorem names_exposedInner :
    select.exposedInner.names =
      select.names ++ select.hidden.zipIdx.map fun entry => orderColumn entry.2 := by
  simp [Select.exposedInner, names]

theorem Scoped.wrapOrdered (hlowered : select.Lowered schema) :
    (select.wrapOrdered schema).Scoped where
  branches := by
    intro query hquery
    obtain rfl := List.mem_singleton.mp hquery
    exact ⟨by simp, by simp [columnNames]⟩
  items := by
    intro item hitem
    obtain ⟨column, hcolumn, rfl⟩ := List.mem_map.mp hitem
    refine resolvesIn_column ?_
    rw [wrapOrdered_source, Source.columns, columnNames, names_exposedInner,
      hlowered.fits.names_eq]
    exact List.mem_append_left _ (Schema.mem_ids.mpr ⟨column, hcolumn, rfl⟩)
  hidden := by
    intro item hitem
    rw [wrapOrdered_hidden] at hitem
    obtain ⟨entry, hentry, rfl⟩ := List.mem_map.mp hitem
    refine resolvesIn_column ?_
    rw [wrapOrdered_source, Source.columns, columnNames, names_exposedInner]
    exact List.mem_append_right _ (List.mem_map.mpr ⟨entry, hentry, rfl⟩)
  condition _ hfilter := by cases hfilter
  groupBy _ hid := by cases hid
  on := by simp [Source.joinKeys]
  orderBy := hlowered.wrapOrdered.orderBy_resolves

-- A select in scope over a source whose own selects are in scope.
def Resolved (select : Select) : Prop :=
  select.Scoped ∧ ∀ inner ∈ select.source.nested, inner.Scoped

theorem Resolved.wrap (hlowered : Sql.Lowered selects schema) (h : Resolves selects) :
    (wrap selects schema).Resolved :=
  ⟨Scoped.wrap hlowered, h⟩

theorem Resolved.wrapOrdered (hlowered : select.Lowered schema) (h : select.Resolved) :
    (select.wrapOrdered schema).Resolved := by
  refine ⟨Scoped.wrapOrdered hlowered, fun inner hinner => ?_⟩
  have hnested : inner ∈ select.exposedInner.nested := by
    simpa [Source.nested, nestedSelects] using hinner
  rcases mem_nested.mp hnested with rfl | hinner
  · exact h.1.exposedInner
  · exact h.2 inner hinner

theorem Resolved.reuse (mergeable : Select → Bool) (hlowered : Sql.Lowered selects schema)
    (h : Resolves selects) : (reuse mergeable schema selects).Resolved :=
  reuse_cases (fun select hselect _ => resolves_iff.mp h select (by simp [hselect]))
    (Resolved.wrap hlowered h)

theorem Resolved.reuseOrdered (mergeable : Select → Bool) (hlowered : Sql.Lowered selects schema)
    (h : Resolves selects) : (reuseOrdered mergeable schema selects).Resolved :=
  reuseOrdered_cases (fun select hselect _ => resolves_iff.mp h select (by simp [hselect]))
    (Resolved.wrap hlowered h)
    (fun select hselect => Resolved.wrapOrdered (hlowered.each select (by simp [hselect]))
      (resolves_iff.mp h select (by simp [hselect])))

theorem Resolved.project {ids : List String} (h : select.Resolved)
    (hlowered : (select.projected ids).Lowered result) : (select.projected ids).Resolved := by
  refine ⟨⟨h.1.branches, fun item hitem => ?_, fun item hitem => ?_, h.1.condition, h.1.groupBy,
    h.1.on, hlowered.orderBy_resolves⟩, h.2⟩
  · obtain ⟨id, -, hid⟩ := List.mem_filterMap.mp hitem
    exact h.1.items item (name_of_item? hid).1
  · rcases List.mem_append.mp hitem with hitem | hitem
    · exact h.1.hidden item hitem
    · obtain ⟨key, -, hkey⟩ := List.mem_filterMap.mp hitem
      exact h.1.items item (name_of_item? hkey).1

theorem Resolved.filter {condition : Filter} (h : select.Resolved)
    (hpass : select.passesThrough condition.columns = true) :
    (select.filtered condition).Resolved := by
  refine ⟨⟨h.1.branches, h.1.items, h.1.hidden, fun filter hfilter id hid => ?_, h.1.groupBy,
    h.1.on, h.1.orderBy⟩, h.2⟩
  have hnew := h.1.mem_source hpass
  simp only [filtered, Option.mem_def, Option.some.injEq] at hfilter
  split at hfilter
  · rename_i earlier hearlier
    subst hfilter
    have hboth : id ∈ earlier.columns ++ condition.columns := by
      simpa [Filter.columns, Filter.both, Filter.toClause, Clause.columnsOfAll, Clause.columns]
        using hid
    rcases List.mem_append.mp hboth with hid | hid
    · exact h.1.condition earlier hearlier id hid
    · exact hnew id hid
  · subst hfilter
    exact hnew id hid

theorem Resolved.extend {id : String} {exp : ValueExpr} {type : ColumnType} (h : select.Resolved)
    (hpass : select.passesThrough exp.columns = true)
    (hlowered : (select.extended id exp type).Lowered result) :
    (select.extended id exp type).Resolved := by
  refine ⟨⟨h.1.branches, List.forall_mem_append.mpr ⟨h.1.items, ?_⟩, h.1.hidden, h.1.condition,
    h.1.groupBy, h.1.on, hlowered.orderBy_resolves⟩, h.2⟩
  have hnew := h.1.mem_source hpass
  exact List.forall_mem_singleton.mpr ⟨hnew, by simp [Exp.joinColumns]⟩

theorem Resolved.group {keys : List String} {aggs : List Aggregate} (h : select.Resolved)
    (hpass : select.passesThrough (keys ++ aggs.map Aggregate.column) = true)
    (hlowered : (select.grouped schema keys aggs).Lowered result) :
    (select.grouped schema keys aggs).Resolved := by
  have hnew := h.1.mem_source hpass
  refine ⟨⟨h.1.branches, List.forall_mem_append.mpr ⟨fun item hitem => ?_, fun item hitem => ?_⟩,
    h.1.hidden, h.1.condition, fun id hid => hnew id (List.mem_append_left _ hid), h.1.on,
    hlowered.orderBy_resolves⟩, h.2⟩
  · obtain ⟨id, hid, hitem⟩ := List.mem_filterMap.mp hitem
    obtain ⟨type, -, rfl⟩ := Option.map_eq_some_iff.mp hitem
    exact resolvesIn_column (hnew id (List.mem_append_left _ hid))
  · obtain ⟨aggregate, haggregate, hitem⟩ := List.mem_filterMap.mp hitem
    obtain ⟨type, -, rfl⟩ := Option.map_eq_some_iff.mp hitem
    have hid := hnew _ (List.mem_append_right _ (List.mem_map_of_mem haggregate))
    exact ⟨List.forall_mem_singleton.mpr hid, by simp [Exp.joinColumns]⟩

theorem Resolved.sort {keys : List SortKey} (h : select.Resolved)
    (hlowered : (select.sorted keys).Lowered result) : (select.sorted keys).Resolved :=
  ⟨⟨h.1.branches, h.1.items, by simp [sorted], h.1.condition, h.1.groupBy, h.1.on,
    hlowered.orderBy_resolves⟩, h.2⟩

theorem Resolved.mapColumns {changes : NameMap ColumnChange} (h : select.Resolved)
    (hlowered : (select.mapped changes).Lowered result) : (select.mapped changes).Resolved := by
  refine ⟨⟨h.1.branches, fun item hitem => ?_, h.1.hidden, h.1.condition, h.1.groupBy, h.1.on,
    hlowered.orderBy_resolves⟩, h.2⟩
  obtain ⟨old, hold, rfl⟩ := List.mem_map.mp hitem
  exact ⟨(h.1.items old hold).columns, (h.1.items old hold).sides⟩

@[simp] theorem ofJoin_source {left : Schema} {lhs rhs : List Select} {type : JoinType}
    {on : List String} : (ofJoin schema left lhs rhs type on).source = .join lhs rhs type on := rfl

theorem Resolved.ofJoin {left right : Schema} {lhs rhs : List Select} {type : JoinType}
    {on : List String} (hlhs : Sql.Lowered lhs left) (hrhs : Sql.Lowered rhs right)
    (hresult : left.joined right on = .ok result) (hl : Resolves lhs) (hr : Resolves rhs) :
    (ofJoin result left lhs rhs type on).Resolved := by
  obtain ⟨hcolumns, hkeys, -⟩ := Schema.joined_ok hresult
  have hleft := hlhs.columnNames_eq
  have hright := hrhs.columnNames_eq
  refine ⟨⟨fun query hquery => ?_, fun item hitem => ?_, by simp [Select.ofJoin, Select.plain],
    by simp [Select.ofJoin, Select.plain], by simp [Select.ofJoin, Select.plain],
    fun key hkey => ?_, by simp [Select.ofJoin, Select.plain]⟩, fun inner hinner => ?_⟩
  · rw [ofJoin_source] at hquery
    have hquery : query = lhs ∨ query = rhs := by simpa [Source.queries] using hquery
    rcases hquery with rfl | rfl
    · exact hlhs.branches_agree
    · exact hrhs.branches_agree
  · obtain ⟨column, hcolumn, rfl⟩ := List.mem_map.mp hitem
    refine ⟨by simp [Exp.columns], List.forall_mem_singleton.mpr ?_⟩
    by_cases hside : left.contains column.id = true
    · simpa [Source.sideColumns, hside, hleft]
        using Schema.contains_iff.mp hside
    · -- what is not on the left comes from the right
      have hmem : column ∈ left.columns ++ right.columns.filter _ := hcolumns ▸ hcolumn
      have hcolumn : column ∈ right.columns := by
        rcases List.mem_append.mp hmem with hmem | hmem
        · exact absurd (Schema.contains_iff.mpr (Schema.mem_ids.mpr ⟨column, hmem, rfl⟩)) hside
        · exact (List.mem_filter.mp hmem).1
      simpa [Source.sideColumns, hside, hright]
        using Schema.mem_ids.mpr ⟨column, hcolumn, rfl⟩
  · simpa [Source.sideColumns, hleft, hright] using hkeys key hkey
  · rcases List.mem_append.mp hinner with hinner | hinner
    · exact hl inner hinner
    · exact hr inner hinner

theorem castTo_columns (type : ColumnType) (item : Item) :
    (castTo type item).exp.columns = item.exp.columns := by
  unfold castTo
  split <;> rfl

theorem castTo_joinColumns (type : ColumnType) (item : Item) :
    (castTo type item).exp.joinColumns = item.exp.joinColumns := by
  unfold castTo
  split <;> rfl

theorem Resolved.align (h : select.Resolved) (hlowered : (select.align result).Lowered result) :
    (select.align result).Resolved := by
  refine ⟨⟨h.1.branches, fun item hitem => ?_, h.1.hidden, h.1.condition, h.1.groupBy, h.1.on,
    hlowered.orderBy_resolves⟩, h.2⟩
  obtain ⟨column, -, hcolumn⟩ := List.mem_filterMap.mp hitem
  obtain ⟨own, hown, rfl⟩ := Option.map_eq_some_iff.mp hcolumn
  have hresolves := h.1.items own (name_of_item? hown).1
  refine ⟨?_, ?_⟩
  · rw [castTo_columns]
    exact hresolves.columns
  · rw [castTo_joinColumns]
    exact hresolves.sides

end Select

theorem resolves_single {select : Select} (h : select.Resolved) : Resolves [select] :=
  resolves_iff.mpr (List.forall_mem_singleton.mpr h)

end Sql

end PivotQuery
