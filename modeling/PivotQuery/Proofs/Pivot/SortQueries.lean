import PivotQuery.Proofs.Pivot.Union

namespace PivotQuery

namespace PivotTree

-- The columns by which the groups of a level are told apart.
def levelColumns (tree : PivotTree) (level : Nat) : List NewColumn :=
  (tree.pivots.take (level + 1)).zipIdx.map fun (pivot, i) =>
    .string (pathColumn i) (.asString (.column pivot))

-- A column of the base under the name that a sort key has for a level.
def keyColumn (tree : PivotTree) (level : Nat) (entry : SortKey × Nat) : NewColumn :=
  ⟨sortKeyColumn level entry.2, .column entry.1.column,
    (tree.base.schema.type? entry.1.column).getD .string⟩

def keyColumns (tree : PivotTree) (level : Nat) : List NewColumn :=
  tree.sortKey.zipIdx.map (tree.keyColumn level)

variable {tree : PivotTree} {level : Nat}

theorem addSortKeys_eq {query : TypedQuery} {keys : List (SortKey × Nat)}
    (h : ∀ entry ∈ keys, entry.1.column ∈ tree.outColumns) :
    tree.addSortKeys level query keys = query.extendAll (keys.map (tree.keyColumn level)) := by
  induction keys generalizing query with
  | nil => rfl
  | cons entry rest ih =>
    obtain ⟨key, index⟩ := entry
    obtain ⟨hkey, hrest⟩ := List.forall_mem_cons.mp h
    obtain ⟨column, hcolumn⟩ := Schema.exists_get? hkey
    have htype : tree.keyColumn level (key, index) =
        ⟨sortKeyColumn level index, .column key.column, column.type⟩ := by
      simp [keyColumn, Schema.type?, hcolumn]
    rw [addSortKeys, Schema.require_eq_ok.mpr hcolumn, List.map_cons, ← List.singleton_append,
      TypedQuery.extendAll_append, htype]
    exact congrArg _ (funext fun _ => ih hrest)

theorem ids_levelColumns (h : level < tree.pivots.length) :
    (tree.levelColumns level).map NewColumn.id = (List.range (level + 1)).map pathColumn := by
  have hids : (tree.levelColumns level).map NewColumn.id =
      ((tree.pivots.take (level + 1)).zipIdx.map Prod.snd).map pathColumn := by
    rw [levelColumns, List.map_map, List.map_map]
    rfl
  rw [hids, List.zipIdx_map_snd, List.length_take, Nat.min_eq_left h, List.range_eq_range']

theorem exists_levelColumn (h : level < tree.pivots.length) {i : Nat} (hi : i ≤ level) :
    ∃ pivot, tree.pivots[i]? = some pivot ∧
      .string (pathColumn i) (.asString (.column pivot)) ∈ tree.levelColumns level := by
  have hlt : i < tree.pivots.length := by omega
  have hlevel : i < level + 1 := by omega
  refine ⟨tree.pivots[i], List.getElem?_eq_getElem hlt, List.mem_map.mpr
    ⟨(tree.pivots[i], i), List.mem_zipIdx_iff_getElem?.mpr ?_, rfl⟩⟩
  simp [hlevel, hlt]

theorem ids_keyColumns : (tree.keyColumns level).map NewColumn.id = tree.sortKeyIds level := by
  simp [keyColumns, keyColumn, sortKeyIds, Function.comp_def]

-- The columns of a sort query are all different, as they are in the sorted tree.
theorem nodup_sortColumns (hnodup : tree.displayColumns.Nodup) (h : level < tree.pivots.length) :
    (tree.outColumns ++
      ((List.range (level + 1)).map pathColumn ++ tree.sortKeyIds level)).Nodup := by
  have hpaths : ((List.range (level + 1)).map pathColumn).Sublist
      ((List.range tree.pivots.length).map pathColumn) :=
    (List.range_sublist.mpr h).map pathColumn
  have hkeys : (tree.sortKeyIds level).Sublist
      ((List.range tree.pivots.length).flatMap tree.sortKeyIds) := by
    rw [List.flatMap_def]
    exact List.sublist_flatten_of_mem (List.mem_map_of_mem (List.mem_range.mpr h))
  have hall : ((List.range (level + 1)).map pathColumn ++ tree.outColumns ++
      tree.sortKeyIds level).Sublist tree.displayColumns := by
    refine List.Sublist.append (List.Sublist.append ?_ (List.Sublist.refl _)) hkeys
    exact (hpaths.trans (List.sublist_append_right _ _)).trans (List.sublist_append_left _ _)
  refine (List.Perm.nodup_iff ?_).mpr (hnodup.sublist hall)
  rw [← List.append_assoc]
  exact List.perm_append_comm.append_right _

variable {V : Type} [DecidableEq V] {engine : Engine V} {texts : engine.Texts}
variable {db : Database V} {rows : Multiset (Row V)}

omit [DecidableEq V] in
-- A group has rows exactly if its path is the start of the path of one.
theorem mem_starts_iff {path : Path} {length : Nat} (hlength : path.length = length) :
    path ∈ (rows.map fun row => (tree.pathOf texts row).take length).dedup ↔
      tree.members texts rows path ≠ 0 := by
  rw [Multiset.mem_dedup, Multiset.mem_map, Ne, Multiset.eq_zero_iff_forall_notMem, not_forall]
  simp only [not_not, mem_members, List.prefix_iff_eq_take, hlength]
  exact exists_congr fun row => and_congr_right fun _ => eq_comm

variable (engine) in
-- A row of the base with its place down to a level and the values of the sort key.
def sortedRow (tree : PivotTree) (level : Nat) (row : Row V) : Row V :=
  row ++ (tree.levelColumns level ++ tree.keyColumns level).map (NewColumn.entry engine row)

theorem names_sortedRow (h : level < tree.pivots.length) {row : Row V}
    (hrow : row ∈ tree.base.query.bag engine db) :
    (tree.sortedRow engine level row).names =
      tree.outColumns ++ ((List.range (level + 1)).map pathColumn ++ tree.sortKeyIds level) := by
  rw [sortedRow, Row.names_append, TypedQuery.names_of_mem_bag hrow, ← ids_levelColumns h,
    ← ids_keyColumns, ← List.map_append, Row.names, List.map_map]
  rfl

omit [DecidableEq V] in
theorem pathRow_subset (h : level < tree.pivots.length) (row : Row V) :
    ∀ entry ∈ pathRow engine ((tree.pathOf texts row).take (level + 1)) (level + 1),
      entry ∈ tree.sortedRow engine level row := by
  refine List.forall_mem_map.mpr fun i hi => List.mem_append_right _ ?_
  have hlevel : i < level + 1 := List.mem_range.mp hi
  obtain ⟨pivot, hpivot, hmem⟩ := exists_levelColumn h (Nat.le_of_lt_succ hlevel)
  refine List.mem_map.mpr ⟨_, List.mem_append_left _ hmem, Prod.ext rfl ?_⟩
  simp [NewColumn.entry, NewColumn.string, ValueExpr.eval, pathOf, hlevel, hpivot,
    texts.component_asText]

omit [DecidableEq V] in
theorem keyValue_mem (row : Row V) {entry : SortKey × Nat} (h : entry ∈ tree.sortKey.zipIdx) :
    (sortKeyColumn level entry.2, row.get engine entry.1.column) ∈
      tree.sortedRow engine level row :=
  List.mem_append_right _ (List.mem_map.mpr
    ⟨tree.keyColumn level entry, List.mem_append_right _ (List.mem_map_of_mem h), rfl⟩)

-- The values of the sort key for the group at a path, with the path.
def levelRow (texts : engine.Texts) (tree : PivotTree) (rows : Multiset (Row V)) (level : Nat)
    (path : Path) : Row V :=
  pathRow engine path (level + 1) ++ tree.sortKey.zipIdx.map fun (key, index) =>
    (sortKeyColumn level index, tree.value texts rows (.group path) key.column)

omit [DecidableEq V] in
theorem names_levelRow (path : Path) :
    (tree.levelRow texts rows level path).names =
      (List.range (level + 1)).map pathColumn ++ tree.sortKeyIds level := by
  rw [levelRow, Row.names_append, names_pathRow]
  simp [Row.names, sortKeyIds, Function.comp_def]

def sortAggregates (tree : PivotTree) (level : Nat) : List Aggregate :=
  tree.sortKey.zipIdx.map fun (key, index) => ⟨tree.aggFn key.column, sortKeyColumn level index⟩

-- Grouped by their places, the rows give the values of the sort key for all groups of a level.
theorem groupRows_sorted (hnodup : tree.displayColumns.Nodup) (h : level < tree.pivots.length) :
    groupRows engine ((List.range (level + 1)).map pathColumn) (tree.sortAggregates level)
        ((tree.base.query.bag engine db).map (tree.sortedRow engine level)) =
      ((tree.base.query.bag engine db).map fun row =>
        (tree.pathOf texts row).take (level + 1)).dedup.map
          (tree.levelRow texts (tree.base.query.bag engine db) level) := by
  have hnames : ∀ row ∈ tree.base.query.bag engine db,
      (tree.sortedRow engine level row).names.Nodup := fun row hrow =>
    names_sortedRow h hrow ▸ nodup_sortColumns hnodup h
  have hlength : ∀ row : Row V, ((tree.pathOf texts row).take (level + 1)).length = level + 1 := by
    intro row
    rw [List.length_take, length_pathOf]
    exact Nat.min_eq_left h
  refine (groupRows_map (fun path => pathRow engine path (level + 1)) (by simp)
    (fun row hrow => ?_) (fun a _ b _ heq => ?_)).trans
      (Multiset.map_congr rfl fun path hpath => ?_)
  · have hpath : (pathRow engine ((tree.pathOf texts row).take (level + 1)) (level + 1)).names =
        (List.range (level + 1)).map pathColumn := names_pathRow _ _
    rw [← hpath]
    exact Row.project_of_subset (hnames row hrow) fun entry hentry =>
      pathRow_subset h row entry hentry
  · have hsame := (pathRow_inj texts).mp heq
    rwa [levelPath_eq_take (hlength a).ge, levelPath_eq_take (hlength b).ge, List.take_take,
      List.take_take, Nat.min_self] at hsame
  · obtain ⟨row, -, rfl⟩ := Multiset.mem_map.mp (Multiset.mem_dedup.mp hpath)
    refine congrArg _ ?_
    have hmembers : (tree.base.query.bag engine db).filter (fun other =>
          (tree.pathOf texts other).take (level + 1) = (tree.pathOf texts row).take (level + 1)) =
        tree.members texts (tree.base.query.bag engine db)
          ((tree.pathOf texts row).take (level + 1)) := by
      refine Multiset.filter_congr fun other _ => ?_
      rw [List.prefix_iff_eq_take, hlength, eq_comm]
    rw [aggregateRow, sortAggregates, List.map_map, hmembers]
    refine List.map_congr_left fun entry hentry => ?_
    simp only [Function.comp_apply, Multiset.map_map, value, TreeNode.path]
    refine Prod.ext rfl
      (congrArg (engine.aggregate _) (Multiset.map_congr rfl fun other hother => ?_))
    exact Row.get_of_mem (hnames other (mem_members.mp hother).1) (keyValue_mem other hentry)

variable (engine db) in
-- The rows of the base get their places and the values of the sort key.
theorem exists_keyed (hformed : tree.WellFormed) (hnodup : tree.displayColumns.Nodup)
    (h : level < tree.pivots.length) :
    ∃ located keyed, tree.base.extendAll (tree.levelColumns level) = .ok located ∧
      tree.addSortKeys level located tree.sortKey.zipIdx = .ok keyed ∧
      keyed.schema.columns = tree.base.schema.columns ++
        (tree.levelColumns level ++ tree.keyColumns level).map NewColumn.column ∧
      keyed.query.bag engine db =
        (tree.base.query.bag engine db).map (tree.sortedRow engine level) := by
  have hkeys : ∀ entry ∈ tree.sortKey.zipIdx, entry.1.column ∈ tree.outColumns :=
    fun entry hentry => hformed.sortKey _ (List.fst_mem_of_mem_zipIdx hentry)
  have hlevels : ∀ new ∈ tree.levelColumns level, ∀ id ∈ new.exp.columns, id ∈ tree.outColumns := by
    refine List.forall_mem_map.mpr fun entry hentry => List.forall_mem_singleton.mpr ?_
    exact hformed.pivots _ (List.mem_of_mem_take (List.fst_mem_of_mem_zipIdx hentry))
  have hvalues : ∀ new ∈ tree.keyColumns level, ∀ id ∈ new.exp.columns, id ∈ tree.outColumns :=
    List.forall_mem_map.mpr fun entry hentry => List.forall_mem_singleton.mpr (hkeys entry hentry)
  have hdistinct : (tree.outColumns ++
      (tree.levelColumns level ++ tree.keyColumns level).map NewColumn.id).Nodup := by
    rw [List.map_append, ids_levelColumns h, ids_keyColumns]
    exact nodup_sortColumns hnodup h
  obtain ⟨keyed, hkeyed, hcolumns, hbag⟩ := TypedQuery.exists_extendAll engine db tree.base
    (tree.levelColumns level ++ tree.keyColumns level)
    (List.forall_mem_append.mpr ⟨hlevels, hvalues⟩) hdistinct
  rw [TypedQuery.extendAll_append, bind_eq_ok] at hkeyed
  obtain ⟨located, hlocated, hkeyed⟩ := hkeyed
  rw [keyColumns, ← addSortKeys_eq hkeys] at hkeyed
  exact ⟨located, keyed, hlocated, hkeyed, hcolumns, hbag⟩

variable (texts db) in
theorem exists_sortQuery (hformed : tree.WellFormed) (hnodup : tree.displayColumns.Nodup)
    (h : level < tree.pivots.length) :
    ∃ keys, tree.sortQuery (level + 1) = .ok keys ∧
      keys.schema.ids = (List.range (level + 1)).map pathColumn ++ tree.sortKeyIds level ∧
      (∀ i ≤ level, .ofType (pathColumn i) .string ∈ keys.schema.columns) ∧
      keys.query.bag engine db =
        ((tree.base.query.bag engine db).map fun row =>
          (tree.pathOf texts row).take (level + 1)).dedup.map
            (tree.levelRow texts (tree.base.query.bag engine db) level) := by
  obtain ⟨located, keyed, hlocated, hkeyed, hcolumns, hbag⟩ :=
    exists_keyed engine db hformed hnodup h
  have haggs : (tree.sortAggregates level).map Aggregate.column = tree.sortKeyIds level := by
    simp [sortAggregates, sortKeyIds, Function.comp_def]
  have hids : keyed.schema.ids =
      tree.outColumns ++ ((List.range (level + 1)).map pathColumn ++ tree.sortKeyIds level) := by
    rw [Schema.ids, hcolumns, Column.ids, List.map_append, ← Column.ids, ← Column.ids,
      TypedQuery.ids_map_column, List.map_append, ids_levelColumns h, ids_keyColumns]
    rfl
  obtain ⟨keys, hgroups, hquery, hschema⟩ := TypedQuery.exists_groupBy keyed
    ((List.range (level + 1)).map pathColumn) (tree.sortAggregates level)
    (fun id hid => hids ▸ List.mem_append_right _ (haggs ▸ hid))
    (haggs ▸ (List.nodup_append'.mp (nodup_sortColumns hnodup h)).2.1)
  refine ⟨keys, ?_, (Schema.ids_grouped hschema).trans (haggs ▸ rfl), fun i hi => ?_, ?_⟩
  · rw [sortQuery, if_neg (not_le.mpr h), mapError_eq_ok]
    exact bind_eq_ok.mpr ⟨located, hlocated, bind_eq_ok.mpr ⟨keyed, hkeyed, hgroups⟩⟩
  · refine Schema.mem_grouped_of_key hschema ?_
      (List.mem_map_of_mem (List.mem_range.mpr (Nat.lt_succ_of_le hi)))
    obtain ⟨pivot, -, hmem⟩ := exists_levelColumn h hi
    exact hcolumns ▸ List.mem_append_right _
      (List.mem_map_of_mem (f := NewColumn.column) (List.mem_append_left _ hmem))
  · rw [hquery, Query.bag, hbag]
    exact groupRows_sorted hnodup h

end PivotTree

end PivotQuery
