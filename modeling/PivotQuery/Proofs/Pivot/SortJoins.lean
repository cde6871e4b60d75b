import PivotQuery.Proofs.Pivot.SortQueries

namespace PivotQuery

namespace PivotTree

variable {tree : PivotTree} {level : Nat}

-- As far as they are joined, the columns of a sorted tree are all different.
theorem nodup_joined (hnodup : tree.displayColumns.Nodup) (h : level ≤ tree.pivots.length) :
    (tree.columns ++ (List.range level).flatMap tree.sortKeyIds).Nodup :=
  hnodup.sublist ((List.Sublist.refl _).append ((List.range_sublist.mpr h).flatMap _))

theorem pathColumns_subset (h : level ≤ tree.pivots.length) :
    ∀ id ∈ (List.range level).map pathColumn, id ∈ tree.columns := by
  refine List.forall_mem_map.mpr fun i hi => List.mem_append_left _ (List.mem_append_left _
    (List.mem_append_right _ (List.mem_map_of_mem (List.mem_range.mpr ?_))))
  exact (List.mem_range.mp hi).trans_le h

-- No sort key has a column of the tree, or of a level before.
theorem sortKeyIds_disjoint (hnodup : tree.displayColumns.Nodup)
    (h : level < tree.pivots.length) :
    (tree.columns ++ (List.range level).flatMap tree.sortKeyIds).Disjoint
      (tree.sortKeyIds level) := by
  have hnext := nodup_joined hnodup (Nat.succ_le_of_lt h)
  rw [List.range_succ, List.flatMap_append, ← List.append_assoc, List.flatMap_singleton] at hnext
  exact (List.nodup_append'.mp hnext).2.2

-- Only the values of the sort key are added by a join.
theorem filter_added {on added : List String} (h : (on ++ added).Nodup) :
    (on ++ added).filter (fun id => !on.contains id) = added := by
  have hnone : on.filter (fun id => !on.contains id) = [] :=
    List.filter_eq_nil_iff.mpr fun id hid => by simpa using hid
  have hall : added.filter (fun id => !on.contains id) = added := by
    refine List.filter_eq_self.mpr fun id hid => ?_
    have hnot : id ∉ on := fun hon => List.disjoint_of_nodup_append h hon hid
    simpa using hnot
  rw [List.filter_append, hnone, hall, List.nil_append]

theorem nodup_sortIds (hnodup : tree.displayColumns.Nodup) (h : level < tree.pivots.length) :
    ((List.range (level + 1)).map pathColumn ++ tree.sortKeyIds level).Nodup :=
  (List.nodup_append'.mp (nodup_sortColumns hnodup h)).2.1

-- The part of the display order that is about a level, the part before it, and what is in front
-- of all levels.

def levelOrder (tree : PivotTree) (level : Nat) : List SortKey :=
  [⟨sortValColumn level, true⟩] ++
    tree.sortKey.zipIdx.map (fun (key, index) => ⟨sortKeyColumn level index, key.ascending⟩) ++
    [⟨pathColumn level, true⟩]

def orderAbove (tree : PivotTree) (level : Nat) : List SortKey :=
  (if tree.showsRoot then [⟨isRootColumn, false⟩] else []) ++
    (List.range level).flatMap tree.levelOrder

theorem displayOrder_eq : tree.displayOrder =
    tree.orderAbove tree.pivots.length ++ [⟨sortValColumn tree.pivots.length, true⟩] ++
      tree.sortKey :=
  rfl

theorem mem_levelOrder {key : SortKey} : key ∈ tree.levelOrder level ↔
    key = ⟨sortValColumn level, true⟩ ∨
      (∃ entry ∈ tree.sortKey.zipIdx, key = ⟨sortKeyColumn level entry.2, entry.1.ascending⟩) ∨
      key = ⟨pathColumn level, true⟩ := by
  simp only [levelOrder, List.mem_append, List.mem_singleton, List.mem_map, or_assoc, eq_comm]

-- The sorted tree is ordered by columns that it has.
private theorem displayOrder_mem (hformed : tree.WellFormed) :
    ∀ key ∈ tree.displayOrder, key.column ∈ tree.displayColumns := by
  have hcolumn : ∀ id ∈ tree.columns, id ∈ tree.displayColumns :=
    fun id hid => List.mem_append_left _ hid
  have hmark : ∀ i < tree.pivots.length + 1, sortValColumn i ∈ tree.columns := fun i hi =>
    List.mem_append_left _ (List.mem_append_right _ (List.mem_map_of_mem (List.mem_range.mpr hi)))
  have hlevel : ∀ i < tree.pivots.length, ∀ key ∈ tree.levelOrder i,
      key.column ∈ tree.displayColumns := by
    intro i hi key hkey
    rcases mem_levelOrder.mp hkey with rfl | ⟨entry, hentry, rfl⟩ | rfl
    · exact hcolumn _ (hmark i (by omega))
    · exact List.mem_append_right _ (List.mem_flatMap.mpr ⟨i, List.mem_range.mpr hi,
        List.mem_map_of_mem (f := fun entry : SortKey × Nat => sortKeyColumn i entry.2) hentry⟩)
    · exact hcolumn _ (pathColumns_subset le_rfl _ (List.mem_map_of_mem (List.mem_range.mpr hi)))
  rw [displayOrder_eq, orderAbove]
  simp only [List.forall_mem_append, List.forall_mem_singleton]
  refine ⟨⟨⟨fun key hkey => ?_, fun key hkey => ?_⟩, hcolumn _ (hmark _ (by omega))⟩,
    fun key hkey => hcolumn _ (List.mem_append_right _ (hformed.sortKey key hkey))⟩
  · split at hkey
    · obtain rfl := List.mem_singleton.mp hkey
      exact hcolumn _ (List.mem_append_left _ (by simp))
    · simp at hkey
  · obtain ⟨i, hi, hkey⟩ := List.mem_flatMap.mp hkey
    exact hlevel i (List.mem_range.mp hi) key hkey

variable {V : Type} [DecidableEq V] {engine : Engine V} {texts : engine.Texts}
variable {db : Database V} {rows : Multiset (Row V)} {opened : PathTree}

variable (texts) in
include texts in
private theorem keysMatch_paths {left right : Row V} (path other : Path) {length : Nat}
    (hleft : ∀ i < length, left.get engine (pathColumn i) = engine.component path[i]?.join)
    (hright : ∀ i < length, right.get engine (pathColumn i) = engine.component other[i]?.join) :
    keysMatch engine ((List.range length).map pathColumn) left right =
      decide (levelPath path length = levelPath other length) := by
  rw [Bool.eq_iff_iff, keysMatch, List.all_eq_true, List.forall_mem_map, decide_eq_true_eq,
    levelPath, levelPath, List.map_inj_left]
  refine forall_congr' fun i => forall_congr' fun hi => ?_
  have hlt := List.mem_range.mp hi
  rw [hleft i hlt, hright i hlt, texts.sameKey_component, decide_eq_true_eq]

theorem get_joinedRow_path (hnodup : tree.displayColumns.Nodup)
    (hlevel : level ≤ tree.pivots.length) (node : TreeNode V) {i : Nat}
    (hi : i < tree.pivots.length) :
    (tree.joinedRow texts rows opened level node).get engine (pathColumn i) =
      engine.component node.path[i]?.join := by
  refine Row.get_of_mem ?_ (List.mem_append_left _ (List.mem_append_left _ (List.mem_append_left _
    (List.mem_append_right _ (List.mem_map_of_mem (List.mem_range.mpr hi))))))
  rw [names_joinedRow]
  exact nodup_joined hnodup hlevel

omit [DecidableEq V] in
theorem nodup_levelRow (hnodup : tree.displayColumns.Nodup) (h : level < tree.pivots.length)
    (path : Path) : (tree.levelRow texts rows level path).names.Nodup := by
  rw [names_levelRow]
  exact nodup_sortIds hnodup h

-- The values of the sort key for a node are those of the group that its row is joined to.
theorem sortKeyRow_eq (hnodup : tree.displayColumns.Nodup) (h : level < tree.pivots.length)
    (node : TreeNode V) :
    tree.sortKeyRow texts rows node level =
      if tree.members texts rows (levelPath node.path (level + 1)) ≠ 0 then
        (tree.levelRow texts rows level (levelPath node.path (level + 1))).project engine
          (tree.sortKeyIds level)
      else (tree.sortKeyIds level).map fun id => (id, engine.null) := by
  split
  case isTrue hmembers =>
    have hnames : (tree.sortKeyRow texts rows node level).names = tree.sortKeyIds level :=
      names_sortKeyRow node level
    rw [← hnames]
    refine (Row.project_of_subset (nodup_levelRow hnodup h _) fun entry hentry =>
      List.mem_append_right _ ?_).symm
    simpa [sortKeyRow, sortValue, hmembers] using hentry
  case isFalse hmembers =>
    rw [not_not] at hmembers
    simp [sortKeyRow, sortKeyIds, sortValue, hmembers]

-- The join gives every row the values of its own group, and no row is lost or repeated by it.
theorem joinRows_sortKeys (hnodup : tree.displayColumns.Nodup) (h : level < tree.pivots.length)
    (nodes : Multiset (TreeNode V)) :
    joinRows engine .leftOuter ((List.range (level + 1)).map pathColumn)
        ((List.range (level + 1)).map pathColumn ++ tree.sortKeyIds level)
        (nodes.map (tree.joinedRow texts rows opened level))
        ((rows.map fun row => (tree.pathOf texts row).take (level + 1)).dedup.map
          (tree.levelRow texts rows level)) =
      nodes.map (tree.joinedRow texts rows opened (level + 1)) := by
  refine (joinRows_map (fun node : TreeNode V => levelPath node.path (level + 1))
    (Multiset.nodup_dedup _) (fun node _ path hpath => ?_)).trans
      (Multiset.map_congr rfl fun node _ => ?_)
  · obtain ⟨row, -, rfl⟩ := Multiset.mem_map.mp (Multiset.mem_dedup.mp hpath)
    have hlength : ((tree.pathOf texts row).take (level + 1)).length = level + 1 := by
      rw [List.length_take, length_pathOf]
      exact Nat.min_eq_left h
    rw [keysMatch_paths texts node.path ((tree.pathOf texts row).take (level + 1))
      (fun i hi => get_joinedRow_path hnodup h.le node (by omega))
      (fun i hi => Row.get_of_mem (nodup_levelRow hnodup h _) (List.mem_append_left _
        (List.mem_map_of_mem (List.mem_range.mpr hi)))),
      levelPath_eq_take hlength.ge, List.take_take, Nat.min_self, decide_eq_decide]
    exact eq_comm
  · rw [filter_added (nodup_sortIds hnodup h),
      if_congr (mem_starts_iff (length_levelPath node.path _)) rfl rfl,
      ← sortKeyRow_eq hnodup h, joinedRow, joinedRow, List.range_succ, List.flatMap_append,
      List.flatMap_singleton, List.append_assoc]

-- What a tree is after the sort keys of some levels have been joined to it.
structure Joined (engine : Engine V) (texts : engine.Texts) (db : Database V) (tree : PivotTree)
    (opened : PathTree) (levels : Nat) (query : TypedQuery) : Prop where
  ids : query.schema.ids = tree.columns ++ (List.range levels).flatMap tree.sortKeyIds
  paths : ∀ i < tree.pivots.length, .ofType (pathColumn i) .string ∈ query.schema.columns
  bag : query.query.bag engine db =
    (tree.nodes texts (tree.base.query.bag engine db) opened).map
      (tree.joinedRow texts (tree.base.query.bag engine db) opened levels)

theorem exists_join {query : TypedQuery} (hformed : tree.WellFormed)
    (hnodup : tree.displayColumns.Nodup) (h : level < tree.pivots.length)
    (hquery : Joined engine texts db tree opened level query) :
    ∃ keys joined, tree.sortQuery (level + 1) = .ok keys ∧
      query.join keys ((List.range (level + 1)).map pathColumn) .leftOuter = .ok joined ∧
      Joined engine texts db tree opened (level + 1) joined := by
  obtain ⟨keys, hkeys, hids, htypes, hbag⟩ :=
    exists_sortQuery texts db hformed hnodup h
  obtain ⟨joined, hjoined, hjoin, hschema⟩ := TypedQuery.exists_join query keys
    ((List.range (level + 1)).map pathColumn) .leftOuter
    (List.forall_mem_map.mpr fun i hi => by
      have hle : i ≤ level := Nat.le_of_lt_succ (List.mem_range.mp hi)
      exact ⟨_, _, Schema.type?_of_mem (hquery.paths i (hle.trans_lt h)),
        Schema.type?_of_mem (htypes i hle), rfl⟩)
    (fun id hright hleft => by
      rw [hids] at hright
      rw [hquery.ids] at hleft
      exact (List.mem_append.mp hright).resolve_right (sortKeyIds_disjoint hnodup h hleft))
  refine ⟨keys, joined, hkeys, hjoined, ?_, fun i hi => ?_, ?_⟩
  · rw [Schema.ids_joined hschema, hquery.ids, hids, filter_added (nodup_sortIds hnodup h),
      List.range_succ, List.flatMap_append, List.flatMap_singleton, List.append_assoc]
  · rw [(Schema.joined_ok hschema).1]
    exact List.mem_append_left _ (hquery.paths i hi)
  · rw [hjoin, Query.bag, hquery.bag, hbag, Query.schema_of_infer keys.typed, hids]
    exact joinRows_sortKeys hnodup h _

theorem exists_joinSortQueries {query : TypedQuery} (hformed : tree.WellFormed)
    (hnodup : tree.displayColumns.Nodup) {count : Nat} (h : level + count = tree.pivots.length)
    (hquery : Joined engine texts db tree opened level query) :
    ∃ joined, tree.joinSortQueries query ((List.range' level count).map (· + 1)) = .ok joined ∧
      Joined engine texts db tree opened tree.pivots.length joined := by
  induction count generalizing level query with
  | zero =>
    obtain rfl : level = tree.pivots.length := h
    exact ⟨query, rfl, hquery⟩
  | succ count ih =>
    obtain ⟨keys, next, hkeys, hnext, hjoined⟩ := exists_join hformed hnodup (by omega) hquery
    have hnextLevel : level + 1 + count = tree.pivots.length := by omega
    obtain ⟨joined, hrest, hresult⟩ := ih hnextLevel hjoined
    refine ⟨joined, ?_, hresult⟩
    rw [List.range'_succ, List.map_cons, joinSortQueries]
    exact bind_eq_ok.mpr ⟨keys, hkeys, bind_eq_ok.mpr ⟨next, mapError_eq_ok.mpr hnext, hrest⟩⟩

private theorem joined_zero {union : TypedQuery} {isLeaf : Bool}
    (hcolumns : union.schema.columns = tree.unionColumns opened isLeaf)
    (hbag : union.query.bag engine db =
      (tree.nodes texts (tree.base.query.bag engine db) opened).map
        (tree.nodeRow texts (tree.base.query.bag engine db) opened)) :
    Joined engine texts db tree opened 0 union where
  ids := by
    rw [List.range_zero, List.flatMap_nil, List.append_nil, ← ids_frameColumns, Schema.ids,
      hcolumns, unionColumns]
    simp [Column.ids, outColumns, Schema.ids, Function.comp_def]
  paths i hi := by
    rw [hcolumns]
    exact List.mem_append_left _ (List.mem_append_left _ (List.mem_append_right _
      (List.mem_map_of_mem (List.mem_range.mpr hi))))
  bag := hbag.trans (Multiset.map_congr rfl fun _ _ => (List.append_nil _).symm)

-- Without a sort key there is nothing to join.
theorem Joined.of_sortKey_nil {query : TypedQuery} (hkey : tree.sortKey = [])
    (h : Joined engine texts db tree opened 0 query) :
    Joined engine texts db tree opened tree.pivots.length query where
  ids := by
    have hnone : ∀ level ∈ List.range tree.pivots.length, tree.sortKeyIds level = [] := by
      simp [sortKeyIds, hkey]
    rw [h.ids, List.flatMap_eq_nil_iff.mpr hnone]
    rfl
  paths := h.paths
  bag := by
    refine h.bag.trans (Multiset.map_congr rfl fun node _ => ?_)
    have hnone : ∀ level ∈ List.range tree.pivots.length,
        tree.sortKeyRow texts (tree.base.query.bag engine db) node level = [] := by
      simp [sortKeyRow, hkey]
    rw [joinedRow, joinedRow, List.flatMap_eq_nil_iff.mpr hnone]
    rfl

variable (texts db) in
-- The sorted tree can be built, and its rows are those of the visible nodes.
theorem exists_sortedTreeQuery (hformed : tree.WellFormed) (hnodup : tree.displayColumns.Nodup)
    (hopened : ∀ path ∈ opened.paths, path.length ≤ tree.pivots.length) :
    ∃ sorted, tree.sortedTreeQuery opened = .ok sorted ∧
      sorted.query.bag engine db =
        (tree.nodes texts (tree.base.query.bag engine db) opened).map
          (tree.displayRow texts (tree.base.query.bag engine db) opened) := by
  obtain ⟨union, isLeaf, hunion, hcolumns, hbag⟩ := exists_union texts db hformed
    (List.nodup_append'.mp hnodup).1 hopened
  have hstart := joined_zero hcolumns hbag
  obtain ⟨joined, hjoins, hjoined⟩ : ∃ joined, tree.joinSortQueries union
      (if tree.sortKey.isEmpty then [] else (List.range tree.pivots.length).map (· + 1)) =
        .ok joined ∧ Joined engine texts db tree opened tree.pivots.length joined := by
    by_cases hkey : tree.sortKey = []
    · rw [if_pos (List.isEmpty_iff.mpr hkey)]
      exact ⟨union, rfl, hstart.of_sortKey_nil hkey⟩
    · rw [if_neg (fun hempty => hkey (List.isEmpty_iff.mp hempty)), List.range_eq_range']
      exact exists_joinSortQueries hformed hnodup (Nat.zero_add _) hstart
  obtain ⟨sorted, hsorted, hquery, -⟩ := TypedQuery.exists_sort joined
    tree.displayOrder fun key hkey => hjoined.ids ▸ displayOrder_mem hformed key hkey
  refine ⟨sorted, ?_, ?_⟩
  · exact bind_eq_ok.mpr ⟨union, hunion,
      bind_eq_ok.mpr ⟨joined, hjoins, mapError_eq_ok.mpr hsorted⟩⟩
  · rw [hquery, Query.bag, hjoined.bag]
    rfl

variable (texts db) in
theorem exists_treeQuery (hformed : tree.WellFormed) (hnodup : tree.columns.Nodup)
    (hopened : ∀ path ∈ opened.paths, path.length ≤ tree.pivots.length) :
    ∃ query, tree.treeQuery opened = .ok query ∧
      query.query.bag engine db =
        (tree.nodes texts (tree.base.query.bag engine db) opened).map
          (tree.nodeRow texts (tree.base.query.bag engine db) opened) := by
  obtain ⟨union, isLeaf, hunion, hcolumns, hbag⟩ :=
    exists_union texts db hformed hnodup hopened
  by_cases hlevels : tree.pivots.length < 2
  · refine ⟨union, bind_eq_ok.mpr ⟨union, hunion, ?_⟩, hbag⟩
    rw [if_pos hlevels]
    rfl
  · have hjoined := joined_zero hcolumns hbag
    obtain ⟨query, hquery, hsort, -⟩ := TypedQuery.exists_sort union
      ((List.range (tree.pivots.length - 1)).map fun level => ⟨pathColumn level, true⟩)
      (List.forall_mem_map.mpr fun level hlevel => by
        have hlt := List.mem_range.mp hlevel
        exact List.mem_map_of_mem (f := Column.id) (hjoined.paths level (by omega)))
    refine ⟨query, bind_eq_ok.mpr ⟨union, hunion, ?_⟩, ?_⟩
    · rw [if_neg hlevels]
      exact mapError_eq_ok.mpr hquery
    · rw [hsort, Query.bag, hbag]

end PivotTree

end PivotQuery
