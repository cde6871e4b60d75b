import PivotQuery.Proofs.NumberedNames
import PivotQuery.Proofs.Pivot.NodeRows

namespace PivotQuery

namespace PivotTree

-- The names that a tree with so many levels gives to its own columns, and those of the values of
-- the sort keys in a sorted tree.

def reservedColumns (levels : Nat) : List String :=
  [depthColumn, pivotColumn, isRootColumn] ++ (List.range levels).map pathColumn ++
    (List.range (levels + 1)).map sortValColumn

def reservedKeyColumns (levels keys : Nat) : List String :=
  (List.range levels).flatMap fun level => (List.range keys).map (sortKeyColumn level)

variable {levels keys : Nat} {id : String}

theorem mem_reservedKeyColumns :
    id ∈ reservedKeyColumns levels keys ↔
      ∃ level < levels, ∃ key < keys, id = sortKeyColumn level key := by
  simp [reservedKeyColumns, eq_comm]

-- The first letters of a name tell which family it is of.
def stem (name : String) : List Char := name.toList.take 5

private theorem stem_pathColumn (level : Nat) : stem (pathColumn level) = "_path".toList := by
  simp [stem, pathColumn]

private theorem stem_sortValColumn (level : Nat) : stem (sortValColumn level) = "_sort".toList := by
  simp [stem, sortValColumn]

private theorem stem_sortKeyColumn (level key : Nat) :
    stem (sortKeyColumn level key) = "_sort".toList := by
  simp [stem, sortKeyColumn]

private theorem stem_fixed : ∀ id ∈ [depthColumn, pivotColumn, isRootColumn],
    stem id ≠ "_path".toList ∧ stem id ≠ "_sort".toList := by
  decide

private theorem stem_ne_sort (h : id ∈ [depthColumn, pivotColumn, isRootColumn] ++
    (List.range levels).map pathColumn) : stem id ≠ "_sort".toList := by
  rcases List.mem_append.mp h with hfixed | hpath
  · exact (stem_fixed id hfixed).2
  · obtain ⟨level, -, rfl⟩ := List.mem_map.mp hpath
    rw [stem_pathColumn]
    decide

theorem nodup_reservedColumns (levels : Nat) : (reservedColumns levels).Nodup := by
  have hpaths : ((List.range levels).map pathColumn).Nodup :=
    List.nodup_range.map (numbered_injective "_path")
  have hmarks : ((List.range (levels + 1)).map sortValColumn).Nodup :=
    List.nodup_range.map (numbered_injective "_sortVal_")
  refine List.nodup_append'.mpr ⟨List.nodup_append'.mpr ⟨by decide, hpaths, ?_⟩, hmarks, ?_⟩
  · intro id hfixed hpath
    obtain ⟨level, -, rfl⟩ := List.mem_map.mp hpath
    exact (stem_fixed _ hfixed).1 (stem_pathColumn level)
  · intro id hother hmark
    obtain ⟨level, -, rfl⟩ := List.mem_map.mp hmark
    exact stem_ne_sort hother (stem_sortValColumn level)

example : reservedColumns 1 =
    ["_depth", "_pivot", "_isRoot", "_path0", "_sortVal_0", "_sortVal_1"] := by decide

theorem toList_sortKeyColumn (level key : Nat) : (sortKeyColumn level key).toList =
    "_sortVal_".toList ++ ((toString level).toList ++ '_' :: (toString key).toList) := by
  simp [sortKeyColumn]

theorem toList_sortValColumn (level : Nat) :
    (sortValColumn level).toList = "_sortVal_".toList ++ (toString level).toList :=
  String.toList_append

-- The name of a sort key for a level has a second number behind the first one.
theorem sortKeyColumn_ne_sortValColumn (level key other : Nat) :
    sortKeyColumn level key ≠ sortValColumn other := by
  intro h
  have hlist := congrArg String.toList h
  rw [toList_sortKeyColumn, toList_sortValColumn] at hlist
  have hmem : '_' ∈ (toString other).toList := by
    rw [← List.append_cancel_left hlist]
    exact List.mem_append_right _ List.mem_cons_self
  exact absurd (isDigit_of_mem_toString hmem) (by decide)

theorem sortKeyColumn_injective :
    Function.Injective fun place : Nat × Nat => sortKeyColumn place.1 place.2 := by
  rintro ⟨level, key⟩ ⟨level', key'⟩ h
  have hlist := congrArg String.toList h
  simp only [toList_sortKeyColumn] at hlist
  have hnumbers := List.append_cancel_left hlist
  have hlevel : (toString level).toList = (toString level').toList := by
    rw [← takeWhile_isDigit level (c := '_') rfl, hnumbers, takeWhile_isDigit level' rfl]
  obtain rfl : level = level' := toString_injective (String.toList_inj.mp hlevel)
  have hkey := (List.cons_inj_right '_').mp (List.append_cancel_left hnumbers)
  exact Prod.ext rfl (toString_injective (String.toList_inj.mp hkey))

theorem nodup_reservedKeyColumns (levels keys : Nat) : (reservedKeyColumns levels keys).Nodup := by
  have hplaces : reservedKeyColumns levels keys =
      ((List.range levels).product (List.range keys)).map
        fun place => sortKeyColumn place.1 place.2 := by
    simp [reservedKeyColumns, List.product, List.map_flatMap, Function.comp_def]
  rw [hplaces]
  exact (List.nodup_range.product List.nodup_range).map sortKeyColumn_injective

theorem reservedColumns_disjoint (levels keys : Nat) :
    (reservedColumns levels).Disjoint (reservedKeyColumns levels keys) := by
  intro id hid hkeyId
  obtain ⟨level, -, key, -, rfl⟩ := mem_reservedKeyColumns.mp hkeyId
  rcases List.mem_append.mp hid with hother | hmark
  · exact stem_ne_sort hother (stem_sortKeyColumn level key)
  · obtain ⟨other, -, hsame⟩ := List.mem_map.mp hmark
    exact sortKeyColumn_ne_sortValColumn level key other hsame.symm

variable {tree : PivotTree}

theorem columns_eq : tree.columns = reservedColumns tree.pivots.length ++ tree.outColumns := rfl

theorem sortKeyIds_eq (level : Nat) :
    tree.sortKeyIds level = (List.range tree.sortKey.length).map (sortKeyColumn level) := by
  rw [sortKeyIds, List.range_eq_range', ← List.zipIdx_map_snd 0 tree.sortKey, List.map_map]
  rfl

theorem displayColumns_eq : tree.displayColumns =
    tree.columns ++ reservedKeyColumns tree.pivots.length tree.sortKey.length := by
  have hids : tree.sortKeyIds =
      fun level => (List.range tree.sortKey.length).map (sortKeyColumn level) :=
    funext sortKeyIds_eq
  rw [displayColumns, reservedKeyColumns, hids]

-- The columns of a tree are distinct exactly if those of its base have none of the names that it
-- gives, and the same holds of a sorted tree.

theorem nodup_columns_iff : tree.columns.Nodup ↔
    ∀ id ∈ reservedColumns tree.pivots.length, id ∉ tree.outColumns := by
  rw [columns_eq, List.nodup_append']
  constructor
  · exact fun h => h.2.2
  · exact fun h => ⟨nodup_reservedColumns _, tree.base.schema.distinct, h⟩

theorem nodup_displayColumns_iff : tree.displayColumns.Nodup ↔ tree.columns.Nodup ∧
    ∀ id ∈ reservedKeyColumns tree.pivots.length tree.sortKey.length, id ∉ tree.outColumns := by
  rw [displayColumns_eq, List.nodup_append']
  refine and_congr_right fun _ => ?_
  constructor
  · exact fun h id hkey hid => h.2 (List.mem_append_right _ hid) hkey
  · refine fun h => ⟨nodup_reservedKeyColumns _ _, fun id hid hkey => ?_⟩
    exact (List.mem_append.mp hid).elim (fun hown => reservedColumns_disjoint _ _ hown hkey)
      (h id hkey)

end PivotTree

end PivotQuery
