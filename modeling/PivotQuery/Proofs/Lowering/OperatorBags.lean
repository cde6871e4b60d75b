import PivotQuery.Proofs.Lowering.OperatorGroups

namespace PivotQuery.Sql

variable {V : Type} [DecidableEq V] {engine : Engine V} {db : Database V}
variable {select : Select} {schema result : Schema} {selects : List Select}

namespace Select

theorem Lowered.bag_eq (h : select.Lowered schema) :
    (select.rows engine db : Multiset (Row V)) =
      ((select.groups engine db).map (valueRow engine select.items) : List (Row V)) :=
  Multiset.coe_eq_coe.mpr h.rows_perm

theorem bag_wrapOrdered (hlowered : select.Lowered schema) :
    ((select.wrapOrdered schema).rows engine db : Multiset (Row V)) = select.rows engine db := by
  rw [hlowered.wrapOrdered.bag_eq, hlowered.bag_eq, groups_wrapOrdered hlowered, List.map_map]
  exact congrArg _ (List.map_congr_left fun group _ => valueRow_wrapOrdered hlowered.fits group)

-- The select that an operator goes into has the rows of its input.

theorem bag_reuse (mergeable : Select → Bool) (h : Sql.Lowered selects schema) :
    ((reuse mergeable schema selects).rows engine db : Multiset (Row V)) =
      rowsOfAll engine db selects := by
  refine reuse_cases (P := fun select => (select.rows engine db : Multiset (Row V)) = _)
    (fun select hselect _ => ?_) (by rw [rows_wrap h])
  rw [hselect, rowsOfAll_singleton]

theorem bag_reuseOrdered (mergeable : Select → Bool) (h : Sql.Lowered selects schema) :
    ((reuseOrdered mergeable schema selects).rows engine db : Multiset (Row V)) =
      rowsOfAll engine db selects := by
  refine reuseOrdered_cases (P := fun select => (select.rows engine db : Multiset (Row V)) = _)
    (fun select hselect _ => ?_) (by rw [rows_wrap h]) (fun select hselect => ?_)
  · rw [hselect, rowsOfAll_singleton]
  · have hmem : select ∈ selects := by simp [hselect]
    rw [bag_wrapOrdered (h.each select hmem), hselect, rowsOfAll_singleton]

-- A select over the same groups changes row by row what it makes of each group.
theorem Lowered.bag_map {other : Select} (f : Row V → Row V) (hlowered : select.Lowered schema)
    (hother : other.Lowered result) (hgroups : other.groups engine db = select.groups engine db)
    (hrow : ∀ group, valueRow engine other.items group = f (valueRow engine select.items group)) :
    (other.rows engine db : Multiset (Row V)) =
      (select.rows engine db : Multiset (Row V)).map f := by
  rw [hother.bag_eq, hlowered.bag_eq, hgroups, Multiset.map_coe, List.map_map]
  exact congrArg _ (List.map_congr_left fun group _ => hrow group)

-- The keys of a result row are those of the source row that it comes from, so the same rows
-- make a group on both levels.
private theorem bag_grouped {keys : List String} {aggs : List Aggregate} (h : select.Rowwise engine)
    (hlowered : select.Lowered schema)
    (hgrouped : (select.grouped schema keys aggs).Lowered result) (hgroup : select.groupBy = [])
    (hkeys : keys ≠ []) (hids : ∀ id ∈ keys ++ aggs.map Aggregate.column, id ∈ schema.ids)
    (hpass : select.passesThrough (keys ++ aggs.map Aggregate.column) = true) :
    ((select.grouped schema keys aggs).rows engine db : Multiset (Row V)) =
      groupRows engine keys aggs (select.rows engine db) := by
  have hget : ∀ row : SourceRow V, ∀ id ∈ keys ++ aggs.map Aggregate.column,
      (valueRow engine select.items [row]).get engine id = row.get engine id :=
    fun row => get_of_passesThrough hpass [row]
  have hkey : ∀ row : SourceRow V,
      (valueRow engine select.items [row]).project engine keys = keyRow engine keys row :=
    fun row => List.map_congr_left fun id hid => by rw [hget row id (List.mem_append_left _ hid)]
  have hrows : (select.rows engine db : Multiset (Row V)) =
      ((select.sourceRows engine db).map fun row => valueRow engine select.items [row] :
        List (Row V)) := by
    rw [hlowered.bag_eq, groups_eq h hgroup, List.map_map]
    rfl
  have hgroups : (select.grouped schema keys aggs).groups engine db =
      ((select.sourceRows engine db).map (keyRow engine keys)).dedup.map fun key =>
        (select.sourceRows engine db).filter fun row => keyRow engine keys row = key :=
    if_neg (by simpa [grouped] using hkeys)
  rw [hgrouped.bag_eq, hgroups, hrows, groupRows, if_neg hkeys, List.map_map, Multiset.map_coe,
    List.map_map, Multiset.coe_dedup, Multiset.map_coe]
  simp only [Function.comp_def, hkey]
  refine congrArg _ (List.map_congr_left fun key hmem => ?_)
  rw [valueRow_grouped hids, keyRow_first (List.mem_dedup.mp hmem), Multiset.filter_coe]
  refine congrArg _ (List.map_congr_left fun aggregate haggregate => ?_)
  have hcolumn : ∀ row : SourceRow V,
      (valueRow engine select.items [row]).get engine aggregate.column =
        row.get engine aggregate.column :=
    fun row => hget row _ (List.mem_append_right _ (List.mem_map_of_mem haggregate))
  simp only [List.filter_map, Multiset.map_coe, List.map_map, Function.comp_def, hkey, hcolumn]

theorem bag_ofJoin {left right : Schema} {lhs rhs : List Select} {type : JoinType}
    {on : List String} (h : left.joined right on = .ok schema) (hlhs : Sql.Lowered lhs left) :
    ((ofJoin schema left lhs rhs type on).rows engine db : Multiset (Row V)) =
      joinRows engine type on right.ids (rowsOfAll engine db lhs : Multiset (Row V))
        (rowsOfAll engine db rhs) := by
  have hsource : (ofJoin schema left lhs rhs type on).sourceRows engine db =
      joinSources engine type on (rowsOfAll engine db lhs) (rowsOfAll engine db rhs) :=
    List.filter_eq_self.mpr fun row _ => rfl
  rw [Lowered.ofJoin.bag_eq, groups_eq Rowwise.ofJoin rfl, hsource, List.map_map, joinRows,
    joinSources, List.map_flatMap, ← Multiset.coe_bind]
  apply Multiset.bind_congr
  intro leftRow hleftRow
  have hnames : leftRow.names = left.ids := hlhs.names_of_mem_rows hleftRow
  simp only [Multiset.filter_coe, Bool.decide_eq_true, Multiset.map_coe]
  generalize (rowsOfAll engine db rhs).filter _ = matching
  have hmatching : (matching.map fun right => SourceRow.mk leftRow right).map
      (valueRow engine (ofJoin schema left lhs rhs type on).items ∘ fun row => [row]) =
      matching.map fun rightRow =>
        leftRow ++ rightRow.project engine (right.ids.filter fun id => !on.contains id) := by
    simp only [List.map_map, Function.comp_def, valueRow_ofJoin h hnames]
  cases type with
  | inner => rw [hmatching]
  | leftOuter =>
    cases matching with
    | nil =>
      -- a left row that nothing matches stays, and all columns of its right side are missing
      simp only [List.map_cons, List.map_nil, Function.comp_apply, valueRow_ofJoin h hnames]
      rfl
    | cons first rest =>
      rw [hmatching, if_neg (by simp)]

theorem bag_align (h : select.Rowwise engine) (hlowered : select.Lowered schema)
    (haligned : (select.align result).Lowered result)
    (hstacks : Schema.Stacks result.columns schema) :
    ((select.align result).rows engine db : Multiset (Row V)) =
      (select.rows engine db : Multiset (Row V)).map (Row.align engine schema result) :=
  hlowered.bag_map _ haligned (groups_congr h h.align rfl rfl rfl)
    (valueRow_align hlowered.fits hstacks)

theorem bag_branch (h : Sql.Lowered selects schema) :
    (rowsOfAll engine db (branch schema selects) : Multiset (Row V)) =
      rowsOfAll engine db selects := by
  unfold branch
  split
  · split
    · rfl
    · rw [rowsOfAll_singleton, rows_wrap h]
  · rfl

-- A branch of a union has the rows of its query, each as one of the stack.
theorem bag_alignedBranch (h : Sql.Lowered selects schema)
    (hrowwise : ∀ select ∈ selects, select.Rowwise engine)
    (hstacks : Schema.Stacks result.columns schema) :
    (rowsOfAll engine db ((branch schema selects).map (align result)) : Multiset (Row V)) =
      (rowsOfAll engine db selects : Multiset (Row V)).map (Row.align engine schema result) := by
  rw [← bag_branch h]
  have hlowered := Lowered.branch h
  have hrowwise := Rowwise.branch h hrowwise
  generalize branch schema selects = branches at hlowered hrowwise
  induction branches with
  | nil => rfl
  | cons select rest ih =>
    obtain ⟨hselect, hrest⟩ := List.forall_mem_cons.mp hlowered
    obtain ⟨hselectRowwise, hrestRowwise⟩ := List.forall_mem_cons.mp hrowwise
    simp only [List.map_cons, rowsOfAll, ← Multiset.coe_add, Multiset.map_add]
    rw [bag_align hselectRowwise hselect.1 (hselect.1.align hselect.2 hstacks) hstacks,
      ih hrest hrestRowwise]

end Select

namespace Lowered

open Select

variable (h : Lowered selects schema) (hrowwise : ∀ select ∈ selects, select.Rowwise engine)
include h hrowwise

theorem bag_projected {ids : List String} (hresult : schema.project ids = .ok result) :
    (((reuseOrdered (admitsProject ids) schema selects).projected ids).rows engine db :
        Multiset (Row V)) =
      (rowsOfAll engine db selects : Multiset (Row V)).map (Row.project engine ids) := by
  have hinput := Rowwise.reuseOrdered schema (admitsProject ids) hrowwise
  have hlowered := Lowered.reuseOrdered (admitsProject ids) h.each
  rw [← bag_reuseOrdered (admitsProject ids) h]
  exact hlowered.bag_map _ (h.projected hresult) (groups_congr hinput hinput.project rfl rfl rfl)
    (valueRow_projected hlowered.fits (Schema.project_mem hresult))

theorem bag_filtered {condition : Filter} (hresult : schema.filtered condition = .ok result) :
    (((reuseOrdered (admitsFilter condition) schema selects).filtered condition).rows engine db :
        Multiset (Row V)) =
      (rowsOfAll engine db selects : Multiset (Row V)).filter
        fun row => condition.holds engine (row.get engine) := by
  have hinput := Rowwise.reuseOrdered schema (admitsFilter condition) hrowwise
  have hlowered := Lowered.reuseOrdered (admitsFilter condition) h.each
  have hids := (Schema.filtered_ok hresult).2
  rw [← bag_reuseOrdered (admitsFilter condition) h, h.filtered.bag_eq, hlowered.bag_eq,
    groups_filtered hinput groupBy_filterInput (passesThrough_filterInput hids),
    Multiset.filter_coe, List.filter_map]
  simp only [Bool.decide_eq_true]
  rfl

theorem bag_extended {id : String} {exp : ValueExpr} {options : ExtendOptions}
    (hresult : schema.extended id exp options = .ok result) :
    (((reuseOrdered (admitsExtend id exp) schema selects).extended id exp options.type).rows
        engine db : Multiset (Row V)) =
      (rowsOfAll engine db selects : Multiset (Row V)).map (Row.extend engine id exp) := by
  have hinput := Rowwise.reuseOrdered schema (admitsExtend id exp) hrowwise
  have hlowered := Lowered.reuseOrdered (admitsExtend id exp) h.each
  rw [← bag_reuseOrdered (admitsExtend id exp) h]
  exact hlowered.bag_map _ (h.extended hresult) (groups_congr hinput hinput.extend rfl rfl rfl)
    (valueRow_extended (passesThrough_extendInput (Schema.extended_ok hresult).2.1))

theorem bag_groupBy {keys : List String} {aggs : List Aggregate} (hkeys : keys ≠ [])
    (hresult : schema.grouped keys aggs = .ok result) :
    (((reuse (admitsGroupBy keys aggs) schema selects).grouped schema keys aggs).rows engine db :
        Multiset (Row V)) =
      groupRows engine keys aggs (rowsOfAll engine db selects) := by
  have hinput := Rowwise.reuse schema (admitsGroupBy keys aggs) hrowwise
  have hlowered := Lowered.reuse (admitsGroupBy keys aggs) h.each
  have hids := Schema.grouped_mem hresult
  rw [← bag_reuse (admitsGroupBy keys aggs) h]
  exact bag_grouped hinput hlowered (h.grouped hresult) groupBy_groupByInput hkeys hids
    (passesThrough_groupByInput hids)

theorem bag_sorted {keys : List SortKey} (hkeys : ∀ key ∈ keys, key.column ∈ schema.ids) :
    (((reuse admitsSort schema selects).sorted keys).rows engine db : Multiset (Row V)) =
      rowsOfAll engine db selects := by
  have hinput := Rowwise.reuse schema admitsSort hrowwise
  have hlowered := Lowered.reuse admitsSort h.each
  rw [← bag_reuse admitsSort h, hlowered.bag_map id (h.sorted hkeys)
    (groups_congr hinput hinput.sort rfl rfl rfl) fun _ => rfl, Multiset.map_id]

theorem bag_mapped {changes : NameMap ColumnChange} (hresult : schema.mapped changes = .ok result) :
    (((reuseOrdered (admitsMapColumns changes) schema selects).mapped changes).rows engine db :
        Multiset (Row V)) =
      (rowsOfAll engine db selects : Multiset (Row V)).map (Row.rename changes) := by
  have hinput := Rowwise.reuseOrdered schema (admitsMapColumns changes) hrowwise
  have hlowered := Lowered.reuseOrdered (admitsMapColumns changes) h.each
  rw [← bag_reuseOrdered (admitsMapColumns changes) h]
  exact hlowered.bag_map _ (h.mapped hresult) (groups_congr hinput hinput.mapColumns rfl rfl rfl)
    valueRow_mapped

end Lowered

end PivotQuery.Sql
