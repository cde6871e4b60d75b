import PivotQuery.Proofs.Query.Acceptance
import PivotQuery.Proofs.Lowering.HiddenKeys

namespace PivotQuery

namespace Sql

-- What the lowering puts into select lists: row numbers and counts of rows are no part
-- of a query.
def Exp.isLowered : Exp → Bool
  | .value _ | .joinColumn _ _ | .aggregate _ _ _ => true
  | .cast exp _ => exp.isLowered
  | .rowNumber _ | .countStar => false

namespace Select

def names (select : Select) : List String := select.items.map Item.name

-- The select list has the columns of the schema in their order, with types that need no
-- cast.
def Fits (select : Select) (schema : Schema) : Prop :=
  List.Forall₂ (fun item column => item.name = column.id ∧ item.type.sameAs column.type = true)
    select.items schema.columns

-- A select that computes rows of the schema. Its order refers to what it computes or
-- hides, and what it hides are columns of its source.
structure Lowered (select : Select) (schema : Schema) : Prop where
  fits : select.Fits schema
  exps : ∀ item ∈ select.items, item.exp.isLowered = true
  keys : ∀ key ∈ select.orderBy, key.column ∈ schema.ids ∨ select.hides key.column = true
  hidden : ∀ item ∈ select.hidden, ∃ id, item.exp = .value (.column id)

variable {select : Select} {schema result : Schema} {selects : List Select}

theorem hides_iff {name : String} :
    select.hides name = true ↔ ∃ item ∈ select.hidden, item.name = name := by
  simp [hides]

theorem Fits.names_eq (h : select.Fits schema) : select.names = schema.ids :=
  map_eq_map h fun _ _ hitem => hitem.1

theorem name_of_item? {name : String} {item : Item} (h : select.item? name = some item) :
    item ∈ select.items ∧ item.name = name :=
  ⟨List.mem_of_find?_eq_some h, by simpa using List.find?_some h⟩

-- If names are distinct, the item of a name is the only one.
theorem item?_of_mem (h : select.names.Nodup) {item : Item} (hitem : item ∈ select.items) :
    select.item? item.name = some item := by
  have hsome : (select.item? item.name).isSome :=
    List.find?_isSome.mpr ⟨item, hitem, by simp⟩
  obtain ⟨found, hfound⟩ := Option.isSome_iff_exists.mp hsome
  obtain ⟨hmem, hname⟩ := name_of_item? hfound
  obtain rfl := List.inj_on_of_nodup_map h hmem hitem hname
  exact hfound

-- The ids of a schema are distinct, so each of its columns has one item.
theorem Fits.exists_item? (h : select.Fits schema) {column : Column}
    (hcolumn : column ∈ schema.columns) :
    ∃ item ∈ select.items, select.item? column.id = some item ∧ item.name = column.id ∧
      item.type.sameAs column.type = true := by
  obtain ⟨item, hitem, hname, htype⟩ := exists_mem_left h hcolumn
  have hself := item?_of_mem (h.names_eq ▸ schema.distinct) hitem
  exact ⟨item, hitem, hname ▸ hself, hname, htype⟩

theorem Fits.item?_isSome (h : select.Fits schema) {id : String} (hid : id ∈ schema.ids) :
    (select.item? id).isSome := by
  obtain ⟨column, hcolumn, rfl⟩ := Schema.mem_ids.mp hid
  obtain ⟨item, -, hitem, -⟩ := h.exists_item? hcolumn
  simp [hitem]

theorem Fits.item?_self (h : select.Fits schema) {item : Item} (hitem : item ∈ select.items) :
    select.item? item.name = some item :=
  item?_of_mem (h.names_eq ▸ schema.distinct) hitem

theorem forall₂_ofColumn (columns : List Column) :
    List.Forall₂ (fun item column => item.name = column.id ∧ item.type.sameAs column.type = true)
      (columns.map Item.ofColumn) columns := by
  rw [List.forall₂_map_left_iff, List.forall₂_same]
  intro column _
  exact ⟨rfl, ColumnType.sameAs_refl _⟩

theorem exps_ofColumn {columns : List Column} :
    ∀ item ∈ columns.map Item.ofColumn, item.exp.isLowered = true := by
  intro item hitem
  obtain ⟨column, -, rfl⟩ := List.mem_map.mp hitem
  rfl

theorem Lowered.plain (source : Source) :
    (plain (schema.columns.map Item.ofColumn) source).Lowered schema where
  fits := forall₂_ofColumn _
  exps := exps_ofColumn
  keys := by simp [Select.plain]
  hidden := by simp [Select.plain]

theorem Lowered.wrap (selects : List Select) : (wrap selects schema).Lowered schema :=
  Lowered.plain _

theorem exists_mem_zipIdx {item : Item} {items : List Item} (h : item ∈ items) :
    ∃ index, (item, index) ∈ items.zipIdx := by
  obtain ⟨index, hindex⟩ := List.mem_iff_getElem?.mp h
  exact ⟨index, List.mem_zipIdx_iff_getElem?.mpr hindex⟩

-- The new names of the hidden columns take the place of the old ones in the order.
theorem Lowered.wrapOrdered (h : select.Lowered schema) :
    (select.wrapOrdered schema).Lowered schema where
  fits := forall₂_ofColumn _
  exps := exps_ofColumn
  keys := by
    intro key hkey
    rw [wrapOrdered_orderBy] at hkey
    obtain ⟨old, hold, rfl⟩ := List.mem_map.mp hkey
    rcases exposedKey_cases select.hidden.zipIdx old with ⟨hsame, hnone⟩ | ⟨entry, hentry, hname⟩
    · left
      rw [hsame]
      rcases h.keys old hold with hid | hhides
      · exact hid
      · obtain ⟨item, hitem, hname⟩ := hides_iff.mp hhides
        obtain ⟨index, hindex⟩ := exists_mem_zipIdx hitem
        exact absurd hname (hnone _ hindex)
    · right
      rw [hname, hides_iff, wrapOrdered_hidden]
      exact ⟨_, List.mem_map_of_mem hentry, rfl⟩
  hidden := by
    intro item hitem
    rw [wrapOrdered_hidden] at hitem
    obtain ⟨entry, -, rfl⟩ := List.mem_map.mp hitem
    exact ⟨_, rfl⟩

-- The select that an operator goes into is the one of its input or a new one over it.
theorem reuse_cases {P : Select → Prop} {mergeable : Select → Bool}
    (merged : ∀ select, selects = [select] → mergeable select = true → P select)
    (wrapped : P (wrap selects schema)) : P (reuse mergeable schema selects) := by
  unfold reuse
  split
  · rename_i select
    split
    · exact merged select rfl ‹_›
    · exact wrapped
  · exact wrapped

theorem reuseOrdered_cases_sorted {P : Select → Prop} {mergeable : Select → Bool}
    (merged : ∀ select, selects = [select] → mergeable select = true → P select)
    (wrapped : P (wrap selects schema))
    (ordered : ∀ select, selects = [select] → mergeable select = false → select.orderBy ≠ [] →
      P (select.wrapOrdered schema)) :
    P (reuseOrdered mergeable schema selects) := by
  unfold reuseOrdered
  split
  · rename_i select
    split
    · exact merged select rfl ‹_›
    · rename_i hadmits
      split
      · exact wrapped
      · rename_i hsorted
        exact ordered select rfl (by simpa using hadmits) fun hnone =>
          hsorted (by rw [hnone]; rfl)
  · exact wrapped

theorem reuseOrdered_cases {P : Select → Prop} {mergeable : Select → Bool}
    (merged : ∀ select, selects = [select] → mergeable select = true → P select)
    (wrapped : P (wrap selects schema))
    (ordered : ∀ select, selects = [select] → P (select.wrapOrdered schema)) :
    P (reuseOrdered mergeable schema selects) :=
  reuseOrdered_cases_sorted merged wrapped fun select hselect _ _ => ordered select hselect

theorem Lowered.reuse (mergeable : Select → Bool)
    (h : ∀ select ∈ selects, select.Lowered schema) :
    (reuse mergeable schema selects).Lowered schema :=
  reuse_cases (fun select hselect _ => h select (by simp [hselect]))
    (Lowered.wrap selects)

theorem Lowered.reuseOrdered (mergeable : Select → Bool)
    (h : ∀ select ∈ selects, select.Lowered schema) :
    (reuseOrdered mergeable schema selects).Lowered schema :=
  reuseOrdered_cases (fun select hselect _ => h select (by simp [hselect]))
    (Lowered.wrap selects)
    (fun select hselect => (h select (by simp [hselect])).wrapOrdered)

theorem isIdentityAt_iff {name : String} :
    select.isIdentityAt name = true ↔
      ∃ item, select.item? name = some item ∧ item.exp = .value (.column name) := by
  simp only [isIdentityAt, Option.any_eq_true]
  refine exists_congr fun item => and_congr_right fun hitem => ?_
  have hname := (name_of_item? hitem).2
  unfold Item.isIdentity
  split
  · rename_i id hexp
    simp [hexp, hname]
  · rename_i hexp
    simpa using hexp name

theorem isIdentityAt_wrap (selects : List Select) {id : String} (h : id ∈ schema.ids) :
    (Select.wrap selects schema).isIdentityAt id = true := by
  obtain ⟨column, hcolumn, rfl⟩ := Schema.mem_ids.mp h
  obtain ⟨item, hmem, hitem, hname, -⟩ := (Lowered.wrap selects).fits.exists_item? hcolumn
  obtain ⟨other, -, rfl⟩ := List.mem_map.mp hmem
  exact isIdentityAt_iff.mpr ⟨_, hitem, by rw [← hname]; rfl⟩

theorem isIdentityAt_wrapOrdered {id : String} (h : id ∈ schema.ids) :
    (select.wrapOrdered schema).isIdentityAt id = true :=
  isIdentityAt_wrap [select.exposedInner] h

theorem passesThrough_wrap {ids : List String} (h : ∀ id ∈ ids, id ∈ schema.ids) :
    (Select.wrap selects schema).passesThrough ids = true :=
  List.all_eq_true.mpr fun id hid => isIdentityAt_wrap selects (h id hid)

theorem passesThrough_wrapOrdered {ids : List String} (h : ∀ id ∈ ids, id ∈ schema.ids) :
    (select.wrapOrdered schema).passesThrough ids = true :=
  List.all_eq_true.mpr fun id hid => isIdentityAt_wrapOrdered (h id hid)

-- When an operator can go into a select.

theorem admitsFilter_iff {condition : Filter} :
    select.admitsFilter condition = true ↔ select.groupBy = [] ∧ select.isJoin = false ∧
      select.passesThrough condition.columns = true := by
  simp [admitsFilter, and_assoc]

theorem admitsExtend_iff {id : String} {exp : ValueExpr} :
    select.admitsExtend id exp = true ↔ select.isJoin = false ∧
      select.passesThrough exp.columns = true ∧ select.hides id = false := by
  simp [admitsExtend, and_assoc]

theorem admitsGroupBy_iff {keys : List String} {aggs : List Aggregate} :
    select.admitsGroupBy keys aggs = true ↔ select.groupBy = [] ∧ select.orderBy = [] ∧
      select.isJoin = false ∧
      select.passesThrough (keys ++ aggs.map Aggregate.column) = true := by
  simp [admitsGroupBy, and_assoc]

-- What an operator refers to is handed on by the select that it goes into: by the select
-- of the input if that is asked for, and by a new one always.
theorem passesThrough_reuse {mergeable : Select → Bool} {ids : List String}
    (hmerge : ∀ select, mergeable select = true → select.passesThrough ids = true)
    (h : ∀ id ∈ ids, id ∈ schema.ids) :
    (Select.reuse mergeable schema selects).passesThrough ids = true :=
  reuse_cases (fun select _ hadmits => hmerge select hadmits) (passesThrough_wrap h)

theorem passesThrough_reuseOrdered {mergeable : Select → Bool} {ids : List String}
    (hmerge : ∀ select, mergeable select = true → select.passesThrough ids = true)
    (h : ∀ id ∈ ids, id ∈ schema.ids) :
    (Select.reuseOrdered mergeable schema selects).passesThrough ids = true :=
  reuseOrdered_cases (fun select _ hadmits => hmerge select hadmits) (passesThrough_wrap h)
    (fun _ _ => passesThrough_wrapOrdered h)

theorem passesThrough_filterInput {condition : Filter}
    (h : ∀ id ∈ condition.columns, id ∈ schema.ids) :
    (Select.reuseOrdered (admitsFilter condition) schema selects).passesThrough
      condition.columns = true :=
  passesThrough_reuseOrdered (fun _ hadmits => (admitsFilter_iff.mp hadmits).2.2) h

theorem passesThrough_extendInput {id : String} {exp : ValueExpr}
    (h : ∀ id ∈ exp.columns, id ∈ schema.ids) :
    (Select.reuseOrdered (admitsExtend id exp) schema selects).passesThrough exp.columns = true :=
  passesThrough_reuseOrdered (fun _ hadmits => (admitsExtend_iff.mp hadmits).2.1) h

theorem passesThrough_groupByInput {keys : List String} {aggs : List Aggregate}
    (h : ∀ id ∈ keys ++ aggs.map Aggregate.column, id ∈ schema.ids) :
    (Select.reuse (admitsGroupBy keys aggs) schema selects).passesThrough
      (keys ++ aggs.map Aggregate.column) = true :=
  passesThrough_reuse (fun _ hadmits => (admitsGroupBy_iff.mp hadmits).2.2.2) h

-- A filter goes into no select that groups, and a grouping into none that is sorted either.

theorem groupBy_filterInput {condition : Filter} :
    (Select.reuseOrdered (admitsFilter condition) schema selects).groupBy = [] :=
  reuseOrdered_cases (P := fun select => select.groupBy = [])
    (fun _ _ hadmits => (admitsFilter_iff.mp hadmits).1) rfl (fun _ _ => rfl)

theorem groupBy_groupByInput {keys : List String} {aggs : List Aggregate} :
    (Select.reuse (admitsGroupBy keys aggs) schema selects).groupBy = [] :=
  reuse_cases (P := fun select => select.groupBy = [])
    (fun _ _ hadmits => (admitsGroupBy_iff.mp hadmits).1) rfl

theorem orderBy_groupByInput {keys : List String} {aggs : List Aggregate} :
    (Select.reuse (admitsGroupBy keys aggs) schema selects).orderBy = [] :=
  reuse_cases (P := fun select => select.orderBy = [])
    (fun _ _ hadmits => (admitsGroupBy_iff.mp hadmits).2.1) rfl

-- Only a projection and a renaming go into a join.

theorem isJoin_filterInput {condition : Filter} :
    (Select.reuseOrdered (admitsFilter condition) schema selects).isJoin = false :=
  reuseOrdered_cases (P := fun select => select.isJoin = false)
    (fun _ _ hadmits => (admitsFilter_iff.mp hadmits).2.1) rfl (fun _ _ => rfl)

theorem isJoin_extendInput {id : String} {exp : ValueExpr} :
    (Select.reuseOrdered (admitsExtend id exp) schema selects).isJoin = false :=
  reuseOrdered_cases (P := fun select => select.isJoin = false)
    (fun _ _ hadmits => (admitsExtend_iff.mp hadmits).1) rfl (fun _ _ => rfl)

theorem isJoin_groupByInput {keys : List String} {aggs : List Aggregate} :
    (Select.reuse (admitsGroupBy keys aggs) schema selects).isJoin = false :=
  reuse_cases (P := fun select => select.isJoin = false)
    (fun _ _ hadmits => (admitsGroupBy_iff.mp hadmits).2.2.1) rfl

theorem isJoin_sortInput : (Select.reuse admitsSort schema selects).isJoin = false :=
  reuse_cases (P := fun select => select.isJoin = false)
    (fun _ _ hadmits => by simpa [admitsSort] using hadmits) rfl

-- A projection always goes into the select that it is given.
theorem admitsProject_reuseOrdered (ids : List String)
    (h : ∀ select ∈ selects, select.Lowered schema) :
    (Select.reuseOrdered (admitsProject ids) schema selects).admitsProject ids = true := by
  refine reuseOrdered_cases (fun _ _ hmerge => hmerge) rfl fun select hselect => ?_
  have hlowered := (h select (by simp [hselect])).wrapOrdered
  have hgroup : (select.wrapOrdered schema).groupBy = [] := rfl
  apply List.all_eq_true.mpr
  intro key hkey
  simp only [canHide, Bool.or_eq_true]
  rcases hlowered.keys key hkey with hid | hhides
  · exact Or.inr (Or.inr (by simp [isIdentityAt_wrapOrdered hid, isJoin, hgroup]))
  · exact Or.inr (Or.inl hhides)

end Select

end Sql

end PivotQuery
