import PivotQuery.Proofs.Lowering.Scope
import PivotQuery.Proofs.Lowering.SortKeys
import Mathlib.Data.List.NodupEquivFin

namespace PivotQuery

-- A sort that names no column twice.
def Query.sortsOnce : Query → Bool
  | .sort _ keys => decide (keys.map SortKey.column).Nodup
  | _ => true

-- No sort in a query names a column twice.
def Query.SortsOnce (query : Query) : Prop := query.Everywhere fun node => node.sortsOnce = true

instance (query : Query) : Decidable query.SortsOnce :=
  inferInstanceAs (Decidable (query.Everywhere fun node => node.sortsOnce = true))

namespace Sql.Select

def hiddenNames (select : Select) : List String := select.hidden.map Item.name

def keyColumns (select : Select) : List String := select.orderBy.map SortKey.column

-- What a select hides are columns of its source under their own names: one for each sort key
-- that means it, if its name is not made up. Only a select over a source without equal names
-- is sorted.
structure HidesKeys (select : Select) : Prop where
  perKey : ∀ name ∈ select.hiddenNames, (∀ index, name ≠ orderColumn index) →
    select.hiddenNames.count name = select.keyColumns.count name
  identity : ∀ item ∈ select.hidden, item.exp = .value (.column item.name)
  unordered : select.isJoin = true → select.orderBy = []
  source : select.isJoin = false → select.source.columns.Nodup

variable {select : Select} {schema result : Schema} {selects : List Select}

theorem mem_hiddenNames {name : String} :
    name ∈ select.hiddenNames ↔ select.hides name = true := by
  simp [hiddenNames, hides]

theorem Apart.fresh_of_mem_hiddenNames (h : select.Apart schema) {name : String}
    (hname : name ∈ select.hiddenNames) : name ∉ schema.ids := by
  intro hid
  have hfresh := h.fresh name hid
  simp [mem_hiddenNames.mp hname] at hfresh

-- A name that is made up tells the place of the hidden column, so it is there once.
theorem Apart.count_orderColumn (h : select.Apart schema) {index : Nat}
    (hmem : orderColumn index ∈ select.hiddenNames) :
    select.hiddenNames.count (orderColumn index) = 1 := by
  refine Nat.le_antisymm (Nat.not_lt.mp fun hmany => ?_) (List.count_pos_iff.mpr hmem)
  obtain ⟨i, j, hij, hfirst, hsecond⟩ := List.duplicate_iff_exists_distinct_get.mp
    (List.duplicate_iff_two_le_count.mpr hmany)
  have hplace : ∀ place : Fin select.hiddenNames.length,
      orderColumn index = select.hiddenNames.get place → index = place := by
    intro place hname
    have hlt : place.val < select.hidden.length := by simpa [hiddenNames] using place.isLt
    refine h.inPlace (select.hidden[place.val], place.val) ?_ index ?_
    · exact List.mem_zipIdx_iff_getElem?.mpr (List.getElem?_eq_getElem hlt)
    · rw [hname, List.get_eq_getElem]
      simp only [hiddenNames, List.getElem_map]
  exact absurd ((hplace i hfirst).symm.trans (hplace j hsecond)) (Nat.ne_of_lt hij)

theorem HidesKeys.wrap (h : Sql.Lowered selects schema) : (wrap selects schema).HidesKeys where
  perKey := by simp [Select.wrap, plain, hiddenNames]
  identity := by simp [Select.wrap, plain]
  unordered _ := rfl
  source _ := by
    rw [show (Select.wrap selects schema).source.columns = columnNames selects from rfl,
      h.columnNames_eq]
    exact schema.distinct

theorem names_exposedInner_eq (select : Select) :
    select.exposedInner.names =
      select.names ++ (List.range select.hidden.length).map orderColumn := by
  have hplaces : select.hidden.zipIdx.map (fun entry => orderColumn entry.2) =
      (List.range select.hidden.length).map orderColumn := by
    rw [List.range_eq_range', ← List.zipIdx_map_snd 0 select.hidden, List.map_map]
    rfl
  rw [names_exposedInner, hplaces]

-- Written out under made up names, the hidden columns are distinct from each other. They are
-- distinct from the columns of the result exactly if none of these has such a name.
theorem nodup_names_exposedInner_iff (h : select.Lowered schema) :
    select.exposedInner.names.Nodup ↔
      ∀ index < select.hidden.length, orderColumn index ∉ schema.ids := by
  rw [names_exposedInner_eq, h.fits.names_eq, List.nodup_append]
  constructor
  · rintro ⟨-, -, hapart⟩ index hlt hid
    exact hapart _ hid _ (List.mem_map_of_mem (List.mem_range.mpr hlt)) rfl
  · intro hfree
    refine ⟨schema.distinct, List.nodup_range.map fun _ _ => orderColumn_injective, ?_⟩
    rintro name hname _ hmade rfl
    obtain ⟨index, hindex, rfl⟩ := List.mem_map.mp hmade
    exact hfree index (List.mem_range.mp hindex) hname

theorem nodup_names_exposedInner (h : select.Lowered schema) (hschema : schema.Unreserved) :
    select.exposedInner.names.Nodup :=
  (nodup_names_exposedInner_iff h).mpr fun index _ hid => hschema _ hid index rfl

theorem HidesKeys.wrapOrdered (h : select.Lowered schema) (hschema : schema.Unreserved) :
    (select.wrapOrdered schema).HidesKeys where
  perKey := by
    intro name hname hreal
    rw [hiddenNames, wrapOrdered_hidden] at hname
    obtain ⟨item, hitem, rfl⟩ := List.mem_map.mp hname
    obtain ⟨entry, -, rfl⟩ := List.mem_map.mp hitem
    exact absurd rfl (hreal entry.2)
  identity := by
    intro item hitem
    rw [wrapOrdered_hidden] at hitem
    obtain ⟨entry, -, rfl⟩ := List.mem_map.mp hitem
    rfl
  unordered hjoin := by simp [isJoin] at hjoin
  source _ := by
    rw [show (select.wrapOrdered schema).source.columns = select.exposedInner.names from rfl]
    exact nodup_names_exposedInner h hschema

theorem HidesKeys.reuse (mergeable : Select → Bool) (hlowered : Sql.Lowered selects schema)
    (h : ∀ select ∈ selects, select.HidesKeys) : (reuse mergeable schema selects).HidesKeys :=
  reuse_cases (fun select hselect _ => h select (by simp [hselect])) (HidesKeys.wrap hlowered)

theorem HidesKeys.reuseOrdered (mergeable : Select → Bool) (hlowered : Sql.Lowered selects schema)
    (hschema : schema.Unreserved) (h : ∀ select ∈ selects, select.HidesKeys) :
    (reuseOrdered mergeable schema selects).HidesKeys :=
  reuseOrdered_cases (fun select hselect _ => h select (by simp [hselect]))
    (HidesKeys.wrap hlowered)
    (fun select hselect => HidesKeys.wrapOrdered (hlowered.each select (by simp [hselect])) hschema)

-- The sort keys whose columns leave the result.
def droppedKeys (ids : List String) (select : Select) : List SortKey :=
  select.orderBy.filter fun key => !ids.contains key.column && !select.hides key.column

theorem mem_droppedKeys {ids : List String} {key : SortKey} :
    key ∈ select.droppedKeys ids ↔
      key ∈ select.orderBy ∧ key.column ∉ ids ∧ select.hides key.column = false := by
  simp [droppedKeys]

theorem count_droppedKeys {ids : List String} {name : String} (hdropped : name ∉ ids)
    (hvisible : select.hides name = false) :
    ((select.droppedKeys ids).map SortKey.column).count name = select.keyColumns.count name := by
  have hfilter : (select.droppedKeys ids).map SortKey.column =
      select.keyColumns.filter fun name => !ids.contains name && !select.hides name := by
    rw [droppedKeys, keyColumns, List.filter_map]
    rfl
  rw [hfilter, List.count_filter (by simpa [hvisible] using hdropped)]

theorem hiddenNames_projected {ids : List String} (h : select.Lowered schema) :
    (select.projected ids).hiddenNames =
      select.hiddenNames ++ (select.droppedKeys ids).map SortKey.column := by
  have hnew : (select.projected ids).hidden = select.hidden ++
      (select.droppedKeys ids).filterMap fun key => select.item? key.column := rfl
  rw [hiddenNames, hnew, List.map_append, hiddenNames]
  congr 1
  refine map_eq_map (R := fun item key => item.name = key.column)
    (forall₂_filterMap (List.forall₂_same.mpr fun key hkey => ?_)) fun _ _ hname => hname
  -- the order refers to a column of the result, because it means nothing hidden
  obtain ⟨hkey, -, hvisible⟩ := mem_droppedKeys.mp hkey
  have hid := (h.keys key hkey).resolve_right (by simp [hvisible])
  obtain ⟨item, hitem⟩ := Option.isSome_iff_exists.mp (h.fits.item?_isSome hid)
  exact ⟨item, hitem, (name_of_item? hitem).2⟩

theorem HidesKeys.project {ids : List String} (h : select.HidesKeys)
    (hlowered : select.Lowered schema) (hadmits : select.admitsProject ids = true) :
    (select.projected ids).HidesKeys where
  perKey := by
    intro name hname hreal
    have hkeys : (select.projected ids).keyColumns = select.keyColumns := rfl
    rw [hiddenNames_projected hlowered, List.mem_append] at hname
    rw [hiddenNames_projected hlowered, List.count_append, hkeys]
    by_cases hhides : select.hides name = true
    · -- what is hidden already is not hidden again
      have hnone : name ∉ (select.droppedKeys ids).map SortKey.column := by
        intro hmem
        obtain ⟨key, hkey, rfl⟩ := List.mem_map.mp hmem
        simp [(mem_droppedKeys.mp hkey).2.2] at hhides
      rw [List.count_eq_zero.mpr hnone, Nat.add_zero]
      exact h.perKey name (mem_hiddenNames.mpr hhides) hreal
    · have hnone : name ∉ select.hiddenNames := fun hmem => hhides (mem_hiddenNames.mp hmem)
      obtain ⟨key, hkey, rfl⟩ := List.mem_map.mp (hname.resolve_left hnone)
      obtain ⟨-, hdropped, hvisible⟩ := mem_droppedKeys.mp hkey
      rw [List.count_eq_zero.mpr hnone, Nat.zero_add, count_droppedKeys hdropped hvisible]
  identity := by
    intro item hitem
    rcases List.mem_append.mp hitem with hitem | hitem
    · exact h.identity item hitem
    · obtain ⟨key, hkey, hitem⟩ := List.mem_filterMap.mp hitem
      obtain ⟨hkey, hdropped, hvisible⟩ := mem_droppedKeys.mp hkey
      have hallowed := List.all_eq_true.mp hadmits key hkey
      simp only [canHide, hvisible, Bool.false_or, Bool.or_eq_true, Bool.and_eq_true,
        List.contains_eq_mem, decide_eq_true_eq] at hallowed
      obtain ⟨found, hfound, hexp⟩ := isIdentityAt_iff.mp (hallowed.resolve_left hdropped).2
      obtain rfl : found = item := Option.some.inj (hfound.symm.trans hitem)
      rw [hexp, (name_of_item? hitem).2]
  unordered := h.unordered
  source := h.source

theorem HidesKeys.filter {condition : Filter} (h : select.HidesKeys) :
    (select.filtered condition).HidesKeys :=
  ⟨h.perKey, h.identity, h.unordered, h.source⟩

theorem HidesKeys.extend {id : String} {exp : ValueExpr} {type : ColumnType}
    (h : select.HidesKeys) : (select.extended id exp type).HidesKeys :=
  ⟨h.perKey, h.identity, h.unordered, h.source⟩

theorem HidesKeys.group {keys : List String} {aggs : List Aggregate} (h : select.HidesKeys) :
    (select.grouped schema keys aggs).HidesKeys :=
  ⟨h.perKey, h.identity, h.unordered, h.source⟩

theorem HidesKeys.sort {keys : List SortKey} (h : select.HidesKeys)
    (hjoin : select.isJoin = false) : (select.sorted keys).HidesKeys where
  perKey := by simp [sorted, hiddenNames]
  identity := by simp [sorted]
  unordered hother := by
    have hsame : (select.sorted keys).isJoin = select.isJoin := rfl
    simp [hsame, hjoin] at hother
  source := h.source

theorem HidesKeys.align (h : select.HidesKeys) : (select.align schema).HidesKeys :=
  ⟨h.perKey, h.identity, h.unordered, h.source⟩

-- A renaming goes past a sort key that means something hidden, and makes none.
theorem renamed_eq_hidden_iff {changes : NameMap ColumnChange} (hlowered : select.Lowered schema)
    (hapart : select.Apart schema) (hresult : schema.mapped changes = .ok result)
    (hfresh : ∀ id ∈ result.ids, select.hides id = false) {key : SortKey}
    (hkey : key ∈ select.orderBy) {name : String} (hname : name ∈ select.hiddenNames) :
    renamed changes key.column = name ↔ key.column = name := by
  have hkept : ∀ {hidden}, hidden ∈ select.hiddenNames → renamed changes hidden = hidden :=
    fun hmem => renamed_of_not_mem fun hin =>
      hapart.fresh_of_mem_hiddenNames hmem ((Schema.mapped_ok hresult).2 _ hin)
  rcases hlowered.keys key hkey with hid | hhides
  · have hvisible : select.hides (renamed changes key.column) = false :=
      hfresh _ (ids_mapped hresult ▸ List.mem_map_of_mem hid)
    constructor
    · rintro rfl
      simp [mem_hiddenNames.mp hname] at hvisible
    · rintro rfl
      exact hkept hname
  · rw [hkept (mem_hiddenNames.mpr hhides)]

theorem HidesKeys.mapColumns {changes : NameMap ColumnChange} (h : select.HidesKeys)
    (hlowered : select.Lowered schema) (hapart : select.Apart schema)
    (hresult : schema.mapped changes = .ok result)
    (hfresh : ∀ id ∈ result.ids, select.hides id = false) : (select.mapped changes).HidesKeys where
  perKey := by
    intro name hname hreal
    have hkeys : (select.mapped changes).keyColumns =
        select.orderBy.map fun key => renamed changes key.column := by
      simp [keyColumns, mapped]
    rw [show (select.mapped changes).hiddenNames = select.hiddenNames from rfl] at hname ⊢
    rw [h.perKey name hname hreal, hkeys, keyColumns, List.count_eq_countP, List.count_eq_countP,
      List.countP_map, List.countP_map]
    refine List.countP_congr fun key hkey => ?_
    simpa using (renamed_eq_hidden_iff hlowered hapart hresult hfresh hkey hname).symm
  identity := h.identity
  unordered hjoin := by
    rw [show (select.mapped changes).orderBy = select.orderBy.map _ from rfl, h.unordered hjoin,
      List.map_nil]
  source := h.source

theorem HidesKeys.ofJoin {left : Schema} {lhs rhs : List Select} {type : JoinType}
    {on : List String} : (ofJoin schema left lhs rhs type on).HidesKeys where
  perKey := by simp [Select.ofJoin, plain, hiddenNames]
  identity := by simp [Select.ofJoin, plain]
  unordered _ := rfl
  source hother := by simp [isJoin] at hother

-- In the order of the select over a sorted one, a key that means something hidden has the name
-- of its place, and every other key is as it was.

theorem exposedKey_of_visible {key : SortKey} (h : select.hides key.column = false) :
    exposedKey select.hidden.zipIdx key = key :=
  exposedKey_of_not_hidden fun entry hentry =>
    hides_eq_false_iff.mp h entry.1 (List.fst_mem_of_mem_zipIdx hentry)

theorem Apart.exposedKey_of_hides (hapart : select.Apart schema) {key : SortKey}
    (h : select.hides key.column = true) :
    ∃ entry ∈ select.hidden.zipIdx, entry.1.name = key.column ∧
      exposedKey select.hidden.zipIdx key = { key with column := orderColumn entry.2 } := by
  obtain ⟨item, hitem, hname⟩ := hides_iff.mp h
  obtain ⟨index, hindex⟩ := exists_mem_zipIdx hitem
  obtain ⟨entry, hentry⟩ := Option.isSome_iff_exists.mp (List.find?_isSome.mpr
    ⟨_, hindex, by simpa using hname⟩ :
      (select.hidden.zipIdx.find? fun entry => entry.1.name == key.column).isSome)
  refine ⟨entry, List.mem_of_find?_eq_some hentry, by simpa using List.find?_some hentry, ?_⟩
  exact exposedKey_of_find hentry (by simpa using List.pairwise_lt_range')
    fun other hother hlt hname => hlt.ne (hapart.inPlace other hother _ hname)

-- Sort keys of distinct columns stay apart under the names that hidden columns get.
theorem nodup_keyColumns_wrapOrdered (hlowered : select.Lowered schema)
    (hapart : select.Apart schema) (hschema : schema.Unreserved) (h : select.keyColumns.Nodup) :
    (select.wrapOrdered schema).keyColumns.Nodup := by
  have hhidden : ∀ key : SortKey, select.hides key.column = true →
      ∃ entry ∈ select.hidden.zipIdx, entry.1.name = key.column ∧
        (exposedKey select.hidden.zipIdx key).column = orderColumn entry.2 := by
    intro key hhides
    obtain ⟨entry, hentry, hname, hexposed⟩ := hapart.exposedKey_of_hides hhides
    exact ⟨entry, hentry, hname, by rw [hexposed]⟩
  have hkept : ∀ key ∈ select.orderBy, select.hides key.column = false →
      (exposedKey select.hidden.zipIdx key).column = key.column ∧ key.column ∈ schema.ids := by
    intro key hkey hvisible
    refine ⟨?_, (hlowered.keys key hkey).resolve_right (by simp [hvisible])⟩
    rw [exposedKey_of_visible hvisible]
  have hkeys : (select.wrapOrdered schema).keyColumns =
      select.orderBy.map fun key => (exposedKey select.hidden.zipIdx key).column := by
    rw [keyColumns, wrapOrdered_orderBy, List.map_map]
    rfl
  rw [hkeys]
  refine List.Nodup.map_on ?_ h.of_map
  intro a ha b hb hab
  refine List.inj_on_of_nodup_map h ha hb ?_
  cases hida : select.hides a.column <;> cases hidb : select.hides b.column
  case false.false =>
    rw [← (hkept a ha hida).1, ← (hkept b hb hidb).1, hab]
  case false.true =>
    obtain ⟨entry, -, -, hname⟩ := hhidden b hidb
    obtain ⟨hsame, hid⟩ := hkept a ha hida
    exact absurd (hsame.symm.trans (hab.trans hname)) (hschema _ hid _)
  case true.false =>
    obtain ⟨entry, -, -, hname⟩ := hhidden a hida
    obtain ⟨hsame, hid⟩ := hkept b hb hidb
    exact absurd (hsame.symm.trans (hab.symm.trans hname)) (hschema _ hid _)
  case true.true =>
    obtain ⟨entry, hentry, hnamea, hplacea⟩ := hhidden a hida
    obtain ⟨other, hother, hnameb, hplaceb⟩ := hhidden b hidb
    have hplace := orderColumn_injective (hplacea.symm.trans (hab.trans hplaceb))
    have hsame : entry.1 = other.1 := by
      rw [List.mem_zipIdx_iff_getElem?] at hentry hother
      rw [hplace, hother] at hentry
      exact (Option.some.inj hentry).symm
    rw [← hnamea, ← hnameb, hsame]

-- A renaming keeps them apart too, because the columns of its result have distinct ids.
theorem nodup_keyColumns_mapped {changes : NameMap ColumnChange}
    (hlowered : select.Lowered schema) (hapart : select.Apart schema)
    (hresult : schema.mapped changes = .ok result)
    (hfresh : ∀ id ∈ result.ids, select.hides id = false) (h : select.keyColumns.Nodup) :
    (select.mapped changes).keyColumns.Nodup := by
  have hkeys : (select.mapped changes).keyColumns =
      select.orderBy.map fun key => renamed changes key.column := by
    simp [keyColumns, mapped]
  have hdistinct : (schema.ids.map (renamed changes)).Nodup := ids_mapped hresult ▸ result.distinct
  have hhidden : ∀ a ∈ select.orderBy, ∀ b ∈ select.orderBy, select.hides b.column = true →
      renamed changes a.column = renamed changes b.column → a.column = b.column := by
    intro a ha b hb hhides hab
    have hmem := mem_hiddenNames.mpr hhides
    have hkept := (renamed_eq_hidden_iff hlowered hapart hresult hfresh hb hmem).mpr rfl
    exact (renamed_eq_hidden_iff hlowered hapart hresult hfresh ha hmem).mp (hab.trans hkept)
  rw [hkeys]
  refine List.Nodup.map_on ?_ h.of_map
  intro a ha b hb hab
  refine List.inj_on_of_nodup_map h ha hb ?_
  rcases hlowered.keys a ha with hida | hidesa
  · rcases hlowered.keys b hb with hidb | hidesb
    · exact List.inj_on_of_nodup_map hdistinct hida hidb hab
    · exact hhidden a ha b hb hidesb hab
  · exact (hhidden b hb a ha hidesa hab.symm).symm

theorem nodup_keyColumns_reuse (mergeable : Select → Bool)
    (h : ∀ select ∈ selects, select.keyColumns.Nodup) :
    (Select.reuse mergeable schema selects).keyColumns.Nodup :=
  reuse_cases (P := fun select => select.keyColumns.Nodup)
    (fun select hselect _ => h select (by simp [hselect])) .nil

theorem nodup_keyColumns_reuseOrdered (mergeable : Select → Bool)
    (hlowered : Sql.Lowered selects schema) (hapart : ∀ select ∈ selects, select.Apart schema)
    (hschema : schema.Unreserved) (h : ∀ select ∈ selects, select.keyColumns.Nodup) :
    (Select.reuseOrdered mergeable schema selects).keyColumns.Nodup :=
  reuseOrdered_cases (P := fun select => select.keyColumns.Nodup)
    (fun select hselect _ => h select (by simp [hselect])) .nil
    (fun select hselect => nodup_keyColumns_wrapOrdered (hlowered.each select (by simp [hselect]))
      (hapart select (by simp [hselect])) hschema (h select (by simp [hselect])))

end Sql.Select

namespace Query

open Sql (Select)

section Inputs

variable {input : Query} {schema : Schema}

-- The select that an operator goes on with, if the order of its input stays.

theorem hidesKeys_reuseOrdered (mergeable : Select → Bool) (hinput : input.infer = .ok schema)
    (hunreserved : input.Unreserved) (h : ∀ select ∈ input.lower, select.HidesKeys) :
    (Select.reuseOrdered mergeable schema input.lower).HidesKeys :=
  Select.HidesKeys.reuseOrdered mergeable (lower_lowered.holds hinput)
    (Unreserved.schema hunreserved hinput) h

theorem nodup_keyColumns_reuseOrdered (mergeable : Select → Bool)
    (hinput : input.infer = .ok schema) (hunreserved : input.Unreserved)
    (h : ∀ select ∈ input.lower, select.keyColumns.Nodup) :
    (Select.reuseOrdered mergeable schema input.lower).keyColumns.Nodup :=
  Select.nodup_keyColumns_reuseOrdered mergeable (lower_lowered.holds hinput)
    (lower_apart.holds hinput hunreserved) (Unreserved.schema hunreserved hinput) h

end Inputs

theorem lower_hidesKeys : AcceptedCases fun query _ => query.Unreserved →
    ∀ select ∈ query.lower, select.HidesKeys where
  table name schema _ := List.forall_mem_singleton.mpr
    ⟨by simp [Select.hiddenNames, Select.plain], by simp [Select.plain], fun _ => rfl,
      fun _ => schema.distinct⟩
  sql text schema _ := List.forall_mem_singleton.mpr
    ⟨by simp [Select.hiddenNames, Select.plain], by simp [Select.plain], fun _ => rfl,
      fun _ => schema.distinct⟩
  project {input ids schema result} hinput h ih hunreserved := by
    have hlowered := lower_lowered.holds hinput
    have hinner := hunreserved.input rfl
    rw [lower, schema_of_infer hinput]
    exact List.forall_mem_singleton.mpr
      ((hidesKeys_reuseOrdered _ hinput hinner (ih hinner)).project
        (Select.Lowered.reuseOrdered _ hlowered.each)
        (Select.admitsProject_reuseOrdered ids hlowered.each))
  filter {input condition schema result} hinput h ih hunreserved := by
    have hinner := hunreserved.input rfl
    rw [lower, schema_of_infer hinput]
    exact List.forall_mem_singleton.mpr
      (hidesKeys_reuseOrdered _ hinput hinner (ih hinner)).filter
  extend {input id exp options schema result} hinput h ih hunreserved := by
    have hinner := hunreserved.input rfl
    rw [lower, schema_of_infer hinput]
    exact List.forall_mem_singleton.mpr
      (hidesKeys_reuseOrdered _ hinput hinner (ih hinner)).extend
  groupBy {input keys aggs schema result} hinput h ih hunreserved := by
    rw [lower, schema_of_infer hinput]
    exact List.forall_mem_singleton.mpr (Select.HidesKeys.reuse _ (lower_lowered.holds hinput)
      (ih (hunreserved.input rfl))).group
  join _ _ _ _ _ _ := List.forall_mem_singleton.mpr .ofJoin
  concat {branches schemas result} hbranches h hunreserved := by
    have hinfer := infer_concat (hbranches.imp fun _ _ hbranch => hbranch.1) h
    rw [lower, schema_of_infer hinfer]
    intro select hselect
    obtain ⟨query, hquery, own, hmem, rfl⟩ := mem_lowerBranches.mp hselect
    obtain ⟨schema, hschema, hquery', ih⟩ := exists_mem_right hbranches hquery
    have hlowered := lower_lowered.holds hquery'
    rw [schema_of_infer hquery'] at hmem
    exact (Select.branch_cases hlowered
      (fun own hown _ => ih (hunreserved.branch hquery) own hown)
      (Select.HidesKeys.wrap hlowered) own hmem).align
  sort {input keys schema result} hinput h ih hunreserved := by
    rw [lower, schema_of_infer hinput]
    exact List.forall_mem_singleton.mpr ((Select.HidesKeys.reuse _ (lower_lowered.holds hinput)
      (ih (hunreserved.input rfl))).sort Select.isJoin_sortInput)
  mapColumns {input changes schema result} hinput h ih hunreserved := by
    have hlowered := lower_lowered.holds hinput
    have hinner := hunreserved.input rfl
    have hresult := hunreserved.schema (bind_eq_ok.mpr ⟨schema, hinput, h⟩)
    have hapart := lower_apart.holds hinput hinner
    rw [lower, schema_of_infer hinput]
    exact List.forall_mem_singleton.mpr
      ((hidesKeys_reuseOrdered _ hinput hinner (ih hinner)).mapColumns
        (Select.Lowered.reuseOrdered _ hlowered.each)
        (Select.Apart.reuseOrdered _ hapart (Unreserved.schema hinner hinput)) h
        (Select.Apart.hides_mapColumnsInput hapart h hresult))

-- Where no sort names a column twice, no order does.
theorem lower_keyColumns_nodup : AcceptedCases fun query _ => query.Unreserved →
    query.SortsOnce → ∀ select ∈ query.lower, select.keyColumns.Nodup where
  table name schema _ _ := List.forall_mem_singleton.mpr .nil
  sql text schema _ _ := List.forall_mem_singleton.mpr .nil
  project {input ids schema result} hinput h ih hunreserved honce := by
    have hinner := hunreserved.input rfl
    rw [lower, schema_of_infer hinput]
    exact List.forall_mem_singleton.mpr
      (nodup_keyColumns_reuseOrdered _ hinput hinner (ih hinner (honce.input rfl)))
  filter {input condition schema result} hinput h ih hunreserved honce := by
    have hinner := hunreserved.input rfl
    rw [lower, schema_of_infer hinput]
    exact List.forall_mem_singleton.mpr
      (nodup_keyColumns_reuseOrdered _ hinput hinner (ih hinner (honce.input rfl)))
  extend {input id exp options schema result} hinput h ih hunreserved honce := by
    have hinner := hunreserved.input rfl
    rw [lower, schema_of_infer hinput]
    exact List.forall_mem_singleton.mpr
      (nodup_keyColumns_reuseOrdered _ hinput hinner (ih hinner (honce.input rfl)))
  groupBy {input keys aggs schema result} hinput h ih hunreserved honce := by
    rw [lower, schema_of_infer hinput]
    exact List.forall_mem_singleton.mpr
      (Select.nodup_keyColumns_reuse _ (ih (hunreserved.input rfl) (honce.input rfl)))
  join _ _ _ _ _ _ _ := List.forall_mem_singleton.mpr .nil
  concat {branches schemas result} hbranches h hunreserved honce := by
    have hinfer := infer_concat (hbranches.imp fun _ _ hbranch => hbranch.1) h
    rw [lower, schema_of_infer hinfer]
    intro select hselect
    obtain ⟨query, hquery, own, hmem, rfl⟩ := mem_lowerBranches.mp hselect
    obtain ⟨schema, hschema, hquery', ih⟩ := exists_mem_right hbranches hquery
    rw [schema_of_infer hquery'] at hmem
    exact Select.branch_cases (P := fun select => select.keyColumns.Nodup)
      (lower_lowered.holds hquery')
      (fun own hown _ => ih (hunreserved.branch hquery) (honce.branch hquery) own hown) .nil own
      hmem
  sort {input keys schema result} hinput h ih hunreserved honce := by
    have hkeys : (keys.map SortKey.column).Nodup := by simpa [sortsOnce] using honce.self
    rw [lower]
    exact List.forall_mem_singleton.mpr hkeys
  mapColumns {input changes schema result} hinput h ih hunreserved honce := by
    have hlowered := lower_lowered.holds hinput
    have hinner := hunreserved.input rfl
    have hresult := hunreserved.schema (bind_eq_ok.mpr ⟨schema, hinput, h⟩)
    have hapart := lower_apart.holds hinput hinner
    rw [lower, schema_of_infer hinput]
    exact List.forall_mem_singleton.mpr (Select.nodup_keyColumns_mapped
      (Select.Lowered.reuseOrdered _ hlowered.each)
      (Select.Apart.reuseOrdered _ hapart (Unreserved.schema hinner hinput)) h
      (Select.Apart.hides_mapColumnsInput hapart h hresult)
      (nodup_keyColumns_reuseOrdered _ hinput hinner (ih hinner (honce.input rfl))))

end Query

end PivotQuery
