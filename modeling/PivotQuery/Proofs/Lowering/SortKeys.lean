import PivotQuery.Proofs.Lowering.Operators
import PivotQuery.Proofs.NumberedNames

namespace PivotQuery

-- No column has a name that the lowering keeps for hidden columns.
def Schema.Unreserved (schema : Schema) : Prop :=
  ∀ id ∈ schema.ids, ∀ index, id ≠ Sql.orderColumn index

def Query.Unreserved (query : Query) : Prop :=
  query.Everywhere fun node => node.schema.Unreserved

namespace Sql

theorem orderColumn_injective {i j : Nat} (h : orderColumn i = orderColumn j) : i = j :=
  numbered_injective "_order" h

theorem ne_orderColumn {id : String} (h : ¬"_order".toList <+: id.toList) (index : Nat) :
    id ≠ orderColumn index := by
  rintro rfl
  simp [orderColumn] at h

namespace Select

-- What a select hides bears the name of none of its columns, and a name for hidden columns
-- only at the place that the name tells. So a sort key of such a name means what is hidden,
-- and a new name for it means no other hidden column.
structure Apart (select : Select) (schema : Schema) : Prop where
  fresh : ∀ id ∈ schema.ids, select.hides id = false
  inPlace : ∀ entry ∈ select.hidden.zipIdx, ∀ index,
    entry.1.name = orderColumn index → index = entry.2

-- The part of it that an operator has to keep for the order to be read.
def Fresh (select : Select) (schema : Schema) : Prop :=
  ∀ id ∈ schema.ids, select.hides id = false

-- The order of a select can be taken over by a select that is to have some columns: the names for
-- what is hidden are none of theirs, and nothing hidden has the name that is made up for what is
-- hidden before it.
structure HandsOver (select : Select) (ids : List String) : Prop where
  free : ∀ place < select.hidden.length, orderColumn place ∉ ids
  later : ∀ entry ∈ select.hidden.zipIdx, ∀ place < entry.2, entry.1.name ≠ orderColumn place

-- The same of a query to which an operator is applied, where it can be needed only if the
-- operator cannot go into a sorted select.
def OrderStays (mergeable : Select → Bool) (ids : List String) (selects : List Select) : Prop :=
  ∀ select, selects = [select] → mergeable select = false → select.orderBy ≠ [] →
    select.HandsOver ids

variable {select other : Select} {schema result : Schema} {selects : List Select}
variable {ids others : List String}

theorem hides_eq_false_iff {name : String} :
    select.hides name = false ↔ ∀ item ∈ select.hidden, item.name ≠ name := by
  simp [hides]

theorem hides_wrapOrdered {id : String}
    (h : ∀ place < select.hidden.length, orderColumn place ≠ id) :
    (select.wrapOrdered schema).hides id = false := by
  rw [hides_eq_false_iff, wrapOrdered_hidden]
  intro item hitem
  obtain ⟨⟨own, place⟩, hentry, rfl⟩ := List.mem_map.mp hitem
  have hplace := List.mem_zipIdx_iff_getElem?.mp hentry
  exact h place (List.getElem?_eq_some_iff.mp hplace).1

theorem hides_orderColumn_wrapOrdered {place : Nat} (h : place < select.hidden.length) :
    (select.wrapOrdered schema).hides (orderColumn place) = true := by
  have hitem : (select.hidden[place], place) ∈ select.hidden.zipIdx :=
    List.mem_zipIdx_iff_getElem?.mpr (List.getElem?_eq_getElem h)
  rw [hides_iff, wrapOrdered_hidden]
  exact ⟨_, List.mem_map_of_mem hitem, rfl⟩

theorem HandsOver.mono (h : select.HandsOver ids) (hsub : others ⊆ ids) : select.HandsOver others :=
  ⟨fun place hplace hid => h.free place hplace (hsub hid), h.later⟩

theorem OrderStays.mono {mergeable : Select → Bool} (h : OrderStays mergeable ids selects)
    (hsub : others ⊆ ids) : OrderStays mergeable others selects :=
  fun select hselect hadmits hsorted => (h select hselect hadmits hsorted).mono hsub

theorem Apart.handsOver (h : select.Apart schema)
    (hids : ∀ id ∈ ids, ∀ index, id ≠ orderColumn index) : select.HandsOver ids where
  free place _ hid := hids _ hid place rfl
  later entry hentry place hlt hname := hlt.ne (h.inPlace entry hentry place hname)

theorem orderStays_of_apart (mergeable : Select → Bool)
    (h : ∀ select ∈ selects, select.Apart schema)
    (hids : ∀ id ∈ ids, ∀ index, id ≠ orderColumn index) : OrderStays mergeable ids selects :=
  fun select hselect _ _ => (h select (by simp [hselect])).handsOver hids

-- What an operator goes into hides none of its columns, nor any that the operator gives to it.
theorem hides_reuseOrdered {mergeable : Select → Bool} {id : String}
    (h : ∀ select, selects = [select] → mergeable select = true → select.hides id = false)
    (hstays : OrderStays mergeable ids selects) (hid : id ∈ ids) :
    (Select.reuseOrdered mergeable schema selects).hides id = false :=
  reuseOrdered_cases_sorted (P := fun select => select.hides id = false) h rfl
    fun select hselect hadmits hsorted => hides_wrapOrdered fun place hplace hname =>
      (hstays select hselect hadmits hsorted).free place hplace (hname ▸ hid)

theorem Fresh.reuseOrdered {mergeable : Select → Bool} (h : ∀ select ∈ selects, select.Fresh schema)
    (hstays : OrderStays mergeable schema.ids selects) :
    (Select.reuseOrdered mergeable schema selects).Fresh schema := fun id hid =>
  hides_reuseOrdered (fun select hselect _ => h select (by simp [hselect]) id hid) hstays hid

theorem Apart.of_hidden_nil (h : select.hidden = []) : select.Apart schema :=
  ⟨by simp [hides, h], by simp [h]⟩

theorem Apart.wrap : (wrap selects schema).Apart schema := .of_hidden_nil rfl

-- The hidden columns of the select over a sorted one are named by their places.
theorem Apart.wrapOrdered (hschema : schema.Unreserved) :
    (select.wrapOrdered schema).Apart schema where
  fresh id hid := hides_wrapOrdered fun place _ => (hschema id hid place).symm
  inPlace := by
    rintro ⟨item, place⟩ hentry index hname
    rw [List.mem_zipIdx_iff_getElem?, wrapOrdered_hidden, List.getElem?_map,
      List.getElem?_zipIdx] at hentry
    obtain ⟨own, -, rfl⟩ : ∃ own : Item, select.hidden[place]? = some own ∧
        Item.column (orderColumn (0 + place)) own.type = item := by
      simpa [Option.map_map] using hentry
    rw [Nat.zero_add] at hname
    exact (orderColumn_injective hname).symm

theorem Apart.reuse (mergeable : Select → Bool) (h : ∀ select ∈ selects, select.Apart schema) :
    (reuse mergeable schema selects).Apart schema :=
  reuse_cases (fun select hselect _ => h select (by simp [hselect])) Apart.wrap

theorem Apart.reuseOrdered (mergeable : Select → Bool)
    (h : ∀ select ∈ selects, select.Apart schema) (hschema : schema.Unreserved) :
    (reuseOrdered mergeable schema selects).Apart schema :=
  reuseOrdered_cases (fun select hselect _ => h select (by simp [hselect])) Apart.wrap
    (fun _ _ => Apart.wrapOrdered hschema)

-- An operator that hides nothing more has to keep away from what is hidden only.
theorem Apart.of_hidden_eq (h : select.Apart schema) (hhidden : other.hidden = select.hidden)
    (hfresh : ∀ id ∈ result.ids, select.hides id = false) : other.Apart result where
  fresh id hid := by rw [hides, hhidden]; exact hfresh id hid
  inPlace := hhidden ▸ h.inPlace

-- What a projection hides are columns of its input, which bear none of the kept names.
theorem Fresh.project {ids : List String} (h : select.Fresh schema)
    (hresult : schema.project ids = .ok result) : (select.projected ids).Fresh result := by
  intro id hid
  rw [Schema.project_ids hresult] at hid
  refine hides_eq_false_iff.mpr (List.forall_mem_append.mpr ⟨?_, fun item hitem => ?_⟩)
  · exact hides_eq_false_iff.mp (h id (Schema.project_mem hresult id hid))
  · obtain ⟨key, hkey, hitem⟩ := List.mem_filterMap.mp hitem
    have hdropped : key.column ∉ ids := by
      have hboth := (List.mem_filter.mp hkey).2
      simp only [Bool.and_eq_true] at hboth
      simpa using hboth.1
    rw [(name_of_item? hitem).2]
    exact fun hname => hdropped (hname ▸ hid)

theorem Apart.project {ids : List String} (h : select.Apart schema)
    (hlowered : select.Lowered schema) (hschema : schema.Unreserved)
    (hresult : schema.project ids = .ok result) : (select.projected ids).Apart result where
  fresh := Fresh.project h.fresh hresult
  inPlace := by
    rintro ⟨item, place⟩ hentry index hname
    rw [show (select.projected ids).hidden = select.hidden ++ _ from rfl, List.zipIdx_append,
      List.mem_append] at hentry
    rcases hentry with hentry | hentry
    · exact h.inPlace _ hentry index hname
    · obtain ⟨key, -, hitem⟩ := List.mem_filterMap.mp (List.fst_mem_of_mem_zipIdx hentry)
      have hid : item.name ∈ schema.ids := by
        rw [← hlowered.fits.names_eq]
        exact List.mem_map_of_mem (name_of_item? hitem).1
      exact absurd hname (hschema _ hid index)

-- A new column goes into a select only if nothing hidden has its name.
theorem hides_extendInput {id : String} {exp : ValueExpr}
    (hstays : OrderStays (admitsExtend id exp) ids selects) (hid : id ∈ ids) :
    (Select.reuseOrdered (admitsExtend id exp) schema selects).hides id = false :=
  hides_reuseOrdered (fun _ _ hadmits => (admitsExtend_iff.mp hadmits).2.2) hstays hid

-- The same for the columns of a renaming: those that keep their names are not hidden before.
theorem hides_mapColumnsInput {changes : NameMap ColumnChange}
    (h : ∀ select ∈ selects, select.Fresh schema) (hresult : schema.mapped changes = .ok result)
    (hstays : OrderStays (admitsMapColumns changes) result.ids selects) : ∀ id ∈ result.ids,
    (Select.reuseOrdered (admitsMapColumns changes) schema selects).hides id = false := by
  intro id hid
  refine hides_reuseOrdered (fun select hselect hadmits => ?_) hstays hid
  rw [ids_mapped hresult] at hid
  obtain ⟨old, hold, rfl⟩ := List.mem_map.mp hid
  rcases renamed_cases changes old with hkept | hnew
  · rw [hkept]
    exact h select (by simp [hselect]) old hold
  · simp only [admitsMapColumns, Bool.not_eq_true', List.any_eq_false] at hadmits
    simpa using hadmits _ hnew

theorem Apart.hides_mapColumnsInput {changes : NameMap ColumnChange}
    (h : ∀ select ∈ selects, select.Apart schema) (hresult : schema.mapped changes = .ok result)
    (hunreserved : result.Unreserved) : ∀ id ∈ result.ids,
    (Select.reuseOrdered (admitsMapColumns changes) schema selects).hides id = false :=
  Select.hides_mapColumnsInput (fun select hselect => (h select hselect).fresh) hresult
    (orderStays_of_apart _ h hunreserved)

end Select

end Sql

namespace Query

open Sql (Select)

theorem Unreserved.schema {query : Query} {schema : Schema} (h : query.Unreserved)
    (hinfer : query.infer = .ok schema) : schema.Unreserved :=
  schema_of_infer hinfer ▸ h.self

theorem lower_apart : AcceptedCases fun query schema => query.Unreserved →
    ∀ select ∈ query.lower, select.Apart schema where
  table name schema _ := List.forall_mem_singleton.mpr (.of_hidden_nil rfl)
  sql text schema _ := List.forall_mem_singleton.mpr (.of_hidden_nil rfl)
  project {input ids schema result} hinput h ih hunreserved := by
    have hschema := Unreserved.schema (hunreserved.input rfl) hinput
    have hlowered := lower_lowered.holds hinput
    rw [lower, schema_of_infer hinput]
    exact List.forall_mem_singleton.mpr
      ((Select.Apart.reuseOrdered _ (ih (hunreserved.input rfl)) hschema).project
        (Select.Lowered.reuseOrdered _ hlowered.each) hschema h)
  filter {input condition schema result} hinput h ih hunreserved := by
    have hschema := Unreserved.schema (hunreserved.input rfl) hinput
    have hreused := Select.Apart.reuseOrdered (Select.admitsFilter condition)
      (ih (hunreserved.input rfl)) hschema
    obtain ⟨rfl, -⟩ := Schema.filtered_ok h
    rw [lower, schema_of_infer hinput]
    exact List.forall_mem_singleton.mpr (hreused.of_hidden_eq rfl hreused.fresh)
  extend {input id exp options schema result} hinput h ih hunreserved := by
    have hschema := Unreserved.schema (hunreserved.input rfl) hinput
    have hreused := Select.Apart.reuseOrdered (Select.admitsExtend id exp)
      (ih (hunreserved.input rfl)) hschema
    have hresult := hunreserved.schema (bind_eq_ok.mpr ⟨schema, hinput, h⟩)
    have hstays := Select.orderStays_of_apart (Select.admitsExtend id exp)
      (ih (hunreserved.input rfl)) hresult
    have hnew : id ∈ result.ids := by simp [Schema.ids_extended h]
    rw [lower, schema_of_infer hinput]
    refine List.forall_mem_singleton.mpr (hreused.of_hidden_eq rfl ?_)
    rw [Schema.ids_extended h]
    exact List.forall_mem_append.mpr ⟨hreused.fresh,
      List.forall_mem_singleton.mpr (Select.hides_extendInput hstays hnew)⟩
  groupBy {input keys aggs schema result} hinput h ih hunreserved := by
    have hreused := Select.Apart.reuse (Select.admitsGroupBy keys aggs)
      (ih (hunreserved.input rfl))
    rw [lower, schema_of_infer hinput]
    refine List.forall_mem_singleton.mpr (hreused.of_hidden_eq rfl fun id hid => ?_)
    rw [Schema.ids_grouped h] at hid
    exact hreused.fresh id (Schema.grouped_mem h id hid)
  join _ _ _ _ _ _ := List.forall_mem_singleton.mpr (.of_hidden_nil rfl)
  concat {branches schemas result} hbranches h hunreserved := by
    have hinfer := infer_concat (hbranches.imp fun _ _ hbranch => hbranch.1) h
    rw [lower, schema_of_infer hinfer]
    intro select hselect
    obtain ⟨query, hquery, own, hmem, rfl⟩ := mem_lowerBranches.mp hselect
    obtain ⟨schema, hschema, hquery', ih⟩ := exists_mem_right hbranches hquery
    rw [schema_of_infer hquery'] at hmem
    have hbranch : own.Apart schema :=
      Select.branch_cases (lower_lowered.holds hquery')
        (fun own hown _ => ih (hunreserved.branch hquery) own hown) Select.Apart.wrap own hmem
    refine hbranch.of_hidden_eq rfl fun id hid => hbranch.fresh id ?_
    obtain ⟨column, hcolumn, rfl⟩ := Schema.mem_ids.mp hid
    exact ((Schema.concatenated_ok h).2 schema hschema).mem_ids hcolumn
  sort _ _ _ _ := List.forall_mem_singleton.mpr (.of_hidden_nil rfl)
  mapColumns {input changes schema result} hinput h ih hunreserved := by
    have hapart := ih (hunreserved.input rfl)
    have hschema := Unreserved.schema (hunreserved.input rfl) hinput
    have hresult := hunreserved.schema (bind_eq_ok.mpr ⟨schema, hinput, h⟩)
    rw [lower, schema_of_infer hinput]
    exact List.forall_mem_singleton.mpr
      ((Select.Apart.reuseOrdered _ hapart hschema).of_hidden_eq rfl
        (Select.Apart.hides_mapColumnsInput hapart h hresult))

end Query

end PivotQuery
