import PivotQuery.Proofs.Lowering.OperatorGroups
import PivotQuery.Proofs.Lowering.SortKeys
import PivotQuery.Proofs.Rows.Order

namespace PivotQuery.Sql

variable {V : Type} {engine : Engine V} {select other : Select} {schema result : Schema}
variable {selects : List Select}

namespace Select

-- The keys of two selects in turn read the same from what the selects make of a group and
-- of what it becomes.
def SameOrder (engine : Engine V) (select other : Select)
    (image : List (SourceRow V) → List (SourceRow V)) : Prop :=
  List.Forall₂ (fun key key' : SortKey => key.ascending = key'.ascending ∧ ∀ group,
    (select.sortRow engine group).get engine key.column =
      (other.sortRow engine (image group)).get engine key'.column) select.orderBy other.orderBy

theorem SameOrder.earlier_eq {image : List (SourceRow V) → List (SourceRow V)}
    (h : SameOrder engine select other image) (a b : List (SourceRow V)) :
    select.earlier engine a b = other.earlier engine (image a) (image b) :=
  precedes_congr (h.imp fun _ _ hkey => ⟨hkey.1, hkey.2 a, hkey.2 b⟩)

theorem SameOrder.of_keys (hkeys : other.orderBy = select.orderBy)
    (h : ∀ key ∈ select.orderBy, ∀ group,
      (select.sortRow engine group).get engine key.column =
        (other.sortRow engine group).get engine key.column) :
    SameOrder engine select other fun group => group := by
  rw [SameOrder, hkeys, List.forall₂_same]
  exact fun key hkey => ⟨rfl, h key hkey⟩

theorem names_valueRow_hidden {name : String} {group : List (SourceRow V)} :
    name ∈ Row.names (valueRow engine select.hidden group) ↔ select.hides name = true := by
  simp [hides]

theorem valueRow_keys {keys : List SortKey} (hfits : select.Fits schema)
    (hkeys : ∀ key ∈ keys, key.column ∈ schema.ids) (group : List (SourceRow V)) :
    valueRow engine (keys.filterMap fun key => select.item? key.column) group =
      (valueRow engine select.items group).project engine (keys.map SortKey.column) := by
  rw [← valueRow_projected hfits (List.forall_mem_map.mpr hkeys), projected]
  simp only [List.filterMap_map]
  rfl

-- A key that leaves the result is hidden from then on if it was not before.
private theorem sameOrder_projected {ids : List String} (hlowered : select.Lowered schema)
    (hfresh : select.Fresh schema) (hprojected : (select.projected ids).Lowered result)
    (hresult : schema.project ids = .ok result) :
    SameOrder engine select (select.projected ids) fun group => group := by
  have hids := Schema.project_ids hresult
  refine .of_keys rfl ?_
  intro key hkey group
  by_cases hkept : key.column ∈ ids
  · have hid : key.column ∈ schema.ids := Schema.project_mem hresult _ hkept
    rw [get_sortRow_of_mem hlowered.fits hid, get_sortRow_of_mem hprojected.fits (hids ▸ hkept),
      valueRow_projected hlowered.fits (Schema.project_mem hresult), Row.get_project hkept]
  · rw [get_sortRow_of_not_mem hprojected.fits (hids ▸ hkept), projected, valueRow_append]
    by_cases hhidden : select.hides key.column = true
    · have hid : key.column ∉ schema.ids := fun hid => by simp [hfresh _ hid] at hhidden
      rw [get_sortRow_of_not_mem hlowered.fits hid,
        Row.get_append_left (names_valueRow_hidden.mpr hhidden)]
    · have hvisible : ∀ key ∈ select.orderBy, select.hides key.column ≠ true →
          key.column ∈ schema.ids :=
        fun key hkey hhidden => (hlowered.keys key hkey).resolve_right hhidden
      rw [get_sortRow_of_mem hlowered.fits (hvisible key hkey hhidden),
        Row.get_append_right (mt names_valueRow_hidden.mp hhidden),
        valueRow_keys hlowered.fits, Row.get_project]
      · exact List.mem_map_of_mem (List.mem_filter.mpr ⟨hkey, by simp [hkept, hhidden]⟩)
      · intro dropped hdropped
        obtain ⟨hdropped, hnew⟩ := List.mem_filter.mp hdropped
        exact hvisible dropped hdropped (by simp_all)

-- A new column has the name of no key: the visible ones are no new columns, and what is
-- hidden has other names.
private theorem sameOrder_extended {id : String} {exp : ValueExpr} {type : ColumnType}
    (hlowered : select.Lowered schema)
    (hextended : (select.extended id exp type).Lowered result)
    (hresult : result.ids = schema.ids ++ [id]) (hhides : select.hides id = false) :
    SameOrder engine select (select.extended id exp type) fun group => group := by
  refine .of_keys rfl ?_
  intro key hkey group
  by_cases hid : key.column ∈ schema.ids
  · rw [get_sortRow_of_mem hlowered.fits hid,
      get_sortRow_of_mem hextended.fits (hresult ▸ List.mem_append_left _ hid), extended,
      valueRow_append, Row.get_append_left]
    rwa [hlowered.fits.names_valueRow]
  · have hhidden := (hlowered.keys key hkey).resolve_left hid
    have hother : key.column ≠ id := fun heq => by simp [← heq, hhidden] at hhides
    have hnew : key.column ∉ result.ids := by simp [hresult, hid, hother]
    rw [get_sortRow_of_not_mem hlowered.fits hid, get_sortRow_of_not_mem hextended.fits hnew]
    rfl

-- A key of a renamed column has its new name. A hidden one keeps its name, which is that of no
-- column before or after.
private theorem sameOrder_mapped {changes : NameMap ColumnChange} (hlowered : select.Lowered schema)
    (hmapped : (select.mapped changes).Lowered result)
    (hresult : schema.mapped changes = .ok result)
    (hhides : ∀ id ∈ result.ids, select.hides id = false) :
    SameOrder engine select (select.mapped changes) fun group => group := by
  rw [SameOrder, show (select.mapped changes).orderBy = select.orderBy.map _ from rfl,
    List.forall₂_map_right_iff, List.forall₂_same]
  refine fun key hkey => ⟨rfl, fun group => ?_⟩
  have hrow : Row.names (valueRow engine select.items group) = schema.ids :=
    hlowered.fits.names_valueRow group
  by_cases hid : key.column ∈ schema.ids
  · have hnew : renamed changes key.column ∈ result.ids := by
      rw [ids_mapped hresult]
      exact List.mem_map_of_mem hid
    rw [get_sortRow_of_mem hlowered.fits hid, get_sortRow_of_mem hmapped.fits hnew,
      valueRow_mapped, ← newId_eq_renamed, Row.get_rename _ (hrow ▸ hid)]
    rw [hrow, funext (newId_eq_renamed changes), ← ids_mapped hresult]
    exact result.distinct
  · have hhidden := (hlowered.keys key hkey).resolve_left hid
    have hkept : renamed changes key.column = key.column :=
      renamed_of_not_mem fun hname => hid ((Schema.mapped_ok hresult).2 _ hname)
    have hnew : key.column ∉ result.ids := fun hnew => by simp [hhides _ hnew] at hhidden
    simp only [hkept]
    rw [get_sortRow_of_not_mem hlowered.fits hid, get_sortRow_of_not_mem hmapped.fits hnew]
    rfl

-- Among values under the new names of hidden columns, each name means its own place.
theorem get_orderColumn {hidden : List Item} {entry : Item × Nat} (h : entry ∈ hidden.zipIdx)
    (value : Item × Nat → V) :
    Row.get engine (hidden.zipIdx.map fun entry => (orderColumn entry.2, value entry))
      (orderColumn entry.2) = value entry := by
  have hsome :
      (hidden.zipIdx.find? fun other => orderColumn other.2 == orderColumn entry.2).isSome :=
    List.find?_isSome.mpr ⟨entry, h, beq_self_eq_true _⟩
  obtain ⟨found, hfound⟩ := Option.isSome_iff_exists.mp hsome
  have hplace : found.2 = entry.2 :=
    orderColumn_injective (by simpa using List.find?_some hfound)
  have hitem : hidden[found.2]? = some found.1 :=
    List.mem_zipIdx_iff_getElem?.mp (List.mem_of_find?_eq_some hfound)
  rw [hplace, List.mem_zipIdx_iff_getElem?.mp h] at hitem
  obtain rfl : found = entry := Prod.ext (Option.some.inj hitem).symm hplace
  exact Row.get_map hidden.zipIdx (fun entry => orderColumn entry.2) value hfound

theorem get_hidden_wrapOrdered {entry : Item × Nat} (hfits : select.Fits schema)
    (hentry : entry ∈ select.hidden.zipIdx) (hnew : orderColumn entry.2 ∉ schema.ids)
    (group : List (SourceRow V)) :
    (valueRow engine (select.wrapOrdered schema).hidden
        [⟨valueRow engine select.exposedInner.items group, []⟩]).get engine (orderColumn entry.2) =
      entry.1.exp.eval engine (fun _ => engine.null) group := by
  generalize hrow : valueRow engine select.exposedInner.items group = row
  have houter : valueRow engine (select.wrapOrdered schema).hidden [⟨row, []⟩] =
      select.hidden.zipIdx.map fun entry =>
        (orderColumn entry.2, row.get engine (orderColumn entry.2)) := by
    simp only [wrapOrdered_hidden, valueRow, resultRow, List.map_map]
    apply List.map_congr_left
    intro entry _
    simp [Item.column, Exp.eval, ValueExpr.eval, SourceRow.first, SourceRow.get]
  have hinner : row = valueRow engine select.items group ++ select.hidden.zipIdx.map fun entry =>
      (orderColumn entry.2, entry.1.exp.eval engine (fun _ => engine.null) group) := by
    rw [← hrow, exposedInner, valueRow_append]
    simp only [valueRow, resultRow, List.map_map]
    rfl
  rw [houter, get_orderColumn hentry, hinner, Row.get_append_right, get_orderColumn hentry]
  rwa [hfits.names_valueRow]

-- A select that takes over the order of its subquery finds under the new names of hidden
-- columns what the old ones meant there.
private theorem sameOrder_wrapOrdered (hlowered : select.Lowered schema)
    (hfresh : select.Fresh schema)
    (hhands : select.HandsOver schema.ids) :
    SameOrder engine select (select.wrapOrdered schema) fun group =>
      [⟨valueRow engine select.exposedInner.items group, []⟩] := by
  rw [SameOrder, wrapOrdered_orderBy, List.forall₂_map_right_iff, List.forall₂_same]
  intro key hkey
  by_cases hid : key.column ∈ schema.ids
  · have hstays : exposedKey select.hidden.zipIdx key = key :=
      exposedKey_of_not_hidden fun entry hentry =>
        hides_eq_false_iff.mp (hfresh _ hid) _ (List.fst_mem_of_mem_zipIdx hentry)
    refine ⟨by rw [hstays], fun group => ?_⟩
    rw [hstays, get_sortRow_of_mem hlowered.fits hid,
      get_sortRow_of_mem hlowered.wrapOrdered.fits hid, valueRow_wrapOrdered hlowered.fits]
  · obtain ⟨item, hitem, hname⟩ := hides_iff.mp ((hlowered.keys key hkey).resolve_left hid)
    obtain ⟨place, hplace⟩ := exists_mem_zipIdx hitem
    -- of several hidden columns of that name the first one is meant
    obtain ⟨entry, hfind⟩ := Option.isSome_iff_exists.mp
      (List.find?_isSome.mpr ⟨_, hplace, by simp [hname]⟩ :
        (select.hidden.zipIdx.find? fun entry => entry.1.name == key.column).isSome)
    have hentry := List.mem_of_find?_eq_some hfind
    have hexposed : exposedKey select.hidden.zipIdx key =
        { key with column := orderColumn entry.2 } :=
      exposedKey_of_find hfind (by simp [List.zipIdx_map_snd, List.pairwise_lt_range'])
        fun other hother => hhands.later other hother entry.2
    have hfirst : select.hidden.find? (fun item => item.name == key.column) = some entry.1 := by
      have hmap := List.find?_map (f := Prod.fst) (p := fun item : Item => item.name == key.column)
        (l := select.hidden.zipIdx)
      rw [List.zipIdx_map_fst] at hmap
      rw [hmap]
      exact congrArg (Option.map Prod.fst) hfind
    refine ⟨by rw [hexposed], fun group => ?_⟩
    have hplaced := List.mem_zipIdx_iff_getElem?.mp hentry
    have hnew := hhands.free entry.2 (List.getElem?_eq_some_iff.mp hplaced).1
    rw [hexposed, get_sortRow_of_not_mem hlowered.fits hid,
      get_sortRow_of_not_mem hlowered.wrapOrdered.fits hnew, get_valueRow hfirst,
      get_hidden_wrapOrdered hlowered.fits hentry hnew]

variable [DecidableEq V] {db : Database V}

-- A select that makes its rows from the same groups in the same order changes row by row what
-- is made of each group.
theorem Lowered.rows_map {image : List (SourceRow V) → List (SourceRow V)} (f : Row V → Row V)
    (hlowered : select.Lowered schema) (hother : other.Lowered result)
    (hgroups : other.groups engine db = (select.groups engine db).map image)
    (horder : SameOrder engine select other image)
    (hrow : ∀ group, valueRow engine other.items (image group) =
      f (valueRow engine select.items group)) :
    other.rows engine db = (select.rows engine db).map f := by
  have hsorted : (other.groups engine db).mergeSort (other.earlier engine) =
      ((select.groups engine db).mergeSort (select.earlier engine)).map image := by
    rw [hgroups]
    exact (List.map_mergeSort fun a _ b _ => horder.earlier_eq a b).symm
  rw [rows_sorted hother.all_isLowered, rows_sorted hlowered.all_isLowered, hsorted, List.map_map,
    List.map_map]
  exact List.map_congr_left fun group _ => hrow group

theorem Lowered.rows_map_same (f : Row V → Row V) (hlowered : select.Lowered schema)
    (hother : other.Lowered result) (hgroups : other.groups engine db = select.groups engine db)
    (horder : SameOrder engine select other fun group => group)
    (hrow : ∀ group, valueRow engine other.items group = f (valueRow engine select.items group)) :
    other.rows engine db = (select.rows engine db).map f :=
  hlowered.rows_map f hother (hgroups.trans (List.map_id' _).symm) horder hrow

theorem rows_wrapOrdered (hlowered : select.Lowered schema) (hfresh : select.Fresh schema)
    (hhands : select.HandsOver schema.ids) :
    (select.wrapOrdered schema).rows engine db = select.rows engine db := by
  rw [hlowered.rows_map id hlowered.wrapOrdered (groups_wrapOrdered hlowered)
    (sameOrder_wrapOrdered hlowered hfresh hhands) (valueRow_wrapOrdered hlowered.fits),
    List.map_id]

theorem rows_reuseOrdered {mergeable : Select → Bool} (h : Sql.Lowered selects schema)
    (hfresh : ∀ select ∈ selects, select.Fresh schema)
    (hstays : OrderStays mergeable schema.ids selects) :
    (reuseOrdered mergeable schema selects).rows engine db = rowsOfAll engine db selects := by
  refine reuseOrdered_cases_sorted (P := fun select => select.rows engine db = _)
    (fun select hselect _ => ?_) (rows_wrap h) (fun select hselect hadmits hsorted => ?_)
  · rw [hselect, rowsOfAll_singleton]
  · have hmem : select ∈ selects := by simp [hselect]
    rw [rows_wrapOrdered (h.each select hmem) (hfresh select hmem)
      (hstays select hselect hadmits hsorted), hselect, rowsOfAll_singleton]

end Select

namespace Lowered

open Select

variable [DecidableEq V] {db : Database V}
variable (h : Lowered selects schema) (hrowwise : ∀ select ∈ selects, select.Rowwise engine)
  (hfresh : ∀ select ∈ selects, select.Fresh schema)
include h hrowwise hfresh

theorem rows_projected {ids : List String} (hresult : schema.project ids = .ok result)
    (hstays : OrderStays (admitsProject ids) schema.ids selects) :
    ((reuseOrdered (admitsProject ids) schema selects).projected ids).rows engine db =
      (rowsOfAll engine db selects).map (Row.project engine ids) := by
  have hinput := Rowwise.reuseOrdered schema (admitsProject ids) hrowwise
  have hlowered := Lowered.reuseOrdered (admitsProject ids) h.each
  have horder : SameOrder engine _ _ fun group => group :=
    sameOrder_projected hlowered (Fresh.reuseOrdered hfresh hstays) (h.projected hresult) hresult
  rw [← rows_reuseOrdered h hfresh hstays]
  exact hlowered.rows_map_same _ (h.projected hresult)
    (groups_congr hinput hinput.project rfl rfl rfl) horder
    (valueRow_projected hlowered.fits (Schema.project_mem hresult))

-- Sorting is stable, so the rows that a filter keeps stay in their order.
theorem rows_filtered {condition : Filter} (hresult : schema.filtered condition = .ok result)
    (hstays : OrderStays (admitsFilter condition) schema.ids selects) :
    ((reuseOrdered (admitsFilter condition) schema selects).filtered condition).rows engine db =
      (rowsOfAll engine db selects).filter fun row => condition.holds engine (row.get engine) := by
  have hinput := Rowwise.reuseOrdered schema (admitsFilter condition) hrowwise
  have hlowered := Lowered.reuseOrdered (admitsFilter condition) h.each
  have hids := (Schema.filtered_ok hresult).2
  have hearlier : ∀ select : Select,
      (select.filtered condition).earlier engine = select.earlier engine :=
    fun _ => rfl
  rw [← rows_reuseOrdered h hfresh hstays,
    rows_sorted h.filtered.all_isLowered, rows_sorted hlowered.all_isLowered,
    groups_filtered hinput groupBy_filterInput (passesThrough_filterInput hids), hearlier,
    List.filter_map, ← filter_mergeSort earlier_trans earlier_total]
  rfl

theorem rows_extended {id : String} {exp : ValueExpr} {options : ExtendOptions}
    (hresult : schema.extended id exp options = .ok result)
    (hstays : OrderStays (admitsExtend id exp) (schema.ids ++ [id]) selects) :
    ((reuseOrdered (admitsExtend id exp) schema selects).extended id exp options.type).rows
        engine db =
      (rowsOfAll engine db selects).map (Row.extend engine id exp) := by
  have hinput := Rowwise.reuseOrdered schema (admitsExtend id exp) hrowwise
  have hlowered := Lowered.reuseOrdered (admitsExtend id exp) h.each
  have horder : SameOrder engine _ _ fun group => group :=
    sameOrder_extended hlowered (h.extended hresult) (Schema.ids_extended hresult)
      (hides_extendInput hstays (by simp))
  rw [← rows_reuseOrdered h hfresh (hstays.mono (List.subset_append_left _ _))]
  exact hlowered.rows_map_same _ (h.extended hresult)
    (groups_congr hinput hinput.extend rfl rfl rfl) horder
    (valueRow_extended (passesThrough_extendInput (Schema.extended_ok hresult).2.1))

theorem rows_mapped {changes : NameMap ColumnChange} (hresult : schema.mapped changes = .ok result)
    (hstays : OrderStays (admitsMapColumns changes) (schema.ids ++ result.ids) selects) :
    ((reuseOrdered (admitsMapColumns changes) schema selects).mapped changes).rows engine db =
      (rowsOfAll engine db selects).map (Row.rename changes) := by
  have hinput := Rowwise.reuseOrdered schema (admitsMapColumns changes) hrowwise
  have hlowered := Lowered.reuseOrdered (admitsMapColumns changes) h.each
  have horder : SameOrder engine _ _ fun group => group :=
    sameOrder_mapped hlowered (h.mapped hresult) hresult
      (hides_mapColumnsInput hfresh hresult (hstays.mono (List.subset_append_right _ _)))
  rw [← rows_reuseOrdered h hfresh (hstays.mono (List.subset_append_left _ _))]
  exact hlowered.rows_map_same _ (h.mapped hresult)
    (groups_congr hinput hinput.mapColumns rfl rfl rfl) horder
    valueRow_mapped

end Lowered

end PivotQuery.Sql
