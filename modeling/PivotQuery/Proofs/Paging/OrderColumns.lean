import PivotQuery.Proofs.Lowering.HiddenCopies
import PivotQuery.Proofs.Lowering.NestedSelects
import PivotQuery.Proofs.Lowering.References
import PivotQuery.Proofs.Paging.Page

namespace PivotQuery

open Sql (Select)

namespace Sql

namespace Select

-- How many columns a name in ORDER BY can mean: those of the result come first, and those of
-- the source after them.
def meanings (select : Select) (name : String) : Nat :=
  if name ∈ select.names then select.names.count name else select.source.columns.count name

def windowKeys? (item : Item) : Option (List SortKey) :=
  match item.exp with
  | .rowNumber keys => some keys
  | _ => none

-- The orders of the windows in a select list.
def windows (select : Select) : List (List SortKey) := select.items.filterMap windowKeys?

-- The columns of a select are distinct, also from what it hides. A hidden column is there once
-- under a name that is made up, and once for each sort key under a name of the query.
structure HidesPerKey (select : Select) : Prop where
  distinct : select.names.Nodup
  apart : ∀ name ∈ select.hiddenNames, name ∉ select.names
  madeUp : ∀ index, orderColumn index ∈ select.hiddenNames →
    select.hiddenNames.count (orderColumn index) = 1
  perKey : ∀ name ∈ select.hiddenNames, (∀ index, name ≠ orderColumn index) →
    select.hiddenNames.count name = select.keyColumns.count name

-- A select of a query besides: each sort key means one column, and there is no window.
structure OrdersByColumns (select : Select) : Prop where
  hides : select.HidesPerKey
  meanings : ∀ key ∈ select.orderBy, select.meanings key.column = 1
  windows : select.windows = []

variable {select : Select} {schema : Schema}

theorem names_exposed : select.exposed.names = select.names ++ select.hiddenNames := by
  simp [exposed, names, hiddenNames]

theorem HidesPerKey.count_hidden (h : select.HidesPerKey) {name : String}
    (hname : name ∈ select.hiddenNames) :
    select.hiddenNames.count name = 1 ∨ (∀ index, name ≠ orderColumn index) ∧
      select.hiddenNames.count name = select.keyColumns.count name := by
  by_cases hreal : ∀ index, name ≠ orderColumn index
  · exact Or.inr ⟨hreal, h.perKey name hname hreal⟩
  · push Not at hreal
    obtain ⟨index, rfl⟩ := hreal
    exact Or.inl (h.madeUp index hname)

-- With the hidden columns, the select list repeats a name exactly if the order does.
theorem HidesPerKey.nodup_exposed_iff (h : select.HidesPerKey) :
    select.exposed.names.Nodup ↔ ∀ name ∈ select.hiddenNames,
      (∀ index, name ≠ orderColumn index) → select.keyColumns.count name = 1 := by
  rw [names_exposed, List.nodup_append]
  constructor
  · rintro ⟨-, hhidden, -⟩ name hname hreal
    rw [← h.perKey name hname hreal]
    exact List.count_eq_one_of_mem hhidden hname
  · intro hkeys
    refine ⟨h.distinct, List.nodup_iff_count_le_one.mpr fun name => ?_, ?_⟩
    · by_cases hname : name ∈ select.hiddenNames
      · rcases h.count_hidden hname with hone | ⟨hreal, hcount⟩
        · exact hone.le
        · exact (hcount.trans (hkeys name hname hreal)).le
      · rw [List.count_eq_zero.mpr hname]
        exact Nat.zero_le 1
    · rintro name hname _ hhidden rfl
      exact h.apart name hhidden hname

theorem windowKeys?_eq_none {item : Item} (h : item.exp.isLowered = true) :
    windowKeys? item = none := by
  unfold windowKeys?
  split
  · rename_i hexp
    simp [hexp, Exp.isLowered] at h
  · rfl

theorem windows_eq_nil (h : ∀ item ∈ select.items, item.exp.isLowered = true) :
    select.windows = [] :=
  List.filterMap_eq_nil_iff.mpr fun item hitem => windowKeys?_eq_none (h item hitem)

theorem HidesKeys.ordersByColumns (h : select.HidesKeys) (hlowered : select.Lowered schema)
    (hapart : select.Apart schema) (hscoped : select.Scoped) : select.OrdersByColumns where
  hides :=
    { distinct := hlowered.fits.names_eq ▸ schema.distinct
      apart := fun name hname => hlowered.fits.names_eq ▸ hapart.fresh_of_mem_hiddenNames hname
      madeUp := fun _ => hapart.count_orderColumn
      perKey := h.perKey }
  meanings := by
    intro key hkey
    by_cases hid : key.column ∈ select.names
    · rw [meanings, if_pos hid]
      exact List.count_eq_one_of_mem (hlowered.fits.names_eq ▸ schema.distinct) hid
    · rw [meanings, if_neg hid]
      -- what is hidden is a column of the source, and that is no join
      rw [hlowered.fits.names_eq] at hid
      obtain ⟨item, hitem, hname⟩ := hides_iff.mp ((hlowered.keys key hkey).resolve_left hid)
      have hjoin : select.isJoin = false := by
        by_contra hjoin
        simp [h.unordered (by simpa using hjoin)] at hkey
      refine List.count_eq_one_of_mem (h.source hjoin) ?_
      refine (hscoped.hidden item hitem).columns key.column ?_
      rw [h.identity item hitem, hname]
      exact List.mem_singleton_self _
  windows := windows_eq_nil hlowered.exps

theorem OrdersByColumns.exposedInner (hlowered : select.Lowered schema)
    (hschema : schema.Unreserved) : select.exposedInner.OrdersByColumns where
  hides :=
    { distinct := nodup_names_exposedInner hlowered hschema
      apart := by simp [hiddenNames, Select.exposedInner]
      madeUp := by simp [hiddenNames, Select.exposedInner]
      perKey := by simp [hiddenNames, Select.exposedInner] }
  meanings := by simp [Select.exposedInner]
  windows := by
    refine windows_eq_nil (List.forall_mem_append.mpr ⟨hlowered.exps, fun item hitem => ?_⟩)
    obtain ⟨⟨own, index⟩, hentry, rfl⟩ := List.mem_map.mp hitem
    obtain ⟨id, hexp⟩ := hlowered.hidden own (List.fst_mem_of_mem_zipIdx hentry)
    rw [show own.exp = .value (.column id) from hexp]
    rfl

-- The columns among which the window over a sorted select looks for a sort key.
theorem OrdersByColumns.count_exposed (h : select.OrdersByColumns)
    (hlowered : select.Lowered schema) {key : SortKey} (hkey : key ∈ select.orderBy) :
    select.exposed.names.count key.column = 1 ∨
      key.column ∉ schema.ids ∧ (∀ index, key.column ≠ orderColumn index) ∧
        select.exposed.names.count key.column = select.keyColumns.count key.column := by
  rw [names_exposed, List.count_append, ← hlowered.fits.names_eq]
  by_cases hid : key.column ∈ select.names
  · left
    have hvisible : key.column ∉ select.hiddenNames := fun hmem => h.hides.apart _ hmem hid
    rw [List.count_eq_one_of_mem h.hides.distinct hid, List.count_eq_zero.mpr hvisible]
  · have hhidden : key.column ∈ select.hiddenNames :=
      mem_hiddenNames.mpr ((hlowered.keys key hkey).resolve_left (hlowered.fits.names_eq ▸ hid))
    rw [List.count_eq_zero.mpr hid, Nat.zero_add]
    exact (h.hides.count_hidden hhidden).imp_right fun hcount => ⟨hid, hcount⟩

end Select

variable {selects : List Select} {schema : Schema}

theorem forall_nested_page {P : Select → Prop} {offset limit : Option Nat} :
    (∀ inner ∈ nestedSelects [rowNumberPage selects schema offset limit], P inner) ↔
      P (rowNumberPage selects schema offset limit) ∧
        P (inRange (numbered selects schema) (pageRange offset limit)) ∧
          P (numbered selects schema) ∧ ∀ inner ∈ nestedSelects (unordered selects).1, P inner := by
  rw [forall_nestedSelects_singleton]
  exact and_congr_right' (forall_nestedSelects_singleton.trans
    (and_congr_right' forall_nestedSelects_singleton))

theorem windows_numbered : (numbered selects schema).windows = [(unordered selects).2] := by
  have hwrapped : ((Select.wrap (unordered selects).1 schema).items).filterMap
      Select.windowKeys? = [] :=
    List.filterMap_eq_nil_iff.mpr fun item hitem =>
      Select.windowKeys?_eq_none (Select.exps_ofColumn item hitem)
  rw [Select.windows, show (numbered selects schema).items =
    (Select.wrap (unordered selects).1 schema).items ++ _ from rfl, List.filterMap_append, hwrapped]
  rfl

-- The number is a column of what the page reads, and no other has its name.
theorem meanings_rowNumberPage (hfree : rowNumberColumn ∉ schema.ids) {offset limit : Option Nat} :
    (rowNumberPage selects schema offset limit).meanings rowNumberColumn = 1 := by
  have hfits : (rowNumberPage selects schema offset limit).Fits schema :=
    Select.forall₂_ofColumn schema.columns
  have hsource : (rowNumberPage selects schema offset limit).source.columns =
      schema.ids ++ [rowNumberColumn] := by
    simp [rowNumberPage, Select.wrap, Select.plain, Source.columns, columnNames, inRange, numbered,
      Select.names, Item.column, Item.ofColumn, Schema.ids, Column.ids, Function.comp_def]
  rw [Select.meanings, hfits.names_eq, if_neg hfree, hsource, List.count_append,
    List.count_eq_zero.mpr hfree]
  simp

-- The rows of a page without their order contain no order but those inside them.
theorem forall_nested_unordered {P : Select → Prop} (hlowered : Lowered selects schema)
    (h : ∀ inner ∈ nestedSelects selects, P inner)
    (hexposed : ∀ select ∈ selects, select.Lowered schema →
      P { select with orderBy := [] }.exposed) :
    ∀ inner ∈ nestedSelects (unordered selects).1, P inner := by
  unfold unordered
  split
  · rename_i select
    exact forall_nestedSelects_singleton.mpr
      ⟨hexposed select List.mem_cons_self (hlowered.each select List.mem_cons_self),
        (forall_nestedSelects_singleton.mp h).2⟩
  · exact h

-- Only the select that numbers the rows of a page has a window.
private theorem windows_nested_page (hlowered : Lowered selects schema)
    (h : ∀ inner ∈ nestedSelects selects, inner.windows = []) {offset limit : Option Nat} :
    ∀ select ∈ nestedSelects [rowNumberPage selects schema offset limit],
      select.windows = [] ∨ select = numbered selects schema := by
  refine forall_nested_page.mpr ⟨Or.inl ?_, Or.inl ?_, Or.inr rfl, fun inner hinner => Or.inl ?_⟩
  · exact Select.windows_eq_nil Select.exps_ofColumn
  · refine Select.windows_eq_nil (List.forall_mem_map.mpr fun item _ => rfl)
  · refine forall_nested_unordered hlowered h (fun select _ hselect => ?_) inner hinner
    refine Select.windows_eq_nil (List.forall_mem_append.mpr ⟨hselect.exps, fun item hitem => ?_⟩)
    obtain ⟨id, hexp⟩ := hselect.hidden item hitem
    simp [hexp, Exp.isLowered]

private theorem meanings_nested_page (hlowered : Lowered selects schema)
    (hfree : rowNumberColumn ∉ schema.ids)
    (h : ∀ inner ∈ nestedSelects selects, ∀ key ∈ inner.orderBy, inner.meanings key.column = 1)
    {offset limit : Option Nat} :
    ∀ select ∈ nestedSelects [rowNumberPage selects schema offset limit],
      ∀ key ∈ select.orderBy, select.meanings key.column = 1 := by
  refine forall_nested_page.mpr ⟨?_, ?_, ?_, ?_⟩
  · exact List.forall_mem_singleton.mpr (meanings_rowNumberPage hfree)
  · simp [inRange, Select.plain]
  · simp [numbered, Select.wrap, Select.plain]
  · exact forall_nested_unordered hlowered h fun select _ _ => by simp [Select.exposed]

-- The window has the order of the query, and looks at what its select computes and hides.
theorem exists_select_of_window (hlowered : Lowered selects schema)
    (h : ∀ inner ∈ nestedSelects selects, inner.windows = []) {offset limit : Option Nat}
    {select : Select} (hselect : select ∈ nestedSelects [rowNumberPage selects schema offset limit])
    {keys : List SortKey} (hkeys : keys ∈ select.windows) {key : SortKey} (hkey : key ∈ keys) :
    ∃ own ∈ selects, keys = own.orderBy ∧ select.source.columns = own.exposed.names := by
  rcases windows_nested_page hlowered h select hselect with hnone | rfl
  · simp [hnone] at hkeys
  · rw [windows_numbered, List.mem_singleton] at hkeys
    subst hkeys
    unfold unordered at hkey
    split at hkey
    · exact ⟨_, List.mem_cons_self, rfl, rfl⟩
    · simp at hkey

end Sql

namespace Query

theorem nested_ordersByColumns : AcceptedCases fun query _ => query.Unreserved →
    ∀ select ∈ Sql.nestedSelects query.lower, select.OrdersByColumns := by
  refine forall_nested_lower fun {query schema} hinfer hunreserved select hselect => ?_
  have hlowered := (lower_lowered.holds hinfer).each select hselect
  have hscoped := (Sql.resolves_iff.mp (lower_resolves.holds hinfer) select hselect).1
  exact ⟨(lower_hidesKeys.holds hinfer hunreserved select hselect).ordersByColumns hlowered
      (lower_apart.holds hinfer hunreserved select hselect) hscoped,
    .exposedInner hlowered (Unreserved.schema hunreserved hinfer)⟩

private theorem nested_nodup_exposed : AcceptedCases fun query _ => query.Everywhere (fun node =>
    node.schema.Unreserved ∧ node.sortsOnce = true) →
    ∀ select ∈ Sql.nestedSelects query.lower, select.exposed.names.Nodup := by
  refine forall_nested_lower fun {query schema} hinfer hboth select hselect => ?_
  have hunreserved : query.Unreserved := fun node hnode => (hboth node hnode).1
  have honce : query.SortsOnce := fun node hnode => (hboth node hnode).2
  have hlowered := (lower_lowered.holds hinfer).each select hselect
  have horders := (lower_hidesKeys.holds hinfer hunreserved select hselect).ordersByColumns hlowered
    (lower_apart.holds hinfer hunreserved select hselect)
    (Sql.resolves_iff.mp (lower_resolves.holds hinfer) select hselect).1
  constructor
  · refine horders.hides.nodup_exposed_iff.mpr fun name hname hreal => ?_
    refine List.count_eq_one_of_mem
      (lower_keyColumns_nodup.holds hinfer hunreserved honce select hselect) ?_
    refine List.count_pos_iff.mp ?_
    rw [← horders.hides.perKey name hname hreal]
    exact List.count_pos_iff.mpr hname
  · rw [Select.names_exposed, show select.exposedInner.hiddenNames = [] from rfl, List.append_nil]
    exact Select.nodup_names_exposedInner hlowered (Unreserved.schema hunreserved hinfer)

end Query

-- Sort keys of the same column that leaves the result hide it once each, and nothing else is
-- hidden twice. Every ORDER BY of a query and of its pages refers to one column anyway. The
-- window that numbers the rows of a page looks among the hidden columns, where such a key has
-- as many meanings as it is repeated.
theorem hidden_columns_repeat_with_their_keys (query : TypedQuery)
    (hunreserved : query.query.Unreserved) (hfree : Sql.rowNumberColumn ∉ query.schema.ids)
    (offset limit : Option Nat) :
    let page := [Sql.rowNumberPage query.query.lower query.schema offset limit]
    (∀ select ∈ Sql.nestedSelects query.query.lower, select.HidesPerKey ∧
      (select.exposed.names.Nodup ↔ ∀ name ∈ select.hiddenNames,
        (∀ index, name ≠ Sql.orderColumn index) → select.keyColumns.count name = 1) ∧
      ∀ key ∈ select.orderBy, select.meanings key.column = 1) ∧
    (∀ select ∈ Sql.nestedSelects page,
      (∀ key ∈ select.orderBy, select.meanings key.column = 1) ∧
      ∀ keys ∈ select.windows, ∀ key ∈ keys, select.source.columns.count key.column = 1 ∨
        key.column ∉ query.schema.ids ∧ (∀ index, key.column ≠ Sql.orderColumn index) ∧
          select.source.columns.count key.column =
            (keys.map SortKey.column).count key.column) ∧
    (query.query.SortsOnce →
      (∀ select ∈ Sql.nestedSelects query.query.lower, select.exposed.names.Nodup) ∧
      ∀ select ∈ Sql.nestedSelects page, ∀ keys ∈ select.windows, ∀ key ∈ keys,
        select.source.columns.count key.column = 1) := by
  intro page
  have hlowered := Query.lower_lowered.holds query.typed
  have hnested := Query.nested_ordersByColumns.holds query.typed hunreserved
  have hself : ∀ select ∈ query.query.lower, select ∈ Sql.nestedSelects query.query.lower :=
    fun select hselect => Sql.mem_nestedSelects_self hselect
  have hwindows : ∀ inner ∈ Sql.nestedSelects query.query.lower, inner.windows = [] :=
    fun inner hinner => (hnested inner hinner).windows
  refine ⟨fun select hselect => ?_, fun select hselect => ⟨?_, fun keys hkeys key hkey => ?_⟩,
    fun honce => ?_⟩
  · have horders := hnested select hselect
    exact ⟨horders.hides, horders.hides.nodup_exposed_iff, horders.meanings⟩
  · exact Sql.meanings_nested_page hlowered hfree
      (fun inner hinner => (hnested inner hinner).meanings) select hselect
  · obtain ⟨own, hown, rfl, hsource⟩ :=
      Sql.exists_select_of_window hlowered hwindows hselect hkeys hkey
    rw [hsource]
    exact (hnested own (hself own hown)).count_exposed (hlowered.each own hown) hkey
  · have hnodup := Query.nested_nodup_exposed.holds query.typed
      fun node hnode => ⟨hunreserved node hnode, honce node hnode⟩
    refine ⟨hnodup, fun select hselect keys hkeys key hkey => ?_⟩
    obtain ⟨own, hown, rfl, hsource⟩ :=
      Sql.exists_select_of_window hlowered hwindows hselect hkeys hkey
    rw [hsource]
    refine List.count_eq_one_of_mem (hnodup own (hself own hown)) ?_
    rw [Select.names_exposed, List.mem_append, Select.mem_hiddenNames]
    refine ((hlowered.each own hown).keys key hkey).imp_left fun hid => ?_
    exact (hlowered.each own hown).fits.names_eq ▸ hid

-- The same column twice in one order, and not in the result.
def regionsByAmountTwice : TypedQuery :=
  ⟨.project (.sort (.table "sales" saleColumns) [⟨"amount", true⟩, ⟨"amount", false⟩]) ["region"],
    regionsByAmount.schema, rfl⟩

theorem hidden_columns_repeat_with_their_keys_regionsByAmountTwice :
    regionsByAmountTwice.query.Unreserved ∧
      Sql.rowNumberColumn ∉ regionsByAmountTwice.schema.ids ∧
      ∀ select ∈ regionsByAmountTwice.query.lower, select.hiddenNames.count "amount" = 2 := by
  have hids : ∀ node ∈ regionsByAmountTwice.query.nodes, ∀ id ∈ node.schema.ids,
      ¬"_order".toList <+: id.toList := by
    decide
  have hunreserved : regionsByAmountTwice.query.Unreserved :=
    fun node hnode id hid => Sql.ne_orderColumn (hids node hnode id hid)
  have hfree : Sql.rowNumberColumn ∉ regionsByAmountTwice.schema.ids := by decide
  refine ⟨hunreserved, hfree, fun select hselect => ?_⟩
  have hhides := ((hidden_columns_repeat_with_their_keys regionsByAmountTwice hunreserved hfree
    none none).1 select (Sql.mem_nestedSelects_self hselect)).1
  obtain rfl := List.mem_singleton.mp hselect
  exact hhides.perKey "amount" (by decide) (Sql.ne_orderColumn (by decide))

-- The hidden column is there twice, and the window of a page cannot tell which one is meant.
theorem regionsByAmountTwice_is_ambiguous :
    regionsByAmountTwice.query.Unreserved ∧
      (∀ node ∈ regionsByAmountTwice.query.nodes, Sql.rowNumberColumn ∉ node.schema.ids) ∧
      (∃ select ∈ Sql.nestedSelects regionsByAmountTwice.query.lower,
        select.exposed.names = ["region", "amount", "amount"] ∧ ¬select.exposed.names.Nodup) ∧
      (Sql.numbered regionsByAmountTwice.query.lower regionsByAmountTwice.schema).windows =
        [[⟨"amount", true⟩, ⟨"amount", false⟩]] ∧
      (Sql.numbered regionsByAmountTwice.query.lower
        regionsByAmountTwice.schema).source.columns.count "amount" = 2 := by
  have hids : ∀ node ∈ regionsByAmountTwice.query.nodes, ∀ id ∈ node.schema.ids,
      ¬"_order".toList <+: id.toList := by
    decide
  refine ⟨fun node hnode id hid => Sql.ne_orderColumn (hids node hnode id hid), by decide,
    ⟨_, Sql.mem_nestedSelects_self List.mem_cons_self, rfl, ?_⟩, rfl, rfl⟩
  decide

end PivotQuery
