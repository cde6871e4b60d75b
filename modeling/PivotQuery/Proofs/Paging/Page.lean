import PivotQuery.Proofs.Rows.Integers
import PivotQuery.Proofs.Paging.Window

namespace PivotQuery

open Sql (Select)

namespace Sql

variable {V : Type} {engine : Engine V}
variable {selects : List Select} {schema : Schema}

-- A row with its number, read by the select of the page.
def pageRow (engine : Engine V) (schema : Schema) (entry : Row V × Nat) : List (SourceRow V) :=
  [⟨numberedRow engine schema entry, []⟩]

private theorem valueRow_pageRow (entry : Row V × Nat) :
    valueRow engine (schema.columns.map Item.ofColumn) (pageRow engine schema entry) =
      entry.1.project engine schema.ids := by
  rw [Select.valueRow_ofColumn, pageRow, SourceRow.first, List.headD_cons, SourceRow.get_alone,
    ← project_numberedRow]
  rfl

-- The number is no column of the page, but one of its source.
private theorem get_sortRow_pageRow (hfree : rowNumberColumn ∉ schema.ids)
    (offset limit : Option Nat)
    (entry : Row V × Nat) :
    ((rowNumberPage selects schema offset limit).seeingSource.sortRow engine
      (pageRow engine schema entry)).get engine rowNumberColumn =
        countValue engine (entry.2 + 1) := by
  have hsource : rowNumberColumn ∈ (rowNumberPage selects schema offset limit).source.columns := by
    simp [rowNumberPage, Select.wrap, Select.plain, Source.columns, columnNames, inRange, numbered,
      Select.names, Item.column]
  have hfits : (rowNumberPage selects schema offset limit).seeingSource.Fits schema :=
    Select.forall₂_ofColumn schema.columns
  obtain ⟨item, hitem⟩ := Option.isSome_iff_exists.mp (List.find?_isSome.mpr
    ⟨_, List.mem_map_of_mem hsource, beq_self_eq_true rowNumberColumn⟩ :
      ((rowNumberPage selects schema offset limit).seeingSource.hidden.find? fun item =>
        item.name == rowNumberColumn).isSome)
  obtain ⟨id, -, rfl⟩ := List.mem_map.mp (List.mem_of_find?_eq_some hitem)
  obtain rfl : id = rowNumberColumn := by simpa [Item.column] using List.find?_some hitem
  rw [Select.get_sortRow_of_not_mem hfits hfree, get_valueRow hitem]
  exact (congrFun (SourceRow.get_alone _) _).trans (get_numberedRow hfree entry)

-- The outer order is that of the numbers.
private theorem earlier_pageRow (hintegers : engine.OrdersIntegers)
    (hfree : rowNumberColumn ∉ schema.ids) (offset limit : Option Nat) {a b : Row V × Nat}
    (ha : (a.2 + 1 : Int) < Int64.maxValue.toInt) (hb : (b.2 + 1 : Int) < Int64.maxValue.toInt) :
    (rowNumberPage selects schema offset limit).seeingSource.earlier engine
      (pageRow engine schema a) (pageRow engine schema b) = decide (a.2 ≤ b.2) := by
  have hnumbers : engine.before true (countValue engine (a.2 + 1)) (countValue engine (b.2 + 1)) =
      decide (a.2 ≤ b.2) := by
    rw [countValue, countValue, hintegers.before, toInt_clamped, toInt_clamped]
    exact decide_eq_decide.mpr (by omega)
  rw [Select.earlier, show (rowNumberPage selects schema offset limit).seeingSource.orderBy =
    [⟨rowNumberColumn, true⟩] from rfl]
  simp only [precedes, get_sortRow_pageRow hfree, hnumbers, Bool.or_true, Bool.and_true]

variable [DecidableEq V] {db : Database V}

-- What an engine answers, where ORDER BY may also refer to columns of the source.
def resultOf (engine : Engine V) (db : Database V) (selects : List Select) : List (Row V) :=
  rowsOfAll engine db (selects.map Select.seeingSource)

theorem resultOf_lowered (h : Lowered selects schema) :
    resultOf engine db selects = rowsOfAll engine db selects := by
  suffices heach : ∀ rest ⊆ selects, resultOf engine db rest = rowsOfAll engine db rest from
    heach selects (List.Subset.refl _)
  intro rest hrest
  induction rest with
  | nil => rfl
  | cons select rest ih =>
    obtain ⟨hselect, hrest⟩ := List.cons_subset.mp hrest
    rw [resultOf, List.map_cons, rowsOfAll, rowsOfAll, Select.rows_seeingSource (h.each _ hselect)]
    exact congrArg _ (ih hrest)

-- The page is made of the rows with a number on it.
private theorem groups_rowNumberPage (hintegers : engine.OrdersIntegers)
    (hfree : rowNumberColumn ∉ schema.ids) (offset limit : Option Nat)
    (hfew : ((rowsOfAll engine db (unordered selects).1).length : Int) < Int64.maxValue.toInt) :
    (rowNumberPage selects schema offset limit).groups engine db =
      ((numbering (inWindow engine selects) (rowsOfAll engine db (unordered selects).1)).filter
        fun entry => onPage offset limit entry.2).map (pageRow engine schema) := by
  have hsource : (rowNumberPage selects schema offset limit).sourceRows engine db =
      ((inRange (numbered selects schema) (pageRange offset limit)).rows engine db).map
        fun row => ⟨row, []⟩ := by
    simp [Select.sourceRows, rowNumberPage, Select.wrap, Select.plain, Source.rows, satisfies]
  have hrowwise : (rowNumberPage selects schema offset limit).Rowwise engine :=
    Select.Rowwise.wrap [inRange (numbered selects schema) (pageRange offset limit)]
  rw [Select.groups_eq hrowwise rfl, hsource, rows_inRange hfree, rows_numbered,
    List.filter_map, List.map_map, List.map_map]
  refine congrArg (List.map _) (List.filter_congr fun entry hentry => ?_)
  have hplace := numbering_lt _ hentry
  exact pageRange_holds hintegers (by omega) (get_numberedRow hfree entry)

theorem rows_rowNumberPage (hintegers : engine.OrdersIntegers) (h : Lowered selects schema)
    (hfree : rowNumberColumn ∉ schema.ids)
    (hfew : ((rowsOfAll engine db selects).length : Int) < Int64.maxValue.toInt)
    (offset limit : Option Nat) :
    (rowNumberPage selects schema offset limit).seeingSource.rows engine db =
      pageOf offset limit (rowsOfAll engine db selects) := by
  have hlength : (rowsOfAll engine db (unordered selects).1).length =
      (rowsOfAll engine db selects).length := by
    rw [← rows_unordered h, List.length_map, List.length_mergeSort]
  rw [← rows_unordered h, ← map_pageOf]
  rw [← hlength] at hfew
  have hgroups := groups_rowNumberPage hintegers hfree offset limit hfew
  have hitems : (rowNumberPage selects schema offset limit).seeingSource.items =
      schema.columns.map Item.ofColumn := rfl
  have hexps : ∀ item ∈ (rowNumberPage selects schema offset limit).seeingSource.items ++
      (rowNumberPage selects schema offset limit).seeingSource.hidden,
        item.exp.isLowered = true := by
    refine List.forall_mem_append.mpr ⟨Select.exps_ofColumn, fun item hitem => ?_⟩
    obtain ⟨id, -, rfl⟩ := List.mem_map.mp hitem
    rfl
  generalize rowsOfAll engine db (unordered selects).1 = rows at hgroups hfew ⊢
  have hsmall : ∀ entry ∈ (numbering (inWindow engine selects) rows).filter
      (fun entry => onPage offset limit entry.2), (entry.2 + 1 : Int) < Int64.maxValue.toInt := by
    intro entry hentry
    have hplace := numbering_lt _ (List.mem_filter.mp hentry).1
    omega
  rw [Select.rows_sorted hexps, hitems,
    show (rowNumberPage selects schema offset limit).seeingSource.groups engine db = _ from hgroups,
    ← List.map_mergeSort fun a ha b hb =>
      (earlier_pageRow hintegers hfree offset limit (hsmall a ha) (hsmall b hb)).symm,
    List.map_map, ← page_of_numbering, List.map_map]
  exact List.map_congr_left fun entry _ => valueRow_pageRow entry

end Sql

-- Pages by row numbers are slices of the rows in their order, and a page and the next one are
-- the page of both together. Numbers beyond the greatest integer do no harm.
theorem row_number_pages_are_slices {V : Type} [DecidableEq V] (engine : Engine V)
    (hintegers : engine.OrdersIntegers) (db : Database V) (query : TypedQuery)
    (hfree : Sql.rowNumberColumn ∉ query.schema.ids)
    (hfew : ((Sql.resultOf engine db query.query.lower).length : Int) < Int64.maxValue.toInt) :
    let page offset limit := Sql.rowNumberPage query.query.lower query.schema offset limit
    (∀ offset limit, (page offset limit).names = query.schema.ids ∧
      (∀ select ∈ query.query.lower, (page offset limit).names = select.names) ∧
      Sql.resultOf engine db [page offset limit] =
        pageOf offset limit (Sql.resultOf engine db query.query.lower)) ∧
    ∀ (offset size : Nat) (limit : Option Nat),
      Sql.resultOf engine db [page (some offset) (some size)] ++
          Sql.resultOf engine db [page (some (offset + size)) limit] =
        Sql.resultOf engine db [page (some offset) (limit.map (size + ·))] := by
  intro page
  have hlowered := Query.lower_lowered.holds query.typed
  have hpage : ∀ offset limit, Sql.resultOf engine db [page offset limit] =
      pageOf offset limit (Sql.resultOf engine db query.query.lower) := by
    intro offset limit
    rw [Sql.resultOf_lowered hlowered] at hfew ⊢
    rw [Sql.resultOf, List.map_singleton, Sql.rowsOfAll_singleton,
      Sql.rows_rowNumberPage hintegers hlowered hfree hfew]
  have hfits : ∀ offset limit, (page offset limit).Fits query.schema :=
    fun _ _ => Select.forall₂_ofColumn _
  refine ⟨fun offset limit => ⟨(hfits offset limit).names_eq, fun select hselect => ?_,
    hpage offset limit⟩, fun offset size limit => ?_⟩
  · rw [(hfits offset limit).names_eq, (hlowered.each select hselect).fits.names_eq]
  · rw [hpage, hpage, hpage, pageOf_append]

theorem ordersIntegers_integers : Engine.integers.OrdersIntegers where
  ge _ _ := rfl
  le _ _ := rfl
  before _ _ := rfl

-- The regions of the sales, the greatest sale first. The order is by a column that is gone.
def regionsByAmount : TypedQuery :=
  ⟨.project (.sort (.table "sales" saleColumns) [⟨"amount", false⟩]) ["region"],
    ⟨[.ofType "region" .integer], by decide⟩, rfl⟩

theorem row_number_pages_are_slices_regionsByAmount :
    Sql.rowNumberColumn ∉ regionsByAmount.schema.ids ∧
      ((Sql.resultOf .integers sales regionsByAmount.query.lower).length : Int) <
        Int64.maxValue.toInt ∧
      Sql.resultOf .integers sales
          [Sql.rowNumberPage regionsByAmount.query.lower regionsByAmount.schema (some 1) (some 2)] =
        [[("region", some 1)], [("region", none)]] := by
  have hfree : Sql.rowNumberColumn ∉ regionsByAmount.schema.ids := by decide
  have hrows : Sql.resultOf .integers sales regionsByAmount.query.lower =
      [[("region", some 2)], [("region", some 1)], [("region", none)], [("region", none)]] := by
    rw [Sql.resultOf_lowered (Query.lower_lowered.holds regionsByAmount.typed),
      Query.rows_of_lower rfl rfl]
    decide
  have hfew : ((Sql.resultOf .integers sales regionsByAmount.query.lower).length : Int) <
      Int64.maxValue.toInt := by
    rw [hrows]
    decide
  have hpage := ((row_number_pages_are_slices .integers ordersIntegers_integers sales
    regionsByAmount hfree hfew).1 (some 1) (some 2)).2.2
  exact ⟨hfree, hfew, by rw [hpage, hrows]; rfl⟩

end PivotQuery
