import PivotQuery.Proofs.Lowering.OperatorBags
import PivotQuery.Proofs.Paging.RowNumbers
import PivotQuery.Proofs.Rows.Order

namespace PivotQuery

variable {V : Type} {engine : Engine V}

-- The columns of a schema with row numbers behind them.
def Schema.withRowNumber (schema : Schema) (hfree : Sql.rowNumberColumn ∉ schema.ids) : Schema :=
  ⟨schema.columns ++ [.ofType Sql.rowNumberColumn .integer], by
    rw [Column.ids, List.map_append]
    exact List.Nodup.append schema.distinct (by simp)
      (List.disjoint_singleton.mpr hfree)⟩

namespace Sql

namespace Select

variable {select : Select} {schema : Schema}

-- With all columns of its source at hand, ORDER BY finds there what is neither in the result
-- nor hidden. The text stays as it is, because hidden columns are not written.
def seeingSource (select : Select) : Select :=
  { select with
    hidden := select.hidden ++ select.source.columns.map fun id => Item.column id .string }

theorem Lowered.seeingSource (h : select.Lowered schema) : select.seeingSource.Lowered schema where
  fits := h.fits
  exps := h.exps
  keys key hkey := (h.keys key hkey).imp_right fun hhides => by
    obtain ⟨item, hitem, hname⟩ := hides_iff.mp hhides
    exact hides_iff.mpr ⟨item, List.mem_append_left _ hitem, hname⟩
  hidden := by
    refine List.forall_mem_append.mpr ⟨h.hidden, fun item hitem => ?_⟩
    obtain ⟨id, -, rfl⟩ := List.mem_map.mp hitem
    exact ⟨id, rfl⟩

variable [DecidableEq V] {db : Database V}

-- The order of a lowered select needs no other column of the source.
theorem rows_seeingSource (h : select.Lowered schema) :
    select.seeingSource.rows engine db = select.rows engine db := by
  rw [rows_sorted h.seeingSource.all_isLowered, rows_sorted h.all_isLowered]
  have hearlier : select.seeingSource.earlier engine = select.earlier engine := by
    funext a b
    refine precedes_congr (List.forall₂_same.mpr fun key hkey => ⟨rfl, ?_⟩)
    have hnames : ∀ group : List (SourceRow V),
        key.column ∈ Row.names (select.sortRow engine group) := by
      intro group
      rw [sortRow, names_valueRow, List.map_append, List.mem_append]
      rcases h.keys key hkey with hid | hhides
      · exact Or.inl (h.fits.names_eq.symm ▸ hid : key.column ∈ select.names)
      · obtain ⟨item, hitem, hname⟩ := hides_iff.mp hhides
        exact Or.inr (List.mem_map.mpr ⟨item, hitem, hname⟩)
    have hread : ∀ group : List (SourceRow V),
        (select.seeingSource.sortRow engine group).get engine key.column =
          (select.sortRow engine group).get engine key.column := by
      intro group
      rw [sortRow, Select.seeingSource, ← List.append_assoc, valueRow_append]
      exact Row.get_append_left (hnames group)
    exact ⟨hread a, hread b⟩
  rw [hearlier]
  rfl

theorem rows_filtered_unsorted {condition : Filter} (h : select.Lowered schema)
    (hrowwise : select.Rowwise engine) (hgroup : select.groupBy = [])
    (hunordered : select.orderBy = []) (hpass : select.passesThrough condition.columns = true) :
    (select.filtered condition).rows engine db =
      (select.rows engine db).filter fun row => condition.holds engine (row.get engine) := by
  rw [rows_unsorted h.filter.all_isLowered hunordered, rows_unsorted h.all_isLowered hunordered,
    groups_filtered hrowwise hgroup hpass, List.filter_map]
  rfl

end Select

variable {schema : Schema} {selects : List Select}

-- The order of the rows where it is that of a window over them.
def inWindow (engine : Engine V) (selects : List Select) (a b : Row V) : Bool :=
  precedes engine (unordered selects).2 (a.get engine) (b.get engine)

section Unordered

variable [DecidableEq V] {db : Database V}

theorem Select.groups_exposed {select : Select} (h : select.Lowered schema) :
    ({ select with orderBy := [] } : Select).exposed.groups engine db =
      select.groups engine db := by
  refine Select.groups_congr_items rfl rfl rfl fun _ => ?_
  have hhidden : (select.hidden.any fun item => item.exp.collapses engine) = false :=
    List.any_eq_false.mpr fun item hitem => by simp [h.hidden_collapses item hitem]
  rw [Select.exposed, List.any_append, hhidden, Bool.or_false]

-- The rows without their order, with what is hidden in them, still have all that the order
-- needs.
theorem rows_unordered (h : Lowered selects schema) :
    ((rowsOfAll engine db (unordered selects).1).mergeSort (inWindow engine selects)).map
      (Row.project engine schema.ids) = rowsOfAll engine db selects := by
  by_cases hsingle : ∃ select, selects = [select]
  · obtain ⟨select, rfl⟩ := hsingle
    have hselect := h.each select (by simp)
    have hexposed : rowsOfAll engine db (unordered [select]).1 =
        (select.groups engine db).map (select.sortRow engine) := by
      rw [show (unordered [select]).1 = [({ select with orderBy := [] } : Select).exposed] from rfl,
        rowsOfAll_singleton, Select.rows_unsorted _ rfl, Select.groups_exposed hselect]
      · rfl
      · simpa [Select.exposed] using hselect.all_isLowered
    have hvisible : ∀ group, (select.sortRow engine group).project engine schema.ids =
        valueRow engine select.items group := by
      intro group
      have hcells : (select.sortRow engine group).project engine schema.ids =
          (valueRow engine select.items group).project engine schema.ids :=
        List.map_congr_left fun id hid => by rw [Select.get_sortRow_of_mem hselect.fits hid]
      rw [hcells, Row.project_ids (hselect.fits.names_valueRow group)]
    have hwindow : ((select.groups engine db).map (select.sortRow engine)).mergeSort
        (inWindow engine [select]) =
          ((select.groups engine db).mergeSort (select.earlier engine)).map
            (select.sortRow engine) :=
      (List.map_mergeSort (r := select.earlier engine) (f := select.sortRow engine)
        fun _ _ _ _ => rfl).symm
    rw [rowsOfAll_singleton, Select.rows_sorted hselect.all_isLowered, hexposed, hwindow,
      List.map_map]
    exact List.map_congr_left fun group _ => hvisible group
  · have hmany : unordered selects = (selects, []) := by
      unfold unordered
      split
      · exact absurd ⟨_, rfl⟩ hsingle
      · rfl
    have hwindow : ∀ a b, inWindow engine selects a b = true := by simp [inWindow, hmany, precedes]
    rw [hmany, List.mergeSort_of_pairwise (List.pairwise_of_forall hwindow)]
    refine (List.map_congr_left fun row hrow => ?_).trans (List.map_id _)
    exact Row.project_ids (h.names_of_mem_rows hrow)

end Unordered

theorem SourceRow.get_alone (row : Row V) :
    SourceRow.get engine ⟨row, []⟩ = row.get engine := by
  funext id
  rw [SourceRow.get, List.append_nil]

section Numbered

theorem Select.Rowwise.numbered : (numbered selects schema).Rowwise engine := by
  refine fun _ => List.forall_mem_append.mpr ⟨fun item hitem => ?_, by simp [Exp.collapses]⟩
  obtain ⟨column, -, rfl⟩ := List.mem_map.mp hitem
  rfl

variable [DecidableEq V] {db : Database V}

theorem sourceRows_numbered :
    (numbered selects schema).sourceRows engine db =
      (rowsOfAll engine db (unordered selects).1).map fun row => ⟨row, []⟩ :=
  List.filter_eq_self.mpr fun _ _ => rfl

-- A row of the query as one that is numbered, counting from one.
def numberedRow (engine : Engine V) (schema : Schema) (entry : Row V × Nat) : Row V :=
  entry.1.project engine schema.ids ++ [(rowNumberColumn, countValue engine (entry.2 + 1))]

-- Each row of the query gets the number of its place in the order.
theorem rows_numbered (engine : Engine V) (db : Database V) (selects : List Select)
    (schema : Schema) :
    (numbered selects schema).rows engine db =
      (numbering (inWindow engine selects) (rowsOfAll engine db (unordered selects).1)).map
        (numberedRow engine schema) := by
  generalize hrows : rowsOfAll engine db (unordered selects).1 = rows
  have hgroups : (numbered selects schema).groups engine db =
      rows.map fun row => [(⟨row, []⟩ : SourceRow V)] := by
    rw [Select.groups_eq Select.Rowwise.numbered rfl, sourceRows_numbered, hrows, List.map_map]
    rfl
  have hplace : ∀ index, placeOf engine (rows.map fun row => [(⟨row, []⟩ : SourceRow V)]) index
      (unordered selects).2 =
        countValue engine (place (inWindow engine selects) rows index + 1) := by
    intro index
    rw [placeOf, place, ordered, List.zipIdx_map,
      ← List.map_mergeSort (r := fun a b : Row V × Nat => inWindow engine selects a.1 b.1),
      List.map_map]
    · rfl
    · intro a _ b _
      simp [inWindow, SourceRow.first, SourceRow.get_alone]
  have hrow : ∀ (number : List SortKey → V) (row : Row V),
      resultRow engine (numbered selects schema).items number [⟨row, []⟩] =
        row.project engine schema.ids ++ [(rowNumberColumn, number (unordered selects).2)] := by
    intro number row
    have hcolumns : resultRow engine (schema.columns.map Item.ofColumn) number [⟨row, []⟩] =
        row.project engine schema.ids := by
      rw [resultRow_eq Select.exps_ofColumn, Select.valueRow_ofColumn, SourceRow.first,
        List.headD_cons, SourceRow.get_alone]
      rfl
    rw [← hcolumns]
    exact List.map_append
  rw [Select.rows_eq, hgroups, resultRows, List.mergeSort_of_pairwise, List.map_map]
  · rw [List.zipIdx_map, List.map_map, numbering, List.map_map]
    refine List.map_congr_left fun entry _ => (hrow _ entry.1).trans ?_
    exact congrArg _ (congrArg (fun number => [(rowNumberColumn, number)]) (hplace entry.2))
  · exact List.pairwise_of_forall fun _ _ => rfl

omit [DecidableEq V] in
theorem get_numberedRow (hfree : rowNumberColumn ∉ schema.ids) (entry : Row V × Nat) :
    (numberedRow engine schema entry).get engine rowNumberColumn =
      countValue engine (entry.2 + 1) := by
  rw [numberedRow, Row.get_append_right]
  · simp [Row.get]
  · simpa [Row.names, Row.project, Function.comp_def] using hfree

omit [DecidableEq V] in
theorem project_numberedRow (entry : Row V × Nat) :
    (numberedRow engine schema entry).project engine schema.ids =
      entry.1.project engine schema.ids := by
  refine List.map_congr_left fun id hid => ?_
  have hnames : id ∈ Row.names (entry.1.project engine schema.ids) := by
    simpa [Row.names, Row.project, Function.comp_def] using hid
  rw [numberedRow, Row.get_append_left hnames, Row.get_project hid]

private theorem names_of_mem_numbered {row : Row V}
    (hrow : row ∈ (numbered selects schema).rows engine db) :
    row.names = schema.ids ++ [rowNumberColumn] := by
  rw [rows_numbered] at hrow
  obtain ⟨entry, -, rfl⟩ := List.mem_map.mp hrow
  simp [numberedRow, Row.names, Row.project, Function.comp_def]

theorem columns_pageRange {offset limit : Option Nat} :
    ∀ id ∈ (pageRange offset limit).columns, id = rowNumberColumn := by
  cases limit <;>
    simp [pageRange, Filter.columns, Clause.columnsOfAll, Clause.columns, RelExp.columns,
      RelExp.operands, ValueExpr.columns, rowNumber]

theorem inRange_numbered (hfree : rowNumberColumn ∉ schema.ids) (range : Filter) :
    inRange (numbered selects schema) range =
      (Select.wrap [numbered selects schema] (schema.withRowNumber hfree)).filtered range := by
  simp only [inRange, numbered, Select.wrap, Select.plain, Select.filtered, Schema.withRowNumber,
    List.map_append, List.map_map]
  rfl

-- The rows with the numbers of the page, in the order in which they were numbered.
theorem rows_inRange (hfree : rowNumberColumn ∉ schema.ids) (offset limit : Option Nat) :
    (inRange (numbered selects schema) (pageRange offset limit)).rows engine db =
      ((numbered selects schema).rows engine db).filter fun row =>
        (pageRange offset limit).holds engine (row.get engine) := by
  have hids : (schema.withRowNumber hfree).ids = schema.ids ++ [rowNumberColumn] :=
    List.map_append
  have hwrapped : (Select.wrap [numbered selects schema] (schema.withRowNumber hfree)).rows
      engine db = (numbered selects schema).rows engine db := by
    rw [Select.wrap, Select.rows_plain]
    · simp [Source.rows, Function.comp_def]
    · intro row hrow
      obtain ⟨inner, hinner, rfl⟩ := List.mem_map.mp hrow
      rw [rowsOfAll_singleton] at hinner
      rw [List.append_nil, hids, names_of_mem_numbered hinner]
  rw [inRange_numbered hfree, Select.rows_filtered_unsorted (Select.Lowered.wrap _)
    (Select.Rowwise.wrap _) rfl rfl, hwrapped]
  refine Select.passesThrough_wrap fun id hid => ?_
  rw [columns_pageRange id hid, hids]
  simp

end Numbered

end Sql

end PivotQuery
