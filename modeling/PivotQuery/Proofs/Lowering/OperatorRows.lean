import PivotQuery.Proofs.Rows.Evaluation
import PivotQuery.Proofs.Lowering.Scope

namespace PivotQuery.Sql.Select

variable {V : Type} {engine : Engine V} {select : Select} {schema result : Schema}

-- Without GROUP BY, no item makes one row of the whole result.
def Rowwise (engine : Engine V) (select : Select) : Prop :=
  select.groupBy = [] → ∀ item ∈ select.items, item.exp.collapses engine = false

theorem get_of_isIdentityAt {name : String} (h : select.isIdentityAt name = true)
    (group : List (SourceRow V)) :
    (valueRow engine select.items group).get engine name =
      (SourceRow.first group).get engine name := by
  obtain ⟨item, hitem, hexp⟩ := isIdentityAt_iff.mp h
  rw [get_valueRow hitem, hexp]
  rfl

theorem get_of_passesThrough {ids : List String} (h : select.passesThrough ids = true)
    (group : List (SourceRow V)) : ∀ id ∈ ids,
    (valueRow engine select.items group).get engine id =
      (SourceRow.first group).get engine id :=
  fun id hid => get_of_isIdentityAt (List.all_eq_true.mp h id hid) group

theorem valueRow_ofColumn (columns : List Column) (group : List (SourceRow V)) :
    valueRow engine (columns.map Item.ofColumn) group =
      (Column.ids columns).map fun id => (id, (SourceRow.first group).get engine id) := by
  simp only [valueRow, resultRow, Column.ids, List.map_map]
  rfl

-- The hidden columns stand behind the others, so they hide none of them even under a name
-- that a column of the query has.
theorem valueRow_wrapOrdered (hfits : select.Fits schema) (group : List (SourceRow V)) :
    valueRow engine (select.wrapOrdered schema).items
        [⟨valueRow engine select.exposedInner.items group, []⟩] =
      valueRow engine select.items group := by
  have hnames : Row.names (valueRow engine select.items group) = schema.ids :=
    hfits.names_valueRow group
  have hall : (valueRow engine select.items group).project engine schema.ids =
      valueRow engine select.items group :=
    Row.project_ids hnames
  rw [wrapOrdered_items, valueRow_ofColumn]
  refine Eq.trans (List.map_congr_left fun id hid => ?_) hall
  simp only [SourceRow.first, SourceRow.get, List.headD_cons, List.append_nil, exposedInner,
    valueRow_append]
  rw [Row.get_append_left (by rw [hnames]; exact hid)]

-- What each operator makes of the row of a group.

theorem valueRow_filterMap {α : Type} {item? : α → Option Item} {cell : α → String × V}
    {wanted : List α} {group : List (SourceRow V)}
    (h : ∀ a ∈ wanted, ∃ item, item? a = some item ∧
      (item.name, item.exp.eval engine (fun _ => engine.null) group) = cell a) :
    valueRow engine (wanted.filterMap item?) group = wanted.map cell := by
  induction wanted with
  | nil => rfl
  | cons a rest ih =>
    obtain ⟨⟨item, hitem, hcell⟩, hrest⟩ := List.forall_mem_cons.mp h
    rw [List.filterMap_cons_some hitem, List.map_cons, ← ih hrest, ← hcell]
    rfl

theorem valueRow_projected {ids : List String} (hfits : select.Fits schema)
    (hids : ∀ id ∈ ids, id ∈ schema.ids) (group : List (SourceRow V)) :
    valueRow engine (select.projected ids).items group =
      (valueRow engine select.items group).project engine ids := by
  apply valueRow_filterMap
  intro id hid
  obtain ⟨item, hitem⟩ := Option.isSome_iff_exists.mp (hfits.item?_isSome (hids id hid))
  exact ⟨item, hitem, by rw [get_valueRow hitem, (name_of_item? hitem).2]⟩

theorem valueRow_extended {id : String} {exp : ValueExpr} {type : ColumnType}
    (hpass : select.passesThrough exp.columns = true) (group : List (SourceRow V)) :
    valueRow engine (select.extended id exp type).items group =
      (valueRow engine select.items group).extend engine id exp := by
  have heval : exp.eval engine ((valueRow engine select.items group).get engine) =
      exp.eval engine ((SourceRow.first group).get engine) :=
    ValueExpr.eval_congr (get_of_passesThrough hpass group)
  simp only [extended, valueRow_append, Row.extend, heval]
  rfl

-- A group has its keys, which all its rows share, and what is aggregated over all of them.
theorem valueRow_grouped {keys : List String} {aggs : List Aggregate}
    (hids : ∀ id ∈ keys ++ aggs.map Aggregate.column, id ∈ schema.ids)
    (group : List (SourceRow V)) :
    valueRow engine (select.grouped schema keys aggs).items group =
      keyRow engine keys (SourceRow.first group) ++ aggs.map fun aggregate =>
        (aggregate.column, engine.aggregate aggregate.agg
          (group.map fun row => row.get engine aggregate.column)) := by
  obtain ⟨hkeys, haggs⟩ := List.forall_mem_append.mp hids
  simp only [grouped, valueRow_append]
  congr 1
  · apply valueRow_filterMap
    intro id hid
    obtain ⟨type, htype⟩ := Schema.exists_type? (hkeys id hid)
    exact ⟨_, by rw [keyItem?, htype]; rfl, rfl⟩
  · apply valueRow_filterMap
    intro aggregate haggregate
    obtain ⟨type, htype⟩ := Schema.exists_type? (haggs _ (List.mem_map_of_mem haggregate))
    exact ⟨_, by rw [aggregateItem?, htype]; rfl, rfl⟩

theorem newId_eq_renamed (changes : NameMap ColumnChange) (id : String) :
    Row.newId changes id = renamed changes id := by
  unfold Row.newId renamed
  cases changes.get? id <;> rfl

theorem valueRow_mapped {changes : NameMap ColumnChange} (group : List (SourceRow V)) :
    valueRow engine (select.mapped changes).items group =
      (valueRow engine select.items group).rename changes := by
  simp [mapped, valueRow, resultRow, Row.rename, newId_eq_renamed]

-- Each column of a join comes from the left row if it is there. What the left row has no
-- column for is a column of the right row, or missing if there is none.
theorem valueRow_ofJoin {left right : Schema} {lhs rhs : List Select} {type : JoinType}
    {on : List String} (h : left.joined right on = .ok schema) {leftRow : Row V}
    (hnames : leftRow.names = left.ids) (rightRow : Row V) :
    valueRow engine (ofJoin schema left lhs rhs type on).items [⟨leftRow, rightRow⟩] =
      leftRow ++ rightRow.project engine (right.ids.filter fun id => !on.contains id) := by
  obtain ⟨hcolumns, -, hclash⟩ := Schema.joined_ok h
  let cell (column : Column) : String × V :=
    (column.id, if left.contains column.id then leftRow.get engine column.id
      else rightRow.get engine column.id)
  have hcell : valueRow engine (ofJoin schema left lhs rhs type on).items [⟨leftRow, rightRow⟩] =
      schema.columns.map cell := by
    simp only [ofJoin, plain, valueRow, resultRow, List.map_map]
    apply List.map_congr_left
    intro column _
    by_cases hleft : left.contains column.id = true <;> simp [cell, hleft, Exp.eval] <;> rfl
  have hleft : left.columns.map cell = leftRow.project engine left.ids := by
    rw [Row.project, Schema.ids, Column.ids, List.map_map]
    apply List.map_congr_left
    intro column hcolumn
    simp [cell, Schema.contains_iff.mpr (Schema.mem_ids.mpr ⟨column, hcolumn, rfl⟩)]
  have hright : (right.columns.filter fun column => !on.contains column.id).map cell =
      rightRow.project engine (right.ids.filter fun id => !on.contains id) := by
    rw [Row.project, Schema.ids, Column.ids, List.filter_map, List.map_map]
    apply List.map_congr_left
    intro column hcolumn
    obtain ⟨hcolumn, hadded⟩ := List.mem_filter.mp hcolumn
    have hmissing : left.contains column.id = false := by
      by_contra hcontains
      have hon := hclash column.id (Schema.mem_ids.mpr ⟨column, hcolumn, rfl⟩)
        (Schema.contains_iff.mp (by simpa using hcontains))
      simp [hon] at hadded
    simp [cell, hmissing]
  rw [hcell, hcolumns, List.map_append, hleft, hright, Row.project_ids hnames]

theorem eval_castTo (type : ColumnType) (item : Item) (number : List SortKey → V)
    (group : List (SourceRow V)) :
    (castTo type item).exp.eval engine number group =
      if item.type.sameAs type then item.exp.eval engine number group
      else engine.cast type (item.exp.eval engine number group) := by
  unfold castTo
  split <;> rfl

-- A cast in a union is always one to text, and made exactly where the branch has another
-- type than the union.
theorem valueRow_align {target : Schema} (hfits : select.Fits schema)
    (hstacks : Schema.Stacks target.columns schema) (group : List (SourceRow V)) :
    valueRow engine (select.align target).items group =
      (valueRow engine select.items group).align engine schema target := by
  apply valueRow_filterMap
  intro column hcolumn
  obtain ⟨type, htype, hcases⟩ := hstacks column hcolumn
  obtain ⟨own, hown, rfl⟩ := Option.map_eq_some_iff.mp htype
  obtain ⟨hmem, hid⟩ := Schema.get?_eq_some.mp hown
  obtain ⟨item, -, hitem, hname, hsame⟩ := hfits.exists_item? hmem
  rw [hid] at hitem hname
  have hvalue : (castTo column.type item).exp.eval engine (fun _ => engine.null) group =
      if own.type.sameAs column.type then item.exp.eval engine (fun _ => engine.null) group
      else engine.cast .string (item.exp.eval engine (fun _ => engine.null) group) := by
    rw [eval_castTo, ColumnType.sameAs_congr hsame]
    split
    · rfl
    · rename_i hdiffers
      rw [hcases.resolve_left hdiffers]
  refine ⟨castTo column.type item, by rw [hitem]; rfl, ?_⟩
  rw [castTo_name, hname, hvalue, get_valueRow hitem, htype, Option.any_some]

end PivotQuery.Sql.Select
