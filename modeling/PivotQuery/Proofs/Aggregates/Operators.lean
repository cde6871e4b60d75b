import PivotQuery.Proofs.Aggregates.OneRow
import PivotQuery.Proofs.Lowering.RowOrder

namespace PivotQuery

open Sql (Select)

variable {V : Type}

namespace RowOp

-- The columns whose values an operator needs.
def refersTo : RowOp → List String
  | filter condition => condition.columns
  | extend _ exp _ => exp.columns
  | project _ | mapColumns _ => []

def isFilter : RowOp → Bool
  | filter _ => true
  | _ => false

-- The names that some columns have after an operator, as far as they are still there.
def carry : RowOp → List String → List String
  | project ids, names => names.filter fun name => ids.contains name
  | mapColumns changes, names => names.map (Row.newId changes)
  | filter _, names | extend _ _ _, names => names

def carryAll (ops : List RowOp) (names : List String) : List String :=
  ops.foldl (fun names op => op.carry names) names

variable {engine : Engine V}

private theorem admits_mapColumns {changes : NameMap ColumnChange} {select : Select}
    (h : ∀ name, select.hides name = false) : (mapColumns changes).admits select = true := by
  rw [admits, Select.admitsMapColumns, List.any_eq_false.mpr fun name _ => by simp [h name]]
  rfl

-- An operator goes into a select of one row if it needs no column of it, and only then.
theorem admits_iff {op : RowOp} {select : Select} (h : select.Settled engine)
    (hone : select.makesOneRow engine = true) (hunordered : select.orderBy = []) :
    op.admits select = true ↔ op.refersTo = [] := by
  have hgroup := (Select.makesOneRow_iff.mp hone).1
  have hjoin := h.isJoin hone
  have hhides : ∀ name, select.hides name = false := by simp [Select.hides, h.hidden hunordered]
  have hpass : ∀ ids, select.passesThrough ids = true ↔ ids = [] := by
    refine fun ids => ⟨fun hpass => ?_, fun hids => by simp [hids, Select.passesThrough]⟩
    by_contra hids
    simp [h.passesThrough_eq_false hone hids] at hpass
  cases op with
  | project ids => simp [admits, refersTo, Select.admitsProject, hunordered]
  | filter condition => simp [admits, refersTo, Select.admitsFilter, hgroup, hjoin, hpass]
  | extend id exp options => simp [admits, refersTo, Select.admitsExtend, hjoin, hhides, hpass]
  | mapColumns changes =>
    exact iff_of_true (admits_mapColumns hhides) rfl

private theorem admits_wrap {op : RowOp} {selects : List Select} {schema result : Schema}
    (hresult : op.onSchema schema = .ok result) : op.admits (.wrap selects schema) = true := by
  cases op with
  | project ids => rfl
  | filter condition =>
    exact Select.admitsFilter_iff.mpr
      ⟨rfl, rfl, Select.passesThrough_wrap (Schema.filtered_ok hresult).2⟩
  | extend id exp options =>
    exact Select.admitsExtend_iff.mpr
      ⟨rfl, Select.passesThrough_wrap (Schema.extended_ok hresult).2.1, rfl⟩
  | mapColumns changes => exact admits_mapColumns fun _ => rfl

theorem rowwise_onSelect (op : RowOp) {select : Select} (h : select.Rowwise engine) :
    (op.onSelect select).Rowwise engine := by
  cases op with
  | project ids => exact h.project
  | filter condition => exact h.filter
  | extend id exp options => exact h.extend
  | mapColumns changes => exact h.mapColumns

variable [DecidableEq V] {db : Database V} {selects : List Select} {schema result : Schema}

theorem onRows_singleton {op : RowOp} (hop : op.isFilter = false) (row : Row V) :
    ∃ other, op.onRows engine [row] = [other] := by
  cases op with
  | filter condition => simp [isFilter] at hop
  | project ids => exact ⟨_, rfl⟩
  | extend id exp options => exact ⟨_, rfl⟩
  | mapColumns changes => exact ⟨_, rfl⟩

theorem valueRow_onSelect {op : RowOp} {select : Select} (hfits : select.Fits schema)
    (hresult : op.onSchema schema = .ok result) (hop : op.isFilter = false)
    (href : op.refersTo = []) (group : List (Sql.SourceRow V)) :
    op.onRows engine [Sql.valueRow engine select.items group] =
      [Sql.valueRow engine (op.onSelect select).items group] := by
  cases op with
  | project ids =>
    exact congrArg (fun row => [row])
      (Select.valueRow_projected hfits (Schema.project_mem hresult) group).symm
  | filter condition => simp [isFilter] at hop
  | extend id exp options =>
    have hpass : select.passesThrough exp.columns = true := by
      simp [show exp.columns = [] from href, Select.passesThrough]
    exact congrArg (fun row => [row]) (Select.valueRow_extended hpass group).symm
  | mapColumns changes => exact congrArg (fun row => [row]) (Select.valueRow_mapped group).symm

variable (db) in
-- Over selects that make no row of several, an operator does what it does to their rows.
theorem perm_onSelect {op : RowOp} (h : Sql.Lowered selects schema)
    (hrowwise : ∀ select ∈ selects, select.Rowwise engine)
    (hresult : op.onSchema schema = .ok result) :
    ((op.onSelect (Select.reuseOrdered op.admits schema selects)).rows engine db).Perm
      (op.onRows engine (Sql.rowsOfAll engine db selects)) := by
  apply Multiset.coe_eq_coe.mp
  cases op with
  | project ids => exact (h.bag_projected hrowwise hresult).trans (Multiset.map_coe _ _)
  | filter condition =>
    refine (h.bag_filtered hrowwise hresult).trans ((Multiset.filter_coe _ _).trans ?_)
    simp only [Bool.decide_eq_true, onRows]
  | extend id exp options => exact (h.bag_extended hrowwise hresult).trans (Multiset.map_coe _ _)
  | mapColumns changes => exact (h.bag_mapped hrowwise hresult).trans (Multiset.map_coe _ _)

end RowOp

namespace Query

variable [DecidableEq V] {engine : Engine V} {db : Database V}

-- A query of a single row that no select makes of several.
structure Alone (engine : Engine V) (db : Database V) (query : Query) (row : Row V) : Prop where
  rowwise : ∀ select ∈ query.lower, select.Rowwise engine
  rows : Sql.rowsOfAll engine db query.lower = [row]

theorem Alone.rows_apply {query : Query} {row : Row V} {op : RowOp} {result : Schema}
    (h : query.Alone engine db row) (haccepted : (op.apply query).infer = .ok result) :
    (Sql.rowsOfAll engine db (op.apply query).lower).Perm (op.onRows engine [row]) := by
  obtain ⟨schema, hinput, hresult⟩ := RowOp.infer_apply.mp haccepted
  rw [RowOp.lower_apply hinput, Sql.rowsOfAll_singleton, ← h.rows]
  exact RowOp.perm_onSelect db (lower_lowered.holds hinput) h.rowwise hresult

theorem Alone.apply {query : Query} {row : Row V} {op : RowOp} {result : Schema}
    (h : query.Alone engine db row) (haccepted : (op.apply query).infer = .ok result)
    (hop : op.isFilter = false) :
    ∃ other, op.onRows engine [row] = [other] ∧ (op.apply query).Alone engine db other := by
  obtain ⟨schema, hinput, -⟩ := RowOp.infer_apply.mp haccepted
  obtain ⟨other, hother⟩ : ∃ other, op.onRows engine [row] = [other] :=
    RowOp.onRows_singleton hop row
  refine ⟨other, hother, ?_, List.perm_singleton.mp (hother ▸ h.rows_apply haccepted)⟩
  rw [RowOp.lower_apply hinput]
  exact List.forall_mem_singleton.mpr
    (RowOp.rowwise_onSelect op (Select.Rowwise.reuseOrdered _ _ h.rowwise))

theorem Alone.applyAll {ops : List RowOp} {query : Query} {row : Row V} {result : Schema}
    (h : query.Alone engine db row) (haccepted : (RowOp.applyAll ops query).infer = .ok result)
    (hops : ∀ op ∈ ops, op.isFilter = false) :
    ∃ other, RowOp.allOnRows engine ops [row] = [other] ∧
      (RowOp.applyAll ops query).Alone engine db other := by
  induction ops generalizing query row with
  | nil => exact ⟨row, rfl, h⟩
  | cons op rest ih =>
    obtain ⟨hop, hrest⟩ := List.forall_mem_cons.mp hops
    obtain ⟨schema, hschema⟩ : ∃ schema, (op.apply query).infer = .ok schema :=
      RowOp.accepted_of_applyAll rest haccepted
    obtain ⟨next, hnext, halone⟩ := h.apply hschema hop
    obtain ⟨other, hother, hresult⟩ := ih halone haccepted hrest
    refine ⟨other, ?_, hresult⟩
    rw [RowOp.allOnRows, List.foldl_cons, hnext]
    exact hother

-- A query whose only select makes one row of everything, with its aggregates under some names.
structure Aggregated (engine : Engine V) (query : Query) (select : Select)
    (names : List String) : Prop where
  lower : query.lower = [select]
  groupBy : select.groupBy = []
  orderBy : select.orderBy = []
  aggregates : ∀ name ∈ names, ∃ item ∈ select.items,
    item.name = name ∧ item.exp.collapses engine = true

variable {query : Query} {select : Select} {names : List String} {op : RowOp} {result : Schema}

omit [DecidableEq V] in
theorem Aggregated.makesOneRow (h : query.Aggregated engine select names) (hnames : names ≠ []) :
    select.makesOneRow engine = true := by
  obtain ⟨name, rest, rfl⟩ := List.exists_cons_of_ne_nil hnames
  obtain ⟨item, hitem, -, hcollapses⟩ := h.aggregates name List.mem_cons_self
  exact Select.makesOneRow_iff.mpr ⟨h.groupBy, item, hitem, hcollapses⟩

omit [DecidableEq V] in
theorem Aggregated.admits_iff (h : query.Aggregated engine select names) (hnames : names ≠ [])
    (haccepted : (op.apply query).infer = .ok result) :
    op.admits select = true ↔ op.refersTo = [] := by
  obtain ⟨schema, hinput, -⟩ := RowOp.infer_apply.mp haccepted
  have hsettled := (lower_settled engine).holds hinput select (by simp [h.lower])
  exact RowOp.admits_iff hsettled (h.makesOneRow hnames) h.orderBy

omit [DecidableEq V] in
theorem Aggregated.lower_apply (h : query.Aggregated engine select names) (hnames : names ≠ [])
    (haccepted : (op.apply query).infer = .ok result) (href : op.refersTo = []) :
    (op.apply query).lower = [op.onSelect select] := by
  obtain ⟨schema, hinput, -⟩ := RowOp.infer_apply.mp haccepted
  have hadmits := (h.admits_iff hnames haccepted).mpr href
  rw [RowOp.lower_apply hinput, h.lower, Select.reuseOrdered, if_pos hadmits]

theorem Aggregated.rows (h : query.Aggregated engine select names) (hnames : names ≠ [])
    {schema : Schema} (hinput : query.infer = .ok schema) :
    Sql.rowsOfAll engine db query.lower =
      [Sql.valueRow engine select.items (select.sourceRows engine db)] := by
  have hlowered := (lower_lowered.holds hinput).each select (by simp [h.lower])
  rw [h.lower, Sql.rowsOfAll_singleton,
    Select.rows_of_makesOneRow (h.makesOneRow hnames) hlowered]

omit [DecidableEq V] in
-- An operator that needs no column goes into the select and leaves the other aggregates there.
theorem Aggregated.apply (h : query.Aggregated engine select names) (hnames : names ≠ [])
    (haccepted : (op.apply query).infer = .ok result) (hop : op.isFilter = false)
    (href : op.refersTo = []) :
    (op.apply query).Aggregated engine (op.onSelect select) (op.carry names) := by
  obtain ⟨schema, hinput, hresult⟩ := RowOp.infer_apply.mp haccepted
  have hfits := ((lower_lowered.holds hinput).each select (by simp [h.lower])).fits
  have hlower := h.lower_apply hnames haccepted href
  cases op with
  | filter condition => simp [RowOp.isFilter] at hop
  | project ids =>
    refine ⟨hlower, h.groupBy, h.orderBy, fun name hname => ?_⟩
    obtain ⟨hname, hkept⟩ := List.mem_filter.mp hname
    obtain ⟨item, hitem, rfl, hcollapses⟩ := h.aggregates name hname
    exact ⟨item, List.mem_filterMap.mpr ⟨item.name, by simpa using hkept, hfits.item?_self hitem⟩,
      rfl, hcollapses⟩
  | extend id exp options =>
    refine ⟨hlower, h.groupBy, h.orderBy, fun name hname => ?_⟩
    obtain ⟨item, hitem, hrest⟩ := h.aggregates name hname
    exact ⟨item, List.mem_append_left _ hitem, hrest⟩
  | mapColumns changes =>
    refine ⟨hlower, h.groupBy, List.map_eq_nil_iff.mpr h.orderBy, fun name hname => ?_⟩
    obtain ⟨old, hold, rfl⟩ := List.mem_map.mp hname
    obtain ⟨item, hitem, rfl, hcollapses⟩ := h.aggregates old hold
    exact ⟨_, List.mem_map_of_mem hitem, (Select.newId_eq_renamed _ _).symm, hcollapses⟩

variable (db) in
-- An operator that needs a column makes the select a subquery, whose row is then alone.
theorem Aggregated.rows_referring (h : query.Aggregated engine select names) (hnames : names ≠ [])
    (haccepted : (op.apply query).infer = .ok result) (href : op.refersTo ≠ []) :
    (∀ select ∈ (op.apply query).lower, select.Rowwise engine) ∧
      (Sql.rowsOfAll engine db (op.apply query).lower).Perm
        (op.onRows engine (Sql.rowsOfAll engine db query.lower)) := by
  obtain ⟨schema, hinput, hresult⟩ := RowOp.infer_apply.mp haccepted
  have hlowered := lower_lowered.holds hinput
  have hwrapped : Select.reuseOrdered op.admits schema query.lower = .wrap query.lower schema := by
    have hadmits : op.admits select ≠ true := fun hadmits =>
      href ((h.admits_iff hnames haccepted).mp hadmits)
    rw [h.lower, Select.reuseOrdered, if_neg hadmits, if_pos (by simp [h.orderBy])]
  have hreused : Select.reuseOrdered op.admits schema [.wrap query.lower schema] =
      .wrap query.lower schema :=
    if_pos (RowOp.admits_wrap hresult)
  have hrowwise : ∀ select ∈ [Select.wrap query.lower schema], select.Rowwise engine :=
    List.forall_mem_singleton.mpr (Select.Rowwise.wrap _)
  have hperm := RowOp.perm_onSelect db (.single (Select.Lowered.wrap _)) hrowwise hresult
  rw [hreused, Sql.rowsOfAll_singleton, Select.rows_wrap hlowered] at hperm
  rw [RowOp.lower_apply hinput, hwrapped, Sql.rowsOfAll_singleton]
  exact ⟨List.forall_mem_singleton.mpr (RowOp.rowwise_onSelect op (Select.Rowwise.wrap _)), hperm⟩

end Query

end PivotQuery
